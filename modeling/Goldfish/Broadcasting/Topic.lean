import Goldfish.Lib.Trace
import Mathlib.Data.Finset.Card
import Mathlib.Data.List.Perm.Basic
import Mathlib.Data.Nat.Bitwise
import Mathlib.Logic.Function.Basic

/-!
# Goldfish.Broadcasting.Topic

Topics and tickets (`broadcasting.h`). The world has topics, the variables that hold a
`Ticket` at the moment, and the broadcasts in progress.

* A callback is known by the number of the `subscribe` call that stored it. A ticket
  carries the number of the call that returned it (`origin`), which the program does not
  see: it says whose ticket it is, whatever its fields are.
* A broadcast runs step by step. Between two callbacks, and inside one, anything may
  happen that does not need the topic's `mMutex`: tickets move, other topics broadcast.
* The order of an `unordered_map` may be another one in each broadcast.
* A step that cannot be taken in the state (it waits for `mMutex`, or names a variable
  that is not there) is `blocked`.
-/

namespace Goldfish.Broadcasting

open Goldfish.Lib

/-- A `Ticket`, with the subscription it was issued for. -/
structure Ticket (T : Type) where
  mTopic : Option T
  mValue : UInt32
  origin : Option Nat
deriving DecidableEq

namespace Ticket

variable {T : Type}

/-- A ticket without a subscription. -/
def empty : Ticket T := ⟨none, 0, none⟩

/-- What a move constructor leaves behind. -/
def movedFrom (ticket : Ticket T) : Ticket T := ⟨none, ticket.mValue, none⟩

/-- What a move leaves behind. -/
def release (ticket : Ticket T) : Ticket T := { ticket with mTopic := none }

end Ticket

/-- A broadcast in progress: the position of `i`, and for the record the callbacks it
began with, those it has called and those that returned a ticket. -/
structure Broadcast where
  i : Nat
  live : List Nat
  called : List Nat
  returned : List Nat
deriving DecidableEq

/-- A `Topic`, with the broadcast that is going on. -/
structure Topic where
  mSubscriptions : List (UInt32 × Nat)
  mLastTicket : UInt32
  broadcast : Option Broadcast
deriving DecidableEq

/-- A broadcast that is over. -/
structure Report (T : Type) where
  topic : T
  live : List Nat
  called : List Nat
  returned : List Nat
  left : List Nat
deriving DecidableEq

/-- Why a step cannot be taken. -/
inductive Fault where
  | blocked
  /-- An `assert` of `broadcast` fails. -/
  | assertion
  /-- The `assert` of `~Ticket` fails. -/
  | subscribed
  /-- The loop of `subscribe` does not end. -/
  | loops
deriving DecidableEq

/-- The steps of the clients and of the broadcasts. -/
inductive Action (T V : Type) where
  | construct (v : V)
  | move (v rhs : V)
  | assign (v rhs : V)
  | destroy (v : V)
  | subscribe (t : T) (v : V)
  | unsubscribe (v : V)
  | broadcast (t : T) (order : List (UInt32 × Nat))
  /-- The callback at `i` is called and returns nothing, or the ticket of a variable. -/
  | callback (t : T) (result : Option V)
  | finish (t : T)
  /-- The last `shared_ptr` of the topic goes. -/
  | expire (t : T)
deriving DecidableEq

namespace Topic

/-- The tickets that are subscribed, in the order of the map. -/
def keys (topic : Topic) : List UInt32 := topic.mSubscriptions.map Prod.fst

/-- The callbacks that are subscribed, in the order of the map. -/
def callbacks (topic : Topic) : List Nat := topic.mSubscriptions.map Prod.snd

/-- The loop of `subscribe`, for at most so many turns: `++mLastTicket` until the map has
no such key. -/
def freeTicket (keys : List UInt32) : Nat → UInt32 → Option UInt32
  | 0, _ => none
  | turns + 1, mLastTicket =>
    if mLastTicket + 1 ∈ keys then freeTicket keys turns (mLastTicket + 1) else some (mLastTicket + 1)

/-- After so many turns `mLastTicket` is where it began. -/
def period : Nat := 2 ^ 32

/-- `subscribe`: the ticket is the next one that is free. -/
def subscribe (topic : Topic) (callback : Nat) : Except Fault (Topic × UInt32) :=
  match freeTicket topic.keys period topic.mLastTicket with
  | none => .error .loops
  | some ticket => .ok
    ({ topic with mSubscriptions := topic.mSubscriptions ++ [(ticket, callback)], mLastTicket := ticket },
      ticket)

/-- `unsubscribeImpl`. -/
def unsubscribeImpl (topic : Topic) (ticket : UInt32) : Topic :=
  { topic with mSubscriptions := topic.mSubscriptions.filter fun s => s.1 ≠ ticket }

/-- `++i`, after the callback at `i`. -/
def advance (topic : Topic) (b : Broadcast) (callback : Nat) : Topic :=
  { topic with broadcast := some { b with i := b.i + 1, called := b.called ++ [callback] } }

/-- `i = mSubscriptions.erase(i)`. -/
def eraseAt (topic : Topic) (b : Broadcast) (callback : Nat) : Topic :=
  { topic with
    mSubscriptions := topic.mSubscriptions.eraseIdx b.i,
    broadcast := some { b with called := b.called ++ [callback], returned := b.returned ++ [callback] } }

end Topic

/-- The topics, the tickets that clients hold, and what has been reported. -/
structure World (T V : Type) where
  topics : T → Option Topic
  tickets : V → Option (Ticket T)
  subscribed : Nat
  broadcasts : List (Report T)

namespace World

variable {T V : Type}

/-- Topics without subscriptions, and no tickets. -/
def initial : World T V := ⟨fun _ => some ⟨[], 0, none⟩, fun _ => none, 0, []⟩

/-- `mTopic.lock()` -/
def lock (w : World T V) (ticket : Ticket T) : Option T :=
  ticket.mTopic.filter fun t => (w.topics t).isSome

/-- A topic whose `mMutex` is free. -/
def unlocked (w : World T V) (t : T) : Except Fault Topic :=
  match w.topics t with
  | some topic => if topic.broadcast = none then .ok topic else .error .blocked
  | none => .error .blocked

/-- The topic and its broadcast, if there is one. -/
def broadcasting (w : World T V) (t : T) : Except Fault (Topic × Broadcast) :=
  match w.topics t with
  | some topic =>
    match topic.broadcast with
    | some b => .ok (topic, b)
    | none => .error .blocked
  | none => .error .blocked

/-- The ticket in a variable, if there is one. -/
def ticket (w : World T V) (v : V) : Except Fault (Ticket T) :=
  match w.tickets v with
  | some ticket => .ok ticket
  | none => .error .blocked

/-- There is no such variable yet. -/
def unused (w : World T V) (v : V) : Except Fault Unit :=
  match w.tickets v with
  | some _ => .error .blocked
  | none => .ok ()

/-- The topic has this subscription, under this key. -/
def Has (w : World T V) (t : T) (key : UInt32) (callback : Nat) : Prop :=
  ∃ topic, w.topics t = some topic ∧ (key, callback) ∈ topic.mSubscriptions

/-- The ticket of this variable is subscribed to this topic. -/
def Live (w : World T V) (v : V) (ticket : Ticket T) (t : T) : Prop :=
  w.tickets v = some ticket ∧ w.lock ticket = some t

variable {w : World T V}

theorem lock_eq_some {ticket : Ticket T} {t : T} :
    w.lock ticket = some t ↔ ticket.mTopic = some t ∧ (w.topics t).isSome := by
  simp [lock, Option.filter_eq_some_iff]

@[simp] theorem unlocked_eq_ok {t : T} {topic : Topic} :
    w.unlocked t = .ok topic ↔ w.topics t = some topic ∧ topic.broadcast = none := by
  cases h : w.topics t with
  | none => simp [unlocked, h]
  | some found =>
    simp only [unlocked, h, Option.some.injEq]
    split
    · simp only [Except.ok.injEq]
      grind
    · grind

@[simp] theorem broadcasting_eq_ok {t : T} {topic : Topic} {b : Broadcast} :
    w.broadcasting t = .ok (topic, b) ↔ w.topics t = some topic ∧ topic.broadcast = some b := by
  cases h : w.topics t with
  | none => simp [broadcasting, h]
  | some found =>
    cases hb : found.broadcast with
    | none => simp only [broadcasting, h, hb]; grind
    | some b' => simp only [broadcasting, h, hb]; grind

@[simp] theorem ticket_eq_ok {v : V} {ticket : Ticket T} :
    w.ticket v = .ok ticket ↔ w.tickets v = some ticket := by
  unfold World.ticket
  split <;> simp_all

@[simp] theorem unused_eq_ok {v : V} {u : Unit} : w.unused v = .ok u ↔ w.tickets v = none := by
  unfold unused
  split <;> simp_all

theorem ticket_eq_error {v : V} {fault : Fault} (h : w.ticket v = .error fault) : fault = .blocked := by
  unfold World.ticket at h
  split at h <;> cases h
  rfl

theorem unused_eq_error {v : V} {fault : Fault} (h : w.unused v = .error fault) : fault = .blocked := by
  unfold unused at h
  split at h <;> cases h
  rfl

theorem unlocked_eq_error {t : T} {fault : Fault} (h : w.unlocked t = .error fault) : fault = .blocked := by
  unfold unlocked at h
  split at h
  · split at h <;> cases h
    rfl
  · cases h
    rfl

theorem broadcasting_eq_error {t : T} {fault : Fault} (h : w.broadcasting t = .error fault) :
    fault = .blocked := by
  unfold broadcasting at h
  split at h
  · split at h <;> cases h
    rfl
  · cases h
    rfl

/-- What `i` of a broadcast in progress points at. -/
def current (w : World T V) (t : T) : Option (UInt32 × Nat) := do
  let topic ← w.topics t
  let b ← topic.broadcast
  topic.mSubscriptions[b.i]?

/-! ### Steps -/

variable [DecidableEq T] [DecidableEq V]

/-- One topic changes, or is gone. -/
def setTopic (w : World T V) (t : T) (topic : Option Topic) : World T V :=
  { w with topics := Function.update w.topics t topic }

/-- One variable changes, or is empty. -/
def setTicket (w : World T V) (v : V) (ticket : Option (Ticket T)) : World T V :=
  { w with tickets := Function.update w.tickets v ticket }

/-- The callback at `i` returned the ticket of `v`. -/
def returned (w : World T V) (t : T) (topic : Topic) (b : Broadcast) (key : UInt32) (callback : Nat)
    (v : V) : Except Fault (World T V) := do
  let ticket ← w.ticket v
  if w.lock ticket ≠ some t then .error .assertion
  else if ticket.mValue ≠ key then .error .assertion
  else .ok ((w.setTopic t (some (topic.eraseAt b callback))).setTicket v (some ticket.movedFrom))

/-- One step. -/
def step (w : World T V) : Action T V → Except Fault (World T V)
  | .construct v => do
    w.unused v
    .ok (w.setTicket v (some Ticket.empty))
  | .move v rhs => do
    w.unused v
    let ticket ← w.ticket rhs
    .ok ((w.setTicket rhs (some ticket.movedFrom)).setTicket v (some ticket))
  | .assign v rhs => do
    let ticket ← w.ticket v
    let other ← w.ticket rhs
    if v = rhs then .ok w else .ok ((w.setTicket v (some other)).setTicket rhs (some ticket))
  | .destroy v => do
    let ticket ← w.ticket v
    if (w.lock ticket).isSome then .error .subscribed else .ok (w.setTicket v none)
  | .subscribe t v => do
    w.unused v
    let topic ← w.unlocked t
    let result ← topic.subscribe w.subscribed
    .ok { (w.setTopic t (some result.1)).setTicket v (some ⟨some t, result.2, some w.subscribed⟩) with
          subscribed := w.subscribed + 1 }
  | .unsubscribe v => do
    let ticket ← w.ticket v
    match w.lock ticket with
    | none => .ok w
    | some t =>
      let topic ← w.unlocked t
      .ok ((w.setTopic t (some (topic.unsubscribeImpl ticket.mValue))).setTicket v (some ticket.release))
  | .broadcast t order => do
    let topic ← w.unlocked t
    if order.Perm topic.mSubscriptions then
      .ok (w.setTopic t (some
        { topic with mSubscriptions := order, broadcast := some ⟨0, order.map Prod.snd, [], []⟩ }))
    else .error .blocked
  | .callback t result => do
    let (topic, b) ← w.broadcasting t
    match topic.mSubscriptions[b.i]?, result with
    | none, _ => .error .blocked
    | some s, none => .ok (w.setTopic t (some (topic.advance b s.2)))
    | some s, some v => w.returned t topic b s.1 s.2 v
  | .finish t => do
    let (topic, b) ← w.broadcasting t
    if b.i < topic.mSubscriptions.length then .error .blocked
    else .ok { w.setTopic t (some { topic with broadcast := none }) with
                broadcasts := w.broadcasts ++ [⟨t, b.live, b.called, b.returned, topic.callbacks⟩] }
  | .expire t => do
    let _ ← w.unlocked t
    .ok (w.setTopic t none)

/-- What the operations ask of the program: a callback returns nothing or the ticket of its own
`subscribe` call, and there are fewer than 2^32 subscriptions when another one is made. -/
def Obeys (w : World T V) : Action T V → Prop
  | .callback t (some v) => ∀ s ∈ w.current t, ∀ ticket ∈ w.tickets v, ticket.origin = some s.2
  | .subscribe t _ => ∀ topic ∈ w.topics t, topic.mSubscriptions.length < 2 ^ 32
  | _ => True

instance (w : World T V) : DecidablePred w.Obeys
  | .callback t (some v) =>
    inferInstanceAs (Decidable (∀ s ∈ w.current t, ∀ ticket ∈ w.tickets v, ticket.origin = some s.2))
  | .subscribe t _ =>
    inferInstanceAs (Decidable (∀ topic ∈ w.topics t, topic.mSubscriptions.length < 2 ^ 32))
  | .callback _ none | .construct _ | .move .. | .assign .. | .destroy _ | .unsubscribe _ | .broadcast ..
  | .finish _ | .expire _ => isTrue trivial

end World

end Goldfish.Broadcasting
