import Goldfish.Broadcasting.Subscriptions
import Mathlib.Logic.Function.Iterate

/-!
# Goldfish.Broadcasting.Arguments

**What each callback hears.** `broadcast(Args... args)` calls every callback with
`std::forward<Args>(args)...`. Where the types are no references, this moves the one
parameter of `broadcast` into the parameter of the callback, in every turn of its loop:
the first callback gets the value that was given, and each later one what the moves
before it have left (`forwards`).

An `Air` is the world of topics with the parameter of each broadcast in progress; its
steps are those of the world. A broadcast has every subscriber hear the same value
exactly if there is at most one, or a move leaves the value as it is
(`same_message_iff`).
-/

namespace Goldfish.Broadcasting

open Goldfish.Lib

/-- The types whose values can be moved: what a move leaves behind. -/
class Movable (α : Type) where
  movedFrom : α → α

export Movable (movedFrom)

instance : Movable Int := ⟨id⟩

instance : Movable String := ⟨fun _ => ""⟩

instance {α : Type} : Movable (List α) := ⟨fun _ => []⟩

/-- Several arguments. -/
instance {α β : Type} [Movable α] [Movable β] : Movable (α × β) :=
  ⟨fun args => (movedFrom args.1, movedFrom args.2)⟩

/-- The parameter of a broadcast: what it was given, what is left of it, and what the callbacks that
were called were given. -/
structure Message (α : Type) where
  given : α
  args : α
  heard : List (Nat × α)
deriving DecidableEq

/-- A broadcast that is over: the callbacks it began with, and its parameter. -/
structure Ended (α : Type) where
  live : List Nat
  message : Message α
deriving DecidableEq

/-- The world, with the parameters. -/
structure Air (T V α : Type) where
  world : World T V
  messages : T → Option (Message α)
  ended : List (Ended α)

section Messages

variable {α : Type} [Movable α]

/-- `(i->second)(std::forward<Args>(args)...)` -/
def Message.forward (message : Message α) (callback : Nat) : Message α :=
  { message with args := movedFrom message.args, heard := message.heard ++ [(callback, message.args)] }

/-- What callbacks that are called one after the other hear. -/
def forwards : α → List Nat → List (Nat × α)
  | _, [] => []
  | args, callback :: rest => (callback, args) :: forwards (movedFrom args) rest

theorem forwards_concat (args : α) (called : List Nat) (callback : Nat) :
    forwards args (called ++ [callback]) =
      forwards args called ++ [(callback, movedFrom^[called.length] args)] := by
  induction called generalizing args with
  | nil => rfl
  | cons c called ih => rw [List.cons_append, forwards, ih, forwards]; rfl

/-- A value that moves do not change is heard by all. -/
theorem forwards_of_fixed {args : α} (h : movedFrom args = args) (called : List Nat) :
    forwards args called = called.map fun callback => (callback, args) := by
  induction called with
  | nil => rfl
  | cons c called ih => rw [forwards, h, ih, List.map_cons]

/-- All hear the same: there is at most one, or the second one tells that moves do not change the value. -/
theorem forwards_same_iff {args : α} {called : List Nat} :
    (forwards args called = called.map fun callback => (callback, args)) ↔
      called.length ≤ 1 ∨ movedFrom args = args := by
  constructor
  · intro h
    match called with
    | [] => exact .inl (Nat.zero_le 1)
    | [_] => exact .inl (Nat.le_refl 1)
    | _ :: second :: rest =>
      have htail := (List.cons.inj h).2
      exact .inr (Prod.mk.inj (List.cons.inj htail).1).2
  · rintro (h | h)
    · match called with
      | [] => rfl
      | [_] => rfl
      | _ :: _ :: rest => simp at h
    · exact forwards_of_fixed h called

/-- The parameter, after these calls. -/
structure Message.After (message : Message α) (called : List Nat) : Prop where
  args : message.args = movedFrom^[called.length] message.given
  heard : message.heard = forwards message.given called

theorem Message.After.forward {message : Message α} {called : List Nat} (h : message.After called)
    (callback : Nat) : (message.forward callback).After (called ++ [callback]) where
  args := by
    show movedFrom message.args = _
    rw [h.args, List.length_append, List.length_singleton, Function.iterate_succ_apply']
    rfl
  heard := by
    show message.heard ++ [(callback, message.args)] = _
    rw [h.heard, h.args, ← forwards_concat]
    rfl

end Messages

/-! ### Steps -/

variable {T V α : Type} [DecidableEq T] [DecidableEq V] [Movable α]

namespace Air

/-- Nothing has been subscribed or broadcast. -/
def initial : Air T V α := ⟨World.initial, fun _ => none, []⟩

/-- The broadcast of a topic that ends now. -/
def ending (s : Air T V α) (t : T) : Option (Ended α) := do
  let topic ← s.world.topics t
  let b ← topic.broadcast
  let message ← s.messages t
  some ⟨b.live, message⟩

/-- What a step of the world does to the parameters. The arguments are those of `broadcast`. -/
def next (s : Air T V α) (action : Action T V) (args : α) (world : World T V) : Air T V α :=
  match action with
  | .broadcast t _ => ⟨world, Function.update s.messages t (some ⟨args, args, []⟩), s.ended⟩
  | .callback t _ =>
      ⟨world, Function.update s.messages t (do
        let called ← s.world.current t
        let message ← s.messages t
        some (message.forward called.2)), s.ended⟩
  | .finish t => ⟨world, s.messages, s.ended ++ (s.ending t).toList⟩
  | .construct _ | .move .. | .assign .. | .destroy _ | .subscribe .. | .unsubscribe _ | .expire _ =>
      ⟨world, s.messages, s.ended⟩

/-- One step, with the argument that goes with it. -/
def step (s : Air T V α) (action : Action T V × α) : Except Fault (Air T V α) :=
  s.next action.1 action.2 <$> s.world.step action.1

variable {s s' : Air T V α}

omit [DecidableEq V] in
@[simp] theorem next_world (action : Action T V) (args : α) (world : World T V) :
    (s.next action args world).world = world := by
  cases action <;> rfl

/-- The runs of the world are those of the air, whatever is said. -/
theorem run_world (acts : List (Action T V × α)) :
    (acts.map Prod.fst).foldlM World.step s.world = Air.world <$> acts.foldlM step s := by
  induction acts generalizing s with
  | nil => rfl
  | cons act acts ih =>
    rw [List.map_cons, List.foldlM_cons, List.foldlM_cons, step]
    cases h : s.world.step act.1 with
    | error fault => rfl
    | ok world =>
      have hnext := ih (s := s.next act.1 act.2 world)
      rw [next_world] at hnext
      exact hnext

end Air

/-! ### One step -/

namespace World

variable {w w' : World T V} {action : Action T V} {t : T} {topic : Topic} {b : Broadcast}

/-- Where a broadcast in progress comes from: it has begun, it has called a callback, or nothing has
happened to it. -/
inductive Progressed (w : World T V) (t : T) (topic : Topic) (b : Broadcast) : Action T V → Prop where
  | begun (order : List (UInt32 × Nat)) (h : topic.callbacks = order.map Prod.snd)
      (hb : b = ⟨0, order.map Prod.snd, [], []⟩) : Progressed w t topic b (.broadcast t order)
  | called (result : Option V) (old : Topic) (b₀ : Broadcast) (s : UInt32 × Nat)
      (hold : w.topics t = some old) (hb₀ : old.broadcast = some b₀) (hs : old.mSubscriptions[b₀.i]? = some s)
      (h : topic = old.advance b₀ s.2 ∨ topic = old.eraseAt b₀ s.2) :
      Progressed w t topic b (.callback t result)
  | same (action : Action T V) (hold : w.topics t = some topic) (hbroadcast : ∀ order, action ≠ .broadcast t order)
      (hcallback : ∀ result, action ≠ .callback t result) : Progressed w t topic b action

omit [DecidableEq V] in
/-- The topic that was set, or another one. -/
theorem setTopic_topics {t₀ : T} {new : Option Topic} (ht : (w.setTopic t₀ new).topics t = some topic) :
    t = t₀ ∧ new = some topic ∨ t ≠ t₀ ∧ w.topics t = some topic := by
  by_cases h : t = t₀
  · subst h
    exact .inl ⟨rfl, by simpa [setTopic] using ht⟩
  · exact .inr ⟨h, by simpa [setTopic, h] using ht⟩

omit [DecidableEq V] in
/-- A topic that is in a broadcast has not been set to one that is not. -/
theorem topics_of_setTopic {t₀ : T} {new : Option Topic} (hnew : ∀ n, new = some n → n.broadcast = none)
    (ht : (w.setTopic t₀ new).topics t = some topic) (hb : topic.broadcast = some b) :
    w.topics t = some topic := by
  rcases setTopic_topics ht with ⟨-, heq⟩ | ⟨-, hold⟩
  · rw [hnew topic heq] at hb
    cases hb
  · exact hold

theorem step_progressed (hstep : w.step action = .ok w') (ht : w'.topics t = some topic)
    (hb : topic.broadcast = some b) : Progressed w t topic b action := by
  cases action with
  | construct v =>
    simp only [step, bind_eq_ok, unused_eq_ok, Except.ok.injEq] at hstep
    obtain ⟨-, -, rfl⟩ := hstep
    exact .same _ ht (fun _ h => by cases h) fun _ h => by cases h
  | move v rhs =>
    simp only [step, bind_eq_ok, unused_eq_ok, ticket_eq_ok, Except.ok.injEq] at hstep
    obtain ⟨-, -, ticket, -, rfl⟩ := hstep
    exact .same _ ht (fun _ h => by cases h) fun _ h => by cases h
  | assign v rhs =>
    simp only [step, bind_eq_ok, ticket_eq_ok] at hstep
    obtain ⟨ticket, -, other, -, hstep⟩ := hstep
    have hsame : w'.topics = w.topics := by
      split at hstep
      · exact Except.ok.inj hstep ▸ rfl
      · exact Except.ok.inj hstep ▸ rfl
    exact .same _ (hsame ▸ ht) (fun _ h => by cases h) fun _ h => by cases h
  | destroy v =>
    simp only [step, bind_eq_ok, ticket_eq_ok] at hstep
    obtain ⟨ticket, -, hstep⟩ := hstep
    split at hstep
    · cases hstep
    · obtain rfl := Except.ok.inj hstep
      exact .same _ ht (fun _ h => by cases h) fun _ h => by cases h
  | subscribe t₀ v =>
    simp only [step, bind_eq_ok, unused_eq_ok, unlocked_eq_ok, Except.ok.injEq] at hstep
    obtain ⟨-, -, old, ⟨-, hfree⟩, result, hresult, rfl⟩ := hstep
    obtain ⟨-, heq⟩ := Topic.subscribe_eq_ok hresult
    have hold : w.topics t = some topic := topics_of_setTopic (by rintro _ ⟨⟩; rw [heq, hfree]) ht hb
    exact .same _ hold (fun _ h => by cases h) fun _ h => by cases h
  | unsubscribe v =>
    simp only [step, bind_eq_ok, ticket_eq_ok] at hstep
    obtain ⟨ticket, -, hstep⟩ := hstep
    split at hstep
    · obtain rfl := Except.ok.inj hstep
      exact .same _ ht (fun _ h => by cases h) fun _ h => by cases h
    · simp only [bind_eq_ok, unlocked_eq_ok, Except.ok.injEq] at hstep
      obtain ⟨old, ⟨-, hfree⟩, rfl⟩ := hstep
      have hfree' : (old.unsubscribeImpl ticket.mValue).broadcast = none := by
        rw [Topic.unsubscribeImpl, hfree]
      have hold : w.topics t = some topic := topics_of_setTopic (by rintro _ ⟨⟩; exact hfree') ht hb
      exact .same _ hold (fun _ h => by cases h) fun _ h => by cases h
  | broadcast t₀ order =>
    simp only [step, bind_eq_ok, unlocked_eq_ok] at hstep
    obtain ⟨old, -, hstep⟩ := hstep
    split at hstep
    · obtain rfl := Except.ok.inj hstep
      rcases setTopic_topics ht with ⟨rfl, hnew⟩ | ⟨hne, hold⟩
      · obtain rfl := Option.some.inj hnew
        exact .begun order rfl (Option.some.inj hb).symm
      · exact .same _ hold (fun _ h => hne (by cases h; rfl)) fun _ h => by cases h
    · cases hstep
  | callback t₀ result =>
    simp only [step, bind_eq_ok, broadcasting_eq_ok, Prod.exists] at hstep
    obtain ⟨old, b₀, ⟨hold, hb₀⟩, hstep⟩ := hstep
    have hcase : ∀ {s : UInt32 × Nat} {new : Topic}, old.mSubscriptions[b₀.i]? = some s →
        (new = old.advance b₀ s.2 ∨ new = old.eraseAt b₀ s.2) → (w.setTopic t₀ (some new)).topics t = some topic →
        Progressed w t topic b (.callback t₀ result) := by
      intro s new hs hnew ht
      rcases setTopic_topics ht with ⟨rfl, htopic⟩ | ⟨hne, hsame⟩
      · obtain rfl := Option.some.inj htopic
        exact .called result old b₀ s hold hb₀ hs hnew
      · exact .same _ hsame (fun _ h => by cases h) fun _ h => hne (by cases h; rfl)
    split at hstep
    · cases hstep
    · next s hs =>
      obtain rfl := Except.ok.inj hstep
      exact hcase hs (.inl rfl) ht
    · next s v hs =>
      simp only [returned, bind_eq_ok, ticket_eq_ok] at hstep
      obtain ⟨ticket, -, hstep⟩ := hstep
      split at hstep
      · cases hstep
      · split at hstep
        · cases hstep
        · obtain rfl := Except.ok.inj hstep
          exact hcase hs (.inr rfl) ht
  | finish t₀ =>
    simp only [step, bind_eq_ok, broadcasting_eq_ok, Prod.exists] at hstep
    obtain ⟨old, b₀, -, hstep⟩ := hstep
    split at hstep
    · cases hstep
    · obtain rfl := Except.ok.inj hstep
      have hold : w.topics t = some topic := topics_of_setTopic (by rintro _ ⟨⟩; rfl) ht hb
      exact .same _ hold (fun _ h => by cases h) fun _ h => by cases h
  | expire t₀ =>
    simp only [step, bind_eq_ok, Except.ok.injEq] at hstep
    obtain ⟨-, -, rfl⟩ := hstep
    have hold : w.topics t = some topic := topics_of_setTopic (by simp) ht hb
    exact .same _ hold (fun _ h => by cases h) fun _ h => by cases h

/-- A broadcast ends when every callback has been called. -/
theorem finish_end (hstep : w.step (.finish t) = .ok w') (ht : w.topics t = some topic)
    (hb : topic.broadcast = some b) : topic.callbacks.drop b.i = [] := by
  simp only [step, bind_eq_ok, broadcasting_eq_ok, Prod.exists] at hstep
  obtain ⟨old, b₀, ⟨hold, hb₀⟩, hstep⟩ := hstep
  obtain rfl := Option.some.inj (hold.symm.trans ht)
  obtain rfl := Option.some.inj (hb₀.symm.trans hb)
  split at hstep
  · cases hstep
  · next hend => exact List.drop_of_length_le (by simpa [Topic.callbacks] using hend)

end World

/-! ### Runs -/

namespace Topic

variable {topic : Topic} {b : Broadcast} {s : UInt32 × Nat}

theorem drop_callbacks (hs : topic.mSubscriptions[b.i]? = some s) :
    topic.callbacks.drop b.i = s.2 :: topic.callbacks.drop (b.i + 1) := by
  obtain ⟨pre, post, heq, hi⟩ := around hs
  simp [callbacks, heq, ← hi, List.drop_append]

theorem drop_eraseAt (hs : topic.mSubscriptions[b.i]? = some s) :
    (topic.eraseAt b s.2).callbacks.drop b.i = topic.callbacks.drop (b.i + 1) := by
  obtain ⟨pre, post, heq, hi⟩ := around hs
  simp [eraseAt, callbacks, heq, ← hi, List.drop_append, List.eraseIdx_append_of_length_le]

end Topic

namespace Air

variable {s s' : Air T V α}

/-- Each broadcast in progress has its parameter, and what was called and what is still to come are what it
began with. -/
structure Tells (s : Air T V α) : Prop where
  ongoing : ∀ t topic b, s.world.topics t = some topic → topic.broadcast = some b →
    b.called ++ topic.callbacks.drop b.i = b.live ∧ ∃ message, s.messages t = some message ∧ message.After b.called
  ended : ∀ e ∈ s.ended, e.message.After e.live

omit [DecidableEq T] [DecidableEq V] in
theorem tells_initial : Tells (initial : Air T V α) where
  ongoing := by
    intro t topic b ht hb
    obtain rfl := Option.some.inj ht
    cases hb
  ended := by simp [initial]

theorem Tells.step {act : Action T V × α} (h : s.Tells) (hstep : s.step act = .ok s') : s'.Tells := by
  obtain ⟨action, args⟩ := act
  obtain ⟨world, hworld, rfl⟩ := map_eq_ok.mp hstep
  constructor
  case ongoing =>
    intro t topic b ht hb
    rw [next_world] at ht
    cases World.step_progressed hworld ht hb with
    | begun order hcallbacks hbegun =>
      subst hbegun
      exact ⟨by simp [hcallbacks], ⟨args, args, []⟩, Function.update_self .., rfl, rfl⟩
    | called result old b₀ c hold hb₀ hs hnew =>
      obtain ⟨hlive, message, hmessage, hafter⟩ := h.ongoing t old b₀ hold hb₀
      rw [Topic.drop_callbacks hs] at hlive
      have hnext : (s.next (.callback t result) args world).messages t = some (message.forward c.2) := by
        show Function.update s.messages t _ t = _
        rw [Function.update_self]
        simp [World.current, hold, hb₀, hs, hmessage]
      rcases hnew with rfl | rfl
      · obtain rfl := Option.some.inj hb
        refine ⟨?_, _, hnext, hafter.forward c.2⟩
        rw [← hlive]
        exact List.append_assoc ..
      · obtain rfl := Option.some.inj hb
        refine ⟨?_, _, hnext, hafter.forward c.2⟩
        show (b₀.called ++ [c.2]) ++ (old.eraseAt b₀ c.2).callbacks.drop b₀.i = b₀.live
        rw [Topic.drop_eraseAt hs, ← hlive]
        exact List.append_assoc ..
    | same action hold hbroadcast hcallback =>
      obtain ⟨hlive, message, hmessage, hafter⟩ := h.ongoing t topic b hold hb
      refine ⟨hlive, message, ?_, hafter⟩
      rw [← hmessage]
      cases action with
      | broadcast t₀ order =>
        have hne : t ≠ t₀ := fun heq => hbroadcast order (by rw [heq])
        exact Function.update_of_ne hne ..
      | callback t₀ result =>
        have hne : t ≠ t₀ := fun heq => hcallback result (by rw [heq])
        exact Function.update_of_ne hne ..
      | construct v => rfl
      | move v rhs => rfl
      | assign v rhs => rfl
      | destroy v => rfl
      | subscribe t₀ v => rfl
      | unsubscribe v => rfl
      | finish t₀ => rfl
      | expire t₀ => rfl
  case ended =>
    intro e he
    cases action with
    | finish t =>
      rcases List.mem_append.mp he with he | he
      · exact h.ended e he
      · obtain ⟨topic, ht, b, hb, message, hmessage, rfl⟩ : ∃ topic, s.world.topics t = some topic ∧
            ∃ b, topic.broadcast = some b ∧ ∃ message, s.messages t = some message ∧ ⟨b.live, message⟩ = e := by
          simpa [ending, Option.bind_eq_some_iff] using he
        obtain ⟨hlive, found, hfound, hafter⟩ := h.ongoing t topic b ht hb
        obtain rfl := Option.some.inj (hmessage.symm.trans hfound)
        rw [World.finish_end hworld ht hb, List.append_nil] at hlive
        exact hlive ▸ hafter
    | broadcast t order => exact h.ended e he
    | callback t result => exact h.ended e he
    | construct v => exact h.ended e he
    | move v rhs => exact h.ended e he
    | assign v rhs => exact h.ended e he
    | destroy v => exact h.ended e he
    | subscribe t v => exact h.ended e he
    | unsubscribe v => exact h.ended e he
    | expire t => exact h.ended e he

end Air

/-- **Every subscriber hears the same message**, in whatever order they are called and whatever happens in
between, exactly if the broadcast began with at most one, or moves leave its arguments as they are. -/
theorem same_message_iff {s : Air T V α} (acts : List (Action T V × α))
    (hrun : acts.foldlM Air.step Air.initial = .ok s) {e : Ended α} (he : e ∈ s.ended) :
    (e.message.heard = e.live.map fun callback => (callback, e.message.given)) ↔
      e.live.length ≤ 1 ∨ movedFrom e.message.given = e.message.given := by
  have htells : s.Tells := foldlM_invariant (fun _ _ _ h hstep => h.step hstep) Air.tells_initial hrun
  rw [(htells.ended e he).heard]
  exact forwards_same_iff

/-- Two subscriptions to one topic, and a broadcast to both. -/
def twoSubscribers {α : Type} (args : α) : List (Action Unit Nat × α) :=
  [(.subscribe () 0, args), (.subscribe () 1, args), (.broadcast () [(2, 1), (1, 0)], args),
    (.callback () none, args), (.callback () none, args), (.finish (), args)]

/-- Numbers are heard by both. -/
theorem both_hear_the_number :
    ∃ s, (twoSubscribers (7 : Int)).foldlM Air.step Air.initial = .ok s ∧
      ∀ e ∈ s.ended, e.message.heard = e.live.map fun callback => (callback, e.message.given) := by
  refine ⟨_, rfl, fun e he => ?_⟩
  exact (same_message_iff (twoSubscribers (7 : Int)) rfl he).mpr (.inr rfl)

/-- A text goes to the subscriber that is called first. -/
theorem second_hears_nothing :
    ∃ s, (twoSubscribers "hello").foldlM Air.step Air.initial = .ok s ∧
      ∃ e ∈ s.ended, e.message.given = "hello" ∧ e.message.heard = [(1, "hello"), (0, "")] ∧
        e.message.heard ≠ e.live.map fun callback => (callback, e.message.given) :=
  ⟨_, rfl, _, List.mem_singleton_self _, rfl, rfl, by decide⟩

end Goldfish.Broadcasting
