import Goldfish.Broadcasting.Topic

/-!
# Goldfish.Broadcasting.Subscriptions

**Whose subscription a ticket is.** The values of tickets come again when `mLastTicket`
wraps around, so a value alone does not say which `subscribe` call it came from. The
invariant `Inv` ties the two together by the number of the call: the ticket of a call
has the key of that call's subscription as long as there is one, and a subscribed ticket
has a subscription. Every operation keeps it, whatever the order of steps, and what
`unsubscribe` and `broadcast` remove is read off it (`topic_subscriptions`).
-/

namespace Goldfish.Broadcasting

open Goldfish.Lib

/-! ### A free ticket -/

namespace Topic

theorem freeTicket_not_mem {keys : List UInt32} {turns : Nat} {mLastTicket ticket : UInt32}
    (h : freeTicket keys turns mLastTicket = some ticket) : ticket ∉ keys := by
  induction turns generalizing mLastTicket with
  | zero => simp [freeTicket] at h
  | succ turns ih =>
    simp only [freeTicket] at h
    split at h
    · exact ih h
    · next hfree => exact Option.some.inj h ▸ hfree

/-- A loop that goes on has met a used key in each turn. -/
theorem freeTicket_eq_none {keys : List UInt32} {turns : Nat} {mLastTicket : UInt32}
    (h : freeTicket keys turns mLastTicket = none) {i : Nat} (hi : i < turns) :
    mLastTicket + 1 + UInt32.ofNat i ∈ keys := by
  induction turns generalizing mLastTicket i with
  | zero => omega
  | succ turns ih =>
    simp only [freeTicket] at h
    split at h
    · next hused =>
      cases i with
      | zero => simpa using hused
      | succ i =>
        have hnext := ih h (i := i) (by omega)
        have hi : UInt32.ofNat (i + 1) = 1 + UInt32.ofNat i := by rw [UInt32.ofNat_add]; grind
        rw [hi, ← UInt32.add_assoc]
        exact hnext
    · cases h

/-- The loop of `subscribe` ends: fewer than 2^32 keys are in use. -/
theorem freeTicket_ne_none {keys : List UInt32} (hkeys : keys.length < period) (mLastTicket : UInt32) :
    freeTicket keys period mLastTicket ≠ none := by
  intro h
  have hinj : Set.InjOn (fun i : Nat => mLastTicket + 1 + UInt32.ofNat i) (Finset.range period) := by
    intro i hi j hj heq
    have hnat := congrArg UInt32.toNat ((UInt32.add_right_inj _).mp heq)
    have hi' : i < 4294967296 := by simpa [period] using hi
    have hj' : j < 4294967296 := by simpa [period] using hj
    simpa [UInt32.toNat_ofNat, Nat.mod_eq_of_lt hi', Nat.mod_eq_of_lt hj'] using hnat
  have hmem : Set.MapsTo (fun i : Nat => mLastTicket + 1 + UInt32.ofNat i) (Finset.range period)
      keys.toFinset := by
    intro i hi
    simpa using freeTicket_eq_none h (by simpa using hi)
  have hcard := Finset.card_le_card_of_injOn _ hmem hinj
  rw [Finset.card_range] at hcard
  exact absurd (hcard.trans keys.toFinset_card_le) (by omega)

/-! ### One topic -/

/-- How far a broadcast is: what it called is the first part of what it began with, and what
stands in front of `i` are the callbacks that returned nothing. -/
structure Progress (topic : Topic) (b : Broadcast) : Prop where
  nodup : b.live.Nodup
  position : b.i ≤ topic.callbacks.length
  called : b.called ++ topic.callbacks.drop b.i = b.live
  kept : topic.callbacks.take b.i = b.called.filter (· ∉ b.returned)
  returned : ∀ callback ∈ b.returned, callback ∈ b.called

/-- What holds of a topic between two steps. -/
structure WF (topic : Topic) : Prop where
  keys : topic.keys.Nodup
  callbacks : topic.callbacks.Nodup
  progress : ∀ b, topic.broadcast = some b → topic.Progress b

theorem subscribe_eq_ok {topic : Topic} {callback : Nat} {result : Topic × UInt32}
    (h : topic.subscribe callback = .ok result) :
    result.2 ∉ topic.keys ∧ result.1 =
      { topic with mSubscriptions := topic.mSubscriptions ++ [(result.2, callback)],
                   mLastTicket := result.2 } := by
  unfold subscribe at h
  split at h
  · cases h
  · next hfree =>
    cases h
    exact ⟨freeTicket_not_mem hfree, rfl⟩

theorem subscribe_wf {topic : Topic} {callback : Nat} {result : Topic × UInt32} (hwf : topic.WF)
    (hb : topic.broadcast = none) (hnew : callback ∉ topic.callbacks)
    (h : topic.subscribe callback = .ok result) : result.1.WF := by
  obtain ⟨hfree, heq⟩ := subscribe_eq_ok h
  rw [heq]
  refine ⟨?_, ?_, fun b hb' => ?_⟩
  · simpa [keys, List.nodup_append] using ⟨hwf.keys, fun a x hax => by
      intro hgiven
      subst hgiven
      exact hfree (List.mem_map_of_mem hax)⟩
  · simpa [callbacks, List.nodup_append] using ⟨hwf.callbacks, fun a x hax => by
      intro hgiven
      subst hgiven
      exact hnew (List.mem_map_of_mem hax)⟩
  · rw [hb] at hb'
    cases hb'

theorem unsubscribeImpl_wf {topic : Topic} {ticket : UInt32} (hwf : topic.WF)
    (hb : topic.broadcast = none) : (topic.unsubscribeImpl ticket).WF := by
  refine ⟨?_, ?_, fun b hb' => ?_⟩
  · exact hwf.keys.sublist (List.filter_sublist.map _)
  · exact hwf.callbacks.sublist (List.filter_sublist.map _)
  · rw [unsubscribeImpl, hb] at hb'
    cases hb'

theorem begin_wf {topic : Topic} {order : List (UInt32 × Nat)} (hwf : topic.WF)
    (horder : order.Perm topic.mSubscriptions) :
    WF { topic with mSubscriptions := order, broadcast := some ⟨0, order.map Prod.snd, [], []⟩ } := by
  have hnodup : (order.map Prod.snd).Nodup := (horder.map _).nodup_iff.mpr hwf.callbacks
  refine ⟨(horder.map _).nodup_iff.mpr hwf.keys, hnodup, ?_⟩
  intro b hgiven
  cases hgiven
  exact ⟨hnodup, by simp, by simp [callbacks], by simp, by simp⟩

theorem finish_wf {topic : Topic} (hwf : topic.WF) : WF { topic with broadcast := none } :=
  ⟨hwf.keys, hwf.callbacks, fun _ h => (nomatch h)⟩

/-- The list around `i`. -/
theorem around {topic : Topic} {i : Nat} {s : UInt32 × Nat} (h : topic.mSubscriptions[i]? = some s) :
    ∃ pre post, topic.mSubscriptions = pre ++ s :: post ∧ pre.length = i := by
  obtain ⟨hi, rfl⟩ := List.getElem?_eq_some_iff.mp h
  refine ⟨topic.mSubscriptions.take i, topic.mSubscriptions.drop (i + 1), ?_, by simp; omega⟩
  rw [List.cons_getElem_drop_succ, List.take_append_drop]

section Callback

variable {topic : Topic} {b : Broadcast} {s : UInt32 × Nat}

/-- The callback at `i` was not called yet, and comes next. -/
theorem Progress.next (h : topic.Progress b) (hs : topic.mSubscriptions[b.i]? = some s) :
    b.i < topic.callbacks.length ∧ s.2 ∉ b.called ∧
      topic.callbacks.drop b.i = s.2 :: topic.callbacks.drop (b.i + 1) ∧
      topic.callbacks.take (b.i + 1) = topic.callbacks.take b.i ++ [s.2] := by
  obtain ⟨pre, post, heq, hi⟩ := around hs
  have hcallbacks : topic.callbacks = pre.map Prod.snd ++ s.2 :: post.map Prod.snd := by
    simp [callbacks, heq]
  have hdrop : topic.callbacks.drop b.i = s.2 :: topic.callbacks.drop (b.i + 1) := by
    simp [hcallbacks, ← hi, List.drop_append]
  refine ⟨by simp [hcallbacks, ← hi], ?_, hdrop, by simp [hcallbacks, ← hi, List.take_append]⟩
  have hnodup := h.nodup
  rw [← h.called, hdrop, List.nodup_append] at hnodup
  exact fun hmem => hnodup.2.2 _ hmem _ List.mem_cons_self rfl

theorem advance_wf (hwf : topic.WF) (hb : topic.broadcast = some b)
    (hs : topic.mSubscriptions[b.i]? = some s) : (topic.advance b s.2).WF := by
  have hp := hwf.progress b hb
  obtain ⟨hi, hnew, hdrop, htake⟩ := hp.next hs
  refine ⟨hwf.keys, hwf.callbacks, ?_⟩
  intro _ hgiven
  cases hgiven
  refine ⟨hp.nodup, hi, ?_, ?_, fun c hc => List.mem_append_left _ (hp.returned c hc)⟩
  · show (b.called ++ [s.2]) ++ topic.callbacks.drop (b.i + 1) = b.live
    rw [← hp.called, hdrop]
    simp
  · show topic.callbacks.take (b.i + 1) = (b.called ++ [s.2]).filter _
    have hkept : s.2 ∉ b.returned := fun h => hnew (hp.returned _ h)
    rw [htake, hp.kept, List.filter_append]
    simp [hkept]

theorem eraseAt_callbacks : (topic.eraseAt b s.2).callbacks = topic.callbacks.eraseIdx b.i := by
  simp [eraseAt, callbacks, List.eraseIdx_eq_take_drop_succ, List.map_take, List.map_drop]

theorem eraseAt_wf (hwf : topic.WF) (hb : topic.broadcast = some b)
    (hs : topic.mSubscriptions[b.i]? = some s) : (topic.eraseAt b s.2).WF := by
  have hp := hwf.progress b hb
  obtain ⟨hi, hnew, hdrop, -⟩ := hp.next hs
  have herase : (topic.eraseAt b s.2).callbacks =
      topic.callbacks.take b.i ++ topic.callbacks.drop (b.i + 1) := by
    rw [eraseAt_callbacks, List.eraseIdx_eq_take_drop_succ]
  have hlength : (topic.callbacks.take b.i).length = b.i := by simp; omega
  refine ⟨?_, ?_, ?_⟩
  · exact hwf.keys.sublist ((List.eraseIdx_sublist ..).map _)
  · rw [eraseAt_callbacks]
    exact hwf.callbacks.sublist (List.eraseIdx_sublist ..)
  · intro _ hgiven
    cases hgiven
    refine ⟨hp.nodup, ?_, ?_, ?_, ?_⟩
    · rw [herase]
      simp
      omega
    · show (b.called ++ [s.2]) ++ (topic.eraseAt b s.2).callbacks.drop b.i = b.live
      rw [herase, List.drop_left' hlength, ← hp.called, hdrop]
      simp
    · show (topic.eraseAt b s.2).callbacks.take b.i =
        (b.called ++ [s.2]).filter (· ∉ b.returned ++ [s.2])
      rw [herase, List.take_left' hlength, hp.kept, List.filter_append]
      have hself : [s.2].filter (· ∉ b.returned ++ [s.2]) = [] := by simp
      rw [hself, List.append_nil]
      refine List.filter_congr fun c hc => ?_
      have hne : c ≠ s.2 := fun h => hnew (h ▸ hc)
      simp [hne]
    · intro c hc
      show c ∈ b.called ++ [s.2]
      rcases List.mem_append.mp hc with hc | hc
      · exact List.mem_append_left _ (hp.returned c hc)
      · exact List.mem_append_right _ hc

/-- What the erased subscription leaves are the others. -/
theorem mem_eraseAt (hwf : topic.WF) (hs : topic.mSubscriptions[b.i]? = some s) {key : UInt32}
    {callback : Nat} : (key, callback) ∈ (topic.eraseAt b s.2).mSubscriptions ↔
      (key, callback) ∈ topic.mSubscriptions ∧ callback ≠ s.2 := by
  obtain ⟨pre, post, heq, hi⟩ := around hs
  have hcallbacks := hwf.callbacks
  simp only [callbacks, heq, List.map_append, List.map_cons, List.nodup_append, List.nodup_cons] at hcallbacks
  have herase : (topic.eraseAt b s.2).mSubscriptions = pre ++ post := by
    simp [eraseAt, heq, ← hi, List.eraseIdx_append_of_length_le]
  have hpre : (key, callback) ∈ pre → callback ≠ s.2 := fun h =>
    hcallbacks.2.2 _ (List.mem_map_of_mem h) _ List.mem_cons_self
  have hpost : (key, callback) ∈ post → callback ≠ s.2 := fun h heq =>
    hcallbacks.2.1.1 (heq ▸ List.mem_map_of_mem h)
  rw [herase, heq, List.mem_append, List.mem_append, List.mem_cons]
  constructor
  · intro hgiven
    rcases hgiven with h | h
    · exact ⟨.inl h, hpre h⟩
    · exact ⟨.inr (.inr h), hpost h⟩
  · intro hgiven
    obtain ⟨h | rfl | h, hne⟩ := hgiven
    · exact .inl h
    · exact absurd rfl hne
    · exact .inr h

end Callback

/-- Keys tell subscriptions apart. -/
theorem WF.callback_unique {topic : Topic} (hwf : topic.WF) {key : UInt32} {callback callback' : Nat}
    (h : (key, callback) ∈ topic.mSubscriptions) (h' : (key, callback') ∈ topic.mSubscriptions) :
    callback = callback' :=
  congrArg Prod.snd (List.inj_on_of_nodup_map hwf.keys h h' rfl)

end Topic

/-! ### The world -/

/-- A broadcast called what was subscribed, each callback once, and removed exactly the
subscriptions whose callback returned a ticket. -/
structure Report.Complete {T : Type} (r : Report T) : Prop where
  once : r.live.Nodup
  called : r.called = r.live
  left : r.left = r.live.filter (· ∉ r.returned)

namespace World

variable {T V : Type}

/-- What holds of the world in every run. -/
structure Inv (w : World T V) : Prop where
  wf : ∀ t topic, w.topics t = some topic → topic.WF
  fresh : ∀ t key n, w.Has t key n → n < w.subscribed
  unique : ∀ t t' key key' n, w.Has t key n → w.Has t' key' n → t = t' ∧ key = key'
  issued : ∀ v ticket n, w.tickets v = some ticket → ticket.origin = some n → n < w.subscribed
  single : ∀ v v' ticket ticket' n, w.tickets v = some ticket → w.tickets v' = some ticket' →
    ticket.origin = some n → ticket'.origin = some n → v = v'
  /-- The ticket of a call has the key of the call's subscription, as long as there is one. -/
  own : ∀ v ticket t key n, w.tickets v = some ticket → ticket.origin = some n → w.Has t key n →
    ticket.mTopic = some t ∧ ticket.mValue = key
  live : ∀ v ticket t, w.Live v ticket t → ∃ n, ticket.origin = some n ∧ w.Has t ticket.mValue n
  complete : ∀ r ∈ w.broadcasts, r.Complete

theorem inv_initial : Inv (initial : World T V) := by
  have hno : ∀ t key n, ¬ (initial : World T V).Has t key n := by
    intro t key n hgiven
    obtain ⟨topic, htopic, hmem⟩ := hgiven
    cases htopic
    cases hmem
  refine ⟨?_, fun t key n h => absurd h (hno _ _ _), fun t _ key _ n h => absurd h (hno _ _ _),
    fun _ _ _ h => (nomatch h), fun _ _ _ _ _ h => (nomatch h), fun _ _ _ _ _ h => (nomatch h),
    fun _ _ _ h => (nomatch h.1), fun _ h => (nomatch h)⟩
  intro t topic hgiven
  cases hgiven
  exact ⟨List.nodup_nil, List.nodup_nil, fun _ h => (nomatch h)⟩

variable {w : World T V}

/-! ### What one step keeps -/

/-- Tickets move: each one is an old one in its new place, or belongs to nobody. -/
theorem Inv.retickets (h : w.Inv) {tickets : V → Option (Ticket T)} (place : V → V)
    (hplace : ∀ v ticket, tickets v = some ticket → (ticket.mTopic = none ∧ ticket.origin = none) ∨
      ∃ v₀, w.tickets v₀ = some ticket ∧ place v₀ = v) : Inv { w with tickets := tickets } := by
  have hown : ∀ v ticket n, tickets v = some ticket → ticket.origin = some n →
      ∃ v₀, w.tickets v₀ = some ticket ∧ place v₀ = v := by
    intro v ticket n hv hn
    rcases hplace v ticket hv with ⟨-, hnone⟩ | hold
    · rw [hnone] at hn
      cases hn
    · exact hold
  refine ⟨h.wf, h.fresh, h.unique, ?_, ?_, ?_, ?_, h.complete⟩
  · intro v ticket n hv hn
    obtain ⟨v₀, hv₀, -⟩ := hown v ticket n hv hn
    exact h.issued v₀ ticket n hv₀ hn
  · intro v v' ticket ticket' n hv hv' hn hn'
    obtain ⟨v₀, hv₀, rfl⟩ := hown v ticket n hv hn
    obtain ⟨v₁, hv₁, rfl⟩ := hown v' ticket' n hv' hn'
    rw [h.single v₀ v₁ ticket ticket' n hv₀ hv₁ hn hn']
  · intro v ticket t key n hv hn hhas
    obtain ⟨v₀, hv₀, -⟩ := hown v ticket n hv hn
    exact h.own v₀ ticket t key n hv₀ hn hhas
  · intro v ticket t hgiven
    obtain ⟨hv, hlock⟩ := hgiven
    rcases hplace v ticket hv with ⟨hnone, -⟩ | ⟨v₀, hv₀, -⟩
    · have := (lock_eq_some.mp hlock).1
      rw [hnone] at this
      cases this
    · exact h.live v₀ ticket t ⟨hv₀, hlock⟩

/-- The ticket that a callback at `i` returns as its own has the values `broadcast` asserts. -/
theorem Inv.asserts (h : w.Inv) {t : T} {topic : Topic} {b : Broadcast} {s : UInt32 × Nat} {v : V}
    {ticket : Ticket T} (htopic : w.topics t = some topic) (hs : topic.mSubscriptions[b.i]? = some s)
    (hv : w.tickets v = some ticket) (horigin : ticket.origin = some s.2) :
    w.lock ticket = some t ∧ ticket.mValue = s.1 ∧ w.Has t ticket.mValue s.2 := by
  have hhas : w.Has t s.1 s.2 := ⟨topic, htopic, List.mem_of_getElem? hs⟩
  obtain ⟨hmTopic, hmValue⟩ := h.own v ticket t s.1 s.2 hv horigin hhas
  exact ⟨lock_eq_some.mpr ⟨hmTopic, by simp [htopic]⟩, hmValue, hmValue ▸ hhas⟩

/-- What `unsubscribe` of a subscribed ticket removes from its topic. -/
theorem Inv.mem_unsubscribeImpl (h : w.Inv) {t : T} {topic : Topic} {key : UInt32} {n : Nat}
    (htopic : w.topics t = some topic) (hn : w.Has t key n) (key' : UInt32) (m : Nat) :
    (key', m) ∈ (topic.unsubscribeImpl key).mSubscriptions ↔ (key', m) ∈ topic.mSubscriptions ∧ m ≠ n := by
  obtain ⟨found, hfound, hmem⟩ := hn
  obtain rfl : topic = found := Option.some.inj (htopic.symm.trans hfound)
  simp only [Topic.unsubscribeImpl, ne_eq, decide_not, List.mem_filter, Bool.not_eq_eq_eq_not,
    Bool.not_true, decide_eq_false_iff_not]
  refine and_congr_right fun hmem' => not_congr ⟨?_, ?_⟩
  · intro heq
    subst heq
    exact (h.wf t topic htopic).callback_unique hmem' hmem
  · intro heq
    subst heq
    exact (h.unique t t key' key m ⟨topic, htopic, hmem'⟩ ⟨topic, htopic, hmem⟩).2

variable [DecidableEq T]

theorem has_setTopic {t t' : T} {topic : Topic} {key : UInt32} {n : Nat} :
    (w.setTopic t (some topic)).Has t' key n ↔
      if t' = t then (key, n) ∈ topic.mSubscriptions else w.Has t' key n := by
  by_cases h : t' = t
  · subst h
    simp [Has, setTopic]
  · simp [Has, setTopic, h]

/-- A topic that is there stays a topic. -/
theorem lock_setTopic {t : T} {topic topic' : Topic} (htopic : w.topics t = some topic)
    (ticket : Ticket T) : (w.setTopic t (some topic')).lock ticket = w.lock ticket := by
  unfold lock
  congr 1
  funext t'
  by_cases h : t' = t
  · subst h
    simp [setTopic, htopic]
  · simp [setTopic, h]

/-- A topic changes, its subscriptions do not. -/
theorem Inv.retopic (h : w.Inv) {t : T} {topic topic' : Topic} (htopic : w.topics t = some topic)
    (hwf : topic'.WF)
    (hmem : ∀ s, s ∈ topic'.mSubscriptions ↔ s ∈ topic.mSubscriptions) :
    Inv (w.setTopic t (some topic')) := by
  have hhas : ∀ t' key n, (w.setTopic t (some topic')).Has t' key n ↔ w.Has t' key n := by
    intro t' key n
    rw [has_setTopic]
    split
    · next heq =>
      subst heq
      simp [Has, htopic, hmem]
    · rfl
  refine ⟨?_, ?_, ?_, h.issued, h.single, ?_, ?_, h.complete⟩
  · intro t' found hfound
    by_cases heq : t' = t
    · subst heq
      simp only [setTopic, Function.update_self, Option.some.injEq] at hfound
      exact hfound ▸ hwf
    · exact h.wf t' found (by simpa [setTopic, heq] using hfound)
  · intro t' key n hn
    exact h.fresh t' key n ((hhas ..).mp hn)
  · intro t' t'' key key' n hn hn'
    exact h.unique t' t'' key key' n ((hhas ..).mp hn) ((hhas ..).mp hn')
  · intro v ticket t' key n hv horigin hn
    exact h.own v ticket t' key n hv horigin ((hhas ..).mp hn)
  · intro v ticket t' hgiven
    obtain ⟨hv, hlock⟩ := hgiven
    rw [lock_setTopic htopic] at hlock
    obtain ⟨n, horigin, hn⟩ := h.live v ticket t' ⟨hv, hlock⟩
    exact ⟨n, horigin, (hhas ..).mpr hn⟩

/-- A topic goes, and its subscriptions with it. -/
theorem Inv.expire (h : w.Inv) (t : T) : Inv (w.setTopic t none) := by
  have htopics : ∀ t' topic, (w.setTopic t none).topics t' = some topic →
      t' ≠ t ∧ w.topics t' = some topic := by
    intro t' topic htopic
    by_cases heq : t' = t
    · subst heq
      simp [setTopic] at htopic
    · exact ⟨heq, by simpa [setTopic, heq] using htopic⟩
  have hhas : ∀ t' key n, (w.setTopic t none).Has t' key n → w.Has t' key n := by
    intro t' key n hgiven
    obtain ⟨topic, htopic, hmem⟩ := hgiven
    exact ⟨topic, (htopics t' topic htopic).2, hmem⟩
  refine ⟨fun t' topic htopic => h.wf t' topic (htopics t' topic htopic).2, ?_, ?_, h.issued, h.single,
    ?_, ?_, h.complete⟩
  · intro t' key n hn
    exact h.fresh t' key n (hhas _ _ _ hn)
  · intro t' t'' key key' n hn hn'
    exact h.unique t' t'' key key' n (hhas _ _ _ hn) (hhas _ _ _ hn')
  · intro v ticket t' key n hv horigin hn
    exact h.own v ticket t' key n hv horigin (hhas _ _ _ hn)
  · intro v ticket t' hgiven
    obtain ⟨hv, hlock⟩ := hgiven
    obtain ⟨hmTopic, hsome⟩ := lock_eq_some.mp hlock
    obtain ⟨topic, htopic⟩ := Option.isSome_iff_exists.mp hsome
    obtain ⟨hne, htopic⟩ := htopics t' topic htopic
    have hlock' : w.lock ticket = some t' := lock_eq_some.mpr ⟨hmTopic, by simp [htopic]⟩
    obtain ⟨n, horigin, found, hfound, hmem⟩ := h.live v ticket t' ⟨hv, hlock'⟩
    exact ⟨n, horigin, found, by simpa [setTopic, hne] using hfound, hmem⟩

variable [DecidableEq V]

/-- The subscription of a ticket is removed and the ticket released. -/
theorem Inv.remove (h : w.Inv) {t : T} {topic topic' : Topic} {v : V} {ticket ticket' : Ticket T} {n : Nat}
    (htopic : w.topics t = some topic) (hticket : w.tickets v = some ticket)
    (horigin : ticket.origin = some n) (hn : w.Has t ticket.mValue n) (hwf : topic'.WF)
    (hmem : ∀ key m, (key, m) ∈ topic'.mSubscriptions ↔ (key, m) ∈ topic.mSubscriptions ∧ m ≠ n)
    (hreleased : ticket'.mTopic = none) (horigin' : ∀ m, ticket'.origin = some m → m = n) :
    Inv ((w.setTopic t (some topic')).setTicket v (some ticket')) := by
  have hhas : ∀ t' key m, (w.setTopic t (some topic')).Has t' key m ↔ w.Has t' key m ∧ m ≠ n := by
    intro t' key m
    rw [has_setTopic]
    split
    · next heq =>
      subst heq
      simp [Has, htopic, hmem]
    · next hne =>
      refine ⟨fun hm => ⟨hm, ?_⟩, And.left⟩
      intro hgiven
      subst hgiven
      exact hne (h.unique t' t key _ m hm hn).1
  have hold : ∀ v' found m, Function.update w.tickets v (some ticket') v' = some found →
      found.origin = some m → m ≠ n → v' ≠ v ∧ w.tickets v' = some found := by
    intro v' found m hv' hm hne
    by_cases heq : v' = v
    · subst heq
      simp only [Function.update_self, Option.some.injEq] at hv'
      exact absurd (horigin' m (hv' ▸ hm)) hne
    · exact ⟨heq, by simpa [heq] using hv'⟩
  have hheld : ∀ v' found, Function.update w.tickets v (some ticket') v' = some found →
      found.origin = some n → v' = v := by
    intro v' found hv' hm
    by_contra hne
    exact hne (h.single v' v found ticket n (by simpa [hne] using hv') hticket hm horigin)
  refine ⟨?_, ?_, ?_, ?_, ?_, ?_, ?_, h.complete⟩
  · intro t' found hfound
    by_cases heq : t' = t
    · subst heq
      simp only [setTicket, setTopic, Function.update_self, Option.some.injEq] at hfound
      exact hfound ▸ hwf
    · exact h.wf t' found (by simpa [setTopic, setTicket, heq] using hfound)
  · intro t' key m hm
    exact h.fresh t' key m ((hhas ..).mp hm).1
  · intro t' t'' key key' m hm hm'
    exact h.unique t' t'' key key' m ((hhas ..).mp hm).1 ((hhas ..).mp hm').1
  · intro v' found m hv' hm
    by_cases hne : m = n
    · exact hne ▸ h.issued v ticket n hticket horigin
    · exact h.issued v' found m (hold v' found m hv' hm hne).2 hm
  · intro v₀ v₁ found₀ found₁ m hv₀ hv₁ hm₀ hm₁
    by_cases hne : m = n
    · subst hne
      rw [hheld v₀ found₀ hv₀ hm₀, hheld v₁ found₁ hv₁ hm₁]
    · exact h.single v₀ v₁ found₀ found₁ m (hold _ _ m hv₀ hm₀ hne).2 (hold _ _ m hv₁ hm₁ hne).2 hm₀ hm₁
  · intro v' found t' key m hv' horigin hm
    obtain ⟨hm, hne⟩ := (hhas ..).mp hm
    exact h.own v' found t' key m (hold v' found m hv' horigin hne).2 horigin hm
  · intro v' found t' hgiven
    obtain ⟨hv', hlock⟩ := hgiven
    have hlock' : w.lock found = some t' := by rw [← lock_setTopic htopic]; exact hlock
    have hne : v' ≠ v := by
      intro hgiven
      subst hgiven
      simp only [setTicket, Function.update_self, Option.some.injEq] at hv'
      have := (lock_eq_some.mp hlock').1
      rw [← hv', hreleased] at this
      cases this
    have hv : w.tickets v' = some found := by simpa [setTicket, setTopic, hne] using hv'
    obtain ⟨m, hm, hhasm⟩ := h.live v' found t' ⟨hv, hlock'⟩
    refine ⟨m, hm, (hhas ..).mpr ⟨hhasm, ?_⟩⟩
    intro hgiven
    subst hgiven
    exact hne (h.single v' v found ticket m hv hticket hm horigin)

theorem Inv.subscribe (h : w.Inv) {t : T} {topic : Topic} {v : V} {result : Topic × UInt32}
    (htopic : w.topics t = some topic) (hfree : topic.broadcast = none) (hv : w.tickets v = none)
    (hresult : topic.subscribe w.subscribed = .ok result) :
    Inv { (w.setTopic t (some result.1)).setTicket v (some ⟨some t, result.2, some w.subscribed⟩) with
          subscribed := w.subscribed + 1 } := by
  obtain ⟨-, heq⟩ := Topic.subscribe_eq_ok hresult
  have hnew : w.subscribed ∉ topic.callbacks := by
    intro hmem
    obtain ⟨⟨key, n⟩, hs, heq⟩ := List.mem_map.mp hmem
    exact absurd (h.fresh t key n ⟨topic, htopic, hs⟩) (by simp [← heq])
  have hhas : ∀ t' key n, (w.setTopic t (some result.1)).Has t' key n ↔
      w.Has t' key n ∨ t' = t ∧ key = result.2 ∧ n = w.subscribed := by
    intro t' key n
    rw [has_setTopic]
    split
    · next h =>
      subst h
      simp [Has, htopic, heq]
    · next h => simp [h]
  have hold : ∀ v' found, Function.update w.tickets v (some ⟨some t, result.2, some w.subscribed⟩) v' =
      some found → v' = v ∧ found = ⟨some t, result.2, some w.subscribed⟩ ∨
        v' ≠ v ∧ w.tickets v' = some found := by
    intro v' found hfound
    by_cases heq : v' = v
    · subst heq
      simp only [Function.update_self, Option.some.injEq] at hfound
      exact .inl ⟨rfl, hfound.symm⟩
    · exact .inr ⟨heq, by simpa [heq] using hfound⟩
  refine ⟨?_, ?_, ?_, ?_, ?_, ?_, ?_, h.complete⟩
  · intro t' found hfound
    by_cases heq : t' = t
    · subst heq
      simp only [setTicket, setTopic, Function.update_self, Option.some.injEq] at hfound
      exact hfound ▸ Topic.subscribe_wf (h.wf t' topic htopic) hfree hnew hresult
    · exact h.wf t' found (by simpa [setTopic, setTicket, heq] using hfound)
  · intro t' key n hn
    rcases (hhas ..).mp hn with hn | ⟨-, -, rfl⟩
    · exact Nat.lt_succ_of_lt (h.fresh t' key n hn)
    · exact Nat.lt_succ_self _
  · intro t' t'' key key' n hn hn'
    rcases (hhas ..).mp hn with hmem | ⟨rfl, rfl, rfl⟩ <;>
      rcases (hhas ..).mp hn' with hmem' | ⟨rfl, rfl, heq⟩
    · exact h.unique t' t'' key key' n hmem hmem'
    · exact absurd (h.fresh t' key n hmem) (by omega)
    · exact absurd (h.fresh t'' key' _ hmem') (by omega)
    · exact ⟨rfl, rfl⟩
  · intro v' found n hv' hn
    rcases hold v' found hv' with ⟨-, rfl⟩ | ⟨-, hv'⟩
    · cases hn
      exact Nat.lt_succ_self _
    · exact Nat.lt_succ_of_lt (h.issued v' found n hv' hn)
  · intro v₀ v₁ found₀ found₁ n hv₀ hv₁ hn₀ hn₁
    rcases hold v₀ found₀ hv₀ with ⟨rfl, rfl⟩ | ⟨-, hold₀⟩ <;>
      rcases hold v₁ found₁ hv₁ with ⟨rfl, rfl⟩ | ⟨-, hold₁⟩
    · rfl
    · cases hn₀
      exact absurd (h.issued v₁ found₁ _ hold₁ hn₁) (by simp)
    · cases hn₁
      exact absurd (h.issued v₀ found₀ _ hold₀ hn₀) (by simp)
    · exact h.single v₀ v₁ found₀ found₁ n hold₀ hold₁ hn₀ hn₁
  · intro v' found t' key n hv' horigin hn
    rcases hold v' found hv' with ⟨-, rfl⟩ | ⟨-, hfound⟩ <;>
      rcases (hhas ..).mp hn with hmem | ⟨rfl, rfl, rfl⟩
    · cases horigin
      exact absurd (h.fresh t' key _ hmem) (by simp)
    · exact ⟨rfl, rfl⟩
    · exact h.own v' found t' key n hfound horigin hmem
    · exact absurd (h.issued v' found _ hfound horigin) (by simp)
  · intro v' found t' hgiven
    obtain ⟨hv', hlock⟩ := hgiven
    rcases hold v' found hv' with ⟨-, rfl⟩ | ⟨-, hv'⟩
    · obtain rfl : t = t' := Option.some.inj (lock_eq_some.mp hlock).1
      exact ⟨_, rfl, (hhas ..).mpr (.inr ⟨rfl, rfl, rfl⟩)⟩
    · obtain ⟨n, horigin, hn⟩ := h.live v' found t' ⟨hv', by rw [← lock_setTopic htopic]; exact hlock⟩
      exact ⟨n, horigin, (hhas ..).mpr (.inl hn)⟩

/-! ### One step -/

theorem step_inv {w' : World T V} {action : Action T V} (h : w.Inv) (hobeys : w.Obeys action)
    (hstep : w.step action = .ok w') : w'.Inv := by
  cases action with
  | construct v =>
    simp only [step, bind_eq_ok, unused_eq_ok, Except.ok.injEq] at hstep
    obtain ⟨-, -, rfl⟩ := hstep
    refine h.retickets id fun v' ticket hv' => ?_
    by_cases heq : v' = v
    · subst heq
      simp only [Function.update_self, Option.some.injEq] at hv'
      exact .inl (hv' ▸ ⟨rfl, rfl⟩)
    · exact .inr ⟨v', by simpa [heq] using hv', rfl⟩
  | move v rhs =>
    simp only [step, bind_eq_ok, unused_eq_ok, ticket_eq_ok, Except.ok.injEq] at hstep
    obtain ⟨-, hv, ticket, hrhs, rfl⟩ := hstep
    refine h.retickets (fun v' => if v' = rhs then v else v') fun v' found hv' => ?_
    by_cases heq : v' = v
    · subst heq
      simp only [Function.update_self, Option.some.injEq] at hv'
      exact .inr ⟨rhs, hv' ▸ hrhs, by simp⟩
    · rw [Function.update_of_ne heq] at hv'
      by_cases heq' : v' = rhs
      · subst heq'
        simp only [setTicket, Function.update_self, Option.some.injEq] at hv'
        exact .inl (hv' ▸ ⟨rfl, rfl⟩)
      · exact .inr ⟨v', by simpa [setTicket, heq'] using hv', by simp [heq']⟩
  | assign v rhs =>
    simp only [step, bind_eq_ok, ticket_eq_ok] at hstep
    obtain ⟨ticket, hv, other, hrhs, hstep⟩ := hstep
    split at hstep
    · exact Except.ok.inj hstep ▸ h
    · next hne =>
      cases hstep
      refine h.retickets (fun v' => if v' = rhs then v else if v' = v then rhs else v') fun v' found hv' => ?_
      by_cases heq : v' = rhs
      · subst heq
        simp only [Function.update_self, Option.some.injEq] at hv'
        exact .inr ⟨v, hv' ▸ hv, by simp [hne]⟩
      · rw [Function.update_of_ne heq] at hv'
        by_cases heq' : v' = v
        · subst heq'
          simp only [setTicket, Function.update_self, Option.some.injEq] at hv'
          exact .inr ⟨rhs, hv' ▸ hrhs, by simp⟩
        · exact .inr ⟨v', by simpa [setTicket, heq'] using hv', by simp [heq, heq']⟩
  | destroy v =>
    simp only [step, bind_eq_ok, ticket_eq_ok] at hstep
    obtain ⟨ticket, hv, hstep⟩ := hstep
    split at hstep
    · cases hstep
    · cases hstep
      refine h.retickets id fun v' found hv' => ?_
      by_cases heq : v' = v
      · subst heq
        simp at hv'
      · exact .inr ⟨v', by simpa [heq] using hv', rfl⟩
  | subscribe t v =>
    simp only [step, bind_eq_ok, unused_eq_ok, unlocked_eq_ok, Except.ok.injEq] at hstep
    obtain ⟨-, hv, topic, ⟨htopic, hfree⟩, result, hresult, rfl⟩ := hstep
    exact h.subscribe htopic hfree hv hresult
  | unsubscribe v =>
    simp only [step, bind_eq_ok, ticket_eq_ok] at hstep
    obtain ⟨ticket, hv, hstep⟩ := hstep
    split at hstep
    · exact Except.ok.inj hstep ▸ h
    · next t hlock =>
      simp only [bind_eq_ok, unlocked_eq_ok, Except.ok.injEq] at hstep
      obtain ⟨topic, ⟨htopic, hfree⟩, rfl⟩ := hstep
      obtain ⟨n, horigin, hn⟩ := h.live v ticket t ⟨hv, hlock⟩
      exact h.remove htopic hv horigin hn (Topic.unsubscribeImpl_wf (h.wf t topic htopic) hfree)
        (h.mem_unsubscribeImpl htopic hn) rfl fun m hm => Option.some.inj (hm.symm.trans horigin)
  | broadcast t order =>
    simp only [step, bind_eq_ok, unlocked_eq_ok] at hstep
    obtain ⟨topic, ⟨htopic, -⟩, hstep⟩ := hstep
    split at hstep
    · next horder =>
      cases hstep
      exact h.retopic htopic (Topic.begin_wf (h.wf t topic htopic) horder) fun s => horder.mem_iff
    · cases hstep
  | callback t result =>
    simp only [step, bind_eq_ok, broadcasting_eq_ok, Prod.exists] at hstep
    obtain ⟨topic, b, ⟨htopic, hb⟩, hstep⟩ := hstep
    have hwf := h.wf t topic htopic
    split at hstep
    · cases hstep
    · next s hs =>
      cases hstep
      exact h.retopic htopic (Topic.advance_wf hwf hb hs) fun _ => Iff.rfl
    · next s v hs =>
      simp only [returned, bind_eq_ok, ticket_eq_ok] at hstep
      obtain ⟨ticket, hv, hstep⟩ := hstep
      split at hstep
      · cases hstep
      · split at hstep
        · cases hstep
        · cases hstep
          have horigin := hobeys s (by simp [current, htopic, hb, hs]) ticket hv
          obtain ⟨-, -, hn⟩ := h.asserts htopic hs hv horigin
          refine h.remove htopic hv horigin hn (Topic.eraseAt_wf hwf hb hs)
            (fun key m => Topic.mem_eraseAt hwf hs) rfl fun m hm => ?_
          cases hm
  | finish t =>
    simp only [step, bind_eq_ok, broadcasting_eq_ok, Prod.exists] at hstep
    obtain ⟨topic, b, ⟨htopic, hb⟩, hstep⟩ := hstep
    have hwf := h.wf t topic htopic
    split at hstep
    · cases hstep
    · next hend =>
      cases hstep
      have hinv := h.retopic htopic (Topic.finish_wf hwf) fun _ => Iff.rfl
      refine ⟨hinv.wf, hinv.fresh, hinv.unique, hinv.issued, hinv.single, hinv.own, hinv.live, ?_⟩
      intro r hr
      rcases List.mem_append.mp hr with hr | hr
      · exact h.complete r hr
      · obtain rfl := List.mem_singleton.mp hr
        obtain ⟨hnodup, hposition, hcalled, hkept, -⟩ := hwf.progress b hb
        have hlength : topic.callbacks.length ≤ b.i := by simpa [Topic.callbacks] using hend
        rw [List.drop_of_length_le hlength, List.append_nil] at hcalled
        rw [List.take_of_length_le hlength] at hkept
        exact ⟨hnodup, hcalled, by rw [← hcalled]; exact hkept⟩
  | expire t =>
    simp only [step, bind_eq_ok, Except.ok.injEq] at hstep
    obtain ⟨-, -, rfl⟩ := hstep
    exact h.expire t

/-- A step that fails waits for something, or would destroy a subscribed ticket. -/
theorem Inv.fault {action : Action T V} {fault : Fault} (h : w.Inv) (hobeys : w.Obeys action)
    (hstep : w.step action = .error fault) : fault = .blocked ∨ fault = .subscribed := by
  cases action with
  | construct v =>
    simp only [step, bind_eq_error, reduceCtorEq, and_false, exists_false, or_false] at hstep
    exact .inl (unused_eq_error hstep)
  | move v rhs =>
    simp only [step, bind_eq_error, reduceCtorEq, and_false, exists_false, or_false] at hstep
    rcases hstep with hstep | ⟨-, -, hstep⟩
    · exact .inl (unused_eq_error hstep)
    · exact .inl (ticket_eq_error hstep)
  | assign v rhs =>
    simp only [step, bind_eq_error] at hstep
    rcases hstep with hstep | ⟨ticket, -, hstep | ⟨other, -, hstep⟩⟩
    · exact .inl (ticket_eq_error hstep)
    · exact .inl (ticket_eq_error hstep)
    · split at hstep <;> cases hstep
  | destroy v =>
    simp only [step, bind_eq_error] at hstep
    rcases hstep with hstep | ⟨ticket, -, hstep⟩
    · exact .inl (ticket_eq_error hstep)
    · split at hstep <;> cases hstep
      exact .inr rfl
  | subscribe t v =>
    simp only [step, bind_eq_error, reduceCtorEq, and_false, exists_false, or_false] at hstep
    rcases hstep with hstep | ⟨-, -, hstep | ⟨topic, htopic, hstep⟩⟩
    · exact .inl (unused_eq_error hstep)
    · exact .inl (unlocked_eq_error hstep)
    · -- the loop: a free key is met before the keys come again
      have hlength := hobeys topic (unlocked_eq_ok.mp htopic).1
      have hkeys : topic.keys.length < Topic.period := by simpa [Topic.keys, Topic.period] using hlength
      unfold Topic.subscribe at hstep
      split at hstep
      · next hnone => exact absurd hnone (Topic.freeTicket_ne_none hkeys _)
      · cases hstep
  | unsubscribe v =>
    simp only [step, bind_eq_error] at hstep
    rcases hstep with hstep | ⟨ticket, -, hstep⟩
    · exact .inl (ticket_eq_error hstep)
    · split at hstep
      · cases hstep
      · simp only [bind_eq_error, reduceCtorEq, and_false, exists_false, or_false] at hstep
        exact .inl (unlocked_eq_error hstep)
  | broadcast t order =>
    simp only [step, bind_eq_error] at hstep
    rcases hstep with hstep | ⟨topic, -, hstep⟩
    · exact .inl (unlocked_eq_error hstep)
    · split at hstep <;> cases hstep
      exact .inl rfl
  | callback t result =>
    simp only [step, bind_eq_error, Prod.exists, broadcasting_eq_ok] at hstep
    rcases hstep with hstep | ⟨topic, b, ⟨htopic, hb⟩, hstep⟩
    · exact .inl (broadcasting_eq_error hstep)
    · split at hstep
      · cases hstep
        exact .inl rfl
      · cases hstep
      · next s v hs =>
        simp only [returned, bind_eq_error, ticket_eq_ok] at hstep
        rcases hstep with hstep | ⟨ticket, hv, hstep⟩
        · exact .inl (ticket_eq_error hstep)
        · have horigin := hobeys s (by simp [current, htopic, hb, hs]) ticket hv
          obtain ⟨hlock, hvalue, -⟩ := h.asserts htopic hs hv horigin
          simp [hlock, hvalue] at hstep
  | finish t =>
    simp only [step, bind_eq_error, Prod.exists] at hstep
    rcases hstep with hstep | ⟨topic, b, -, hstep⟩
    · exact .inl (broadcasting_eq_error hstep)
    · split at hstep <;> cases hstep
      exact .inl rfl
  | expire t =>
    simp only [step, bind_eq_error, reduceCtorEq, and_false, exists_false, or_false] at hstep
    exact .inl (unlocked_eq_error hstep)

/-! ### Every run -/

/-- `v.unsubscribe()` took away the subscription of `v`, and no other one. -/
structure RemovesOwn (w w' : World T V) (v : V) : Prop where
  removed : ∀ ticket, w.tickets v = some ticket →
    ∀ t key n, w'.Has t key n ↔ w.Has t key n ∧ ticket.origin ≠ some n
  released : ∀ ticket t, ¬ w'.Live v ticket t
  others : ∀ v', v' ≠ v → w'.tickets v' = w.tickets v'

theorem Inv.unsubscribe {w' : World T V} {v : V} (h : w.Inv) (hstep : w.step (.unsubscribe v) = .ok w') :
    w.RemovesOwn w' v := by
  simp only [step, bind_eq_ok, ticket_eq_ok] at hstep
  obtain ⟨ticket, hv, hstep⟩ := hstep
  split at hstep
  · next hlock =>
    -- the ticket is not subscribed, and there is no subscription of its call
    obtain rfl := Except.ok.inj hstep
    refine ⟨fun found hfound t key n => ⟨fun hn => ⟨hn, fun horigin => ?_⟩, And.left⟩, ?_, fun _ _ => rfl⟩
    · obtain rfl : ticket = found := Option.some.inj (hv.symm.trans hfound)
      obtain ⟨topic, htopic, -⟩ := id hn
      have hlock' := lock_eq_some.mpr
        ⟨(h.own v ticket t key n hv horigin hn).1, Option.isSome_iff_exists.mpr ⟨topic, htopic⟩⟩
      rw [hlock] at hlock'
      cases hlock'
    · intro found t hgiven
      obtain ⟨hfound, hlock'⟩ := hgiven
      obtain rfl : ticket = found := Option.some.inj (hv.symm.trans hfound)
      rw [hlock] at hlock'
      cases hlock'
  · next t hlock =>
    simp only [bind_eq_ok, unlocked_eq_ok, Except.ok.injEq] at hstep
    obtain ⟨topic, ⟨htopic, hfree⟩, rfl⟩ := hstep
    obtain ⟨n, horigin, hn⟩ := h.live v ticket t ⟨hv, hlock⟩
    refine ⟨fun found hfound t' key m => ?_, ?_, fun v' hne => by simp [setTicket, setTopic, hne]⟩
    · obtain rfl : ticket = found := Option.some.inj (hv.symm.trans hfound)
      have hother : ticket.origin ≠ some m ↔ m ≠ n := by rw [horigin, ne_eq, Option.some.injEq, eq_comm]
      rw [hother, show ∀ topic, ((w.setTopic t topic).setTicket v (some ticket.release)).Has t' key m ↔
        (w.setTopic t topic).Has t' key m from fun _ => Iff.rfl, has_setTopic]
      split
      · next heq =>
        subst heq
        simp [h.mem_unsubscribeImpl htopic hn, Has, htopic]
      · next hne =>
        refine ⟨fun hm => ⟨hm, ?_⟩, And.left⟩
        intro hgiven
        subst hgiven
        exact hne (h.unique t' t key _ m hm hn).1
    · intro found t' hgiven
      obtain ⟨hfound, hlock'⟩ := hgiven
      simp only [setTicket, Function.update_self, Option.some.injEq] at hfound
      have := (lock_eq_some.mp hlock').1
      rw [← hfound] at this
      cases this

/-- What holds in a state: the values of a topic's subscribed tickets are distinct, every broadcast
that is over was complete, `unsubscribe` takes away its own subscription, and no step of a program
that obeys the rules fails an `assert` of `broadcast` or loops in `subscribe`. -/
structure Disciplined (w : World T V) : Prop where
  distinct : ∀ v v' ticket ticket' t, w.Live v ticket t → w.Live v' ticket' t →
    ticket.mValue = ticket'.mValue → v = v'
  broadcasts : ∀ r ∈ w.broadcasts, r.Complete
  unsubscribe : ∀ v w', w.step (.unsubscribe v) = .ok w' → w.RemovesOwn w' v
  asserts : ∀ action, w.Obeys action → w.step action ≠ .error .assertion
  ends : ∀ action, w.Obeys action → w.step action ≠ .error .loops

theorem Inv.disciplined (h : w.Inv) : w.Disciplined := by
  refine ⟨?_, h.complete, fun v w' => h.unsubscribe, ?_, ?_⟩
  · intro v v' ticket ticket' t hv hv' hvalue
    obtain ⟨n, horigin, topic, htopic, hn⟩ := h.live v ticket t hv
    obtain ⟨n', horigin', topic', htopic', hn'⟩ := h.live v' ticket' t hv'
    obtain rfl : topic = topic' := Option.some.inj (htopic.symm.trans htopic')
    obtain rfl := (h.wf t topic htopic).callback_unique hn (hvalue ▸ hn')
    exact h.single v v' ticket ticket' n hv.1 hv'.1 horigin horigin'
  · intro action hobeys hstep
    rcases h.fault hobeys hstep with hfault | hfault <;> cases hfault
  · intro action hobeys hstep
    rcases h.fault hobeys hstep with hfault | hfault <;> cases hfault

/-- **Topics and tickets.** Every state that a run of the operations reaches is as it should be,
whatever the order of the steps, however often `mLastTicket` has wrapped around. -/
theorem topic_subscriptions {actions : List (Action T V)} {w : World T V}
    (hobeys : Along step Obeys initial actions) (hrun : actions.foldlM step initial = .ok w) :
    w.Disciplined :=
  (hobeys.invariant (fun _ _ _ h hok hstep => step_inv h hok hstep) inv_initial hrun).disciplined

/-- Two subscriptions, of which one is removed by its callback. -/
theorem topic_subscriptions_two :
    ∃ w : World Unit Nat, w.broadcasts = [⟨(), [0, 1], [0, 1], [1], [0]⟩] ∧ w.Disciplined :=
  ⟨_, rfl, @topic_subscriptions Unit Nat _ _ [.subscribe () 0, .subscribe () 1, .move 2 1,
    .broadcast () [(1, 0), (2, 1)], .callback () none, .callback () (some 2), .finish ()] _ (by decide) rfl⟩

end World

end Goldfish.Broadcasting
