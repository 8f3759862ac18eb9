import Goldfish.Async.DueTimers

/-!
# Goldfish.Async.DeadTimers

**Timers that are deleted.** The destructor of a timer takes it off the pending list
and out of `mTimers`, but not off the active list. So a run never refers to a deleted
timer exactly if it deletes none that is active (`no_dead_timer_iff`). The destructor
of the looper deletes all timers, in whatever state they are; it reads none of them
twice (`Inv.close`), and the lists are gone with it.
-/

namespace Goldfish.Async

open Goldfish.Lib

namespace DefaultLooper

variable {L L' : DefaultLooper} {t : TimerId} {T : Timer} {n : Node TimerId}

/-- What is in a list is a timer that has not been deleted. -/
def NoneDead (L : DefaultLooper) : Prop := ∀ n ∈ L.nodes, L.objects n.val ≠ none

/-- What a program can do: it uses timers that exist, and a new timer has an address of its own. -/
def Uses (L : DefaultLooper) : Act → Prop
  | .call (.create t) => L.objects t = none
  | .call (.destroy t) | .call (.startAbsolute t _) | .call (.startRelative t _) | .call (.stop t) |
    .call (.load t _) => L.objects t ≠ none
  | .tick _ | .proceed _ => True

instance (L : DefaultLooper) : DecidablePred (Uses L)
  | .call (.create t) => inferInstanceAs (Decidable (L.objects t = none))
  | .call (.destroy t) | .call (.startAbsolute t _) | .call (.startRelative t _) | .call (.stop t) |
    .call (.load t _) => inferInstanceAs (Decidable (L.objects t ≠ none))
  | .tick _ | .proceed _ => isTrue trivial

/-- A step that leaves no deleted timer in a list, and reads none. -/
def Clean (L : DefaultLooper) (a : Act) : Prop :=
  (∀ L', L.step a = .ok L' → NoneDead L') ∧ L.step a ≠ .error .useAfterFree

/-! ### Runs -/

section Inv

variable (h : Inv L)
include h

theorem Inv.noneDead : NoneDead L := by
  intro n hn
  obtain ⟨T, hT⟩ := h.live n hn
  simp [hT]

/-- A start either keeps the invariant or, of a pending timer, erases an iterator of the other list. -/
theorem Inv.startAbsolute_cases (hlive : L.objects t ≠ none) (d : Int) :
    (∃ L', L.startAbsolute t d = .ok L' ∧ Inv L') ∨ L.startAbsolute t d = .error .badIterator := by
  by_cases hpending : t ∈ L.mPendingTimers.map Node.val
  · exact .inr (h.startAbsolute_due hpending d)
  · exact .inl (h.startAbsolute hlive hpending d)

/-- A step of a program that deletes no active timer. -/
theorem Inv.step_cases {a : Act} (huses : Uses L a) (hspares : SparesActive L a) :
    (∃ L', L.step a = .ok L' ∧ Inv L') ∨ L.step a = .error .badIterator := by
  cases a with
  | tick ms => exact .inl (h.step (a := .tick ms) trivial trivial)
  | proceed env => exact .inl (h.step (a := .proceed env) trivial trivial)
  | call op =>
    cases op with
    | create t => exact .inl (h.step (a := .call (.create t)) huses hspares)
    | destroy t => exact .inl (h.step (a := .call (.destroy t)) huses hspares)
    | startAbsolute t d => exact h.startAbsolute_cases huses d
    | startRelative t d =>
      unfold DefaultLooper.step DefaultLooper.call DefaultLooper.startRelative
      dsimp only
      split
      · exact h.startAbsolute_cases huses _
      · exact h.startAbsolute_cases huses _
    | stop t => exact h.startAbsolute_cases huses _
    | load t be64 => exact h.startAbsolute_cases huses _

/-- A timer that is deleted while it is active is dead, and in the active list. -/
theorem Inv.spares_of_noneDead {a : Act} (huses : Uses L a)
    (hkeeps : ∀ L', L.step a = .ok L' → NoneDead L') : SparesActive L a := by
  cases a with
  | tick => trivial
  | proceed => trivial
  | call op =>
    cases op with
    | destroy t =>
      intro hmem
      obtain ⟨n, hn, rfl⟩ := List.mem_map.mp hmem
      obtain ⟨L', hdestroy, hnodes, hdead⟩ := h.destroyTimer_active hn
      exact hkeeps L' hdestroy n (hnodes ▸ mem_nodes_of_active hn) hdead
    | create t => trivial
    | startAbsolute t d => trivial
    | startRelative t d => trivial
    | stop t => trivial
    | load t be64 => trivial

end Inv

/-- **No deleted timer is ever referenced** in a run, in any of its lists or by any of its steps, exactly if
the run deletes no active timer. -/
theorem no_dead_timer_iff (now : Int) (acts : List Act) (huses : Along DefaultLooper.step Uses (new now) acts) :
    (∀ pre, pre <+: acts →
        (∀ L, pre.foldlM DefaultLooper.step (new now) = .ok L → NoneDead L) ∧
          pre.foldlM DefaultLooper.step (new now) ≠ .error .useAfterFree) ↔
      Along DefaultLooper.step SparesActive (new now) acts := by
  rw [forall_reached_iff_along (new_inv now).noneDead]
  have hiff : Along DefaultLooper.step (fun L a => Uses L a ∧ Clean L a) (new now) acts ↔
      Along DefaultLooper.step (fun L a => Uses L a ∧ SparesActive L a) (new now) acts := by
    refine along_iff_along (I := Inv) (fun L a h => ?_) (fun L a L' h hok hstep => ?_) (new_inv now)
    · refine and_congr_right fun huses => ⟨fun hkeeps => h.spares_of_noneDead huses hkeeps.1, fun hspares => ?_⟩
      rcases h.step_cases huses hspares with ⟨L', hstep, h'⟩ | hstep
      · rw [Clean, hstep]
        exact ⟨fun L'' heq => Except.ok.inj heq ▸ h'.noneDead, fun heq => by cases heq⟩
      · rw [Clean, hstep]
        exact ⟨fun L'' heq => (by cases heq), fun heq => by cases heq⟩
    · rcases h.step_cases hok.1 hok.2 with ⟨L'', hstep', h'⟩ | hstep'
      · exact Except.ok.inj (hstep'.symm.trans hstep) ▸ h'
      · rw [hstep'] at hstep
        cases hstep
  rw [along_and_iff, along_and_iff, and_iff_right huses, and_iff_right huses] at hiff
  exact hiff

/-- The callback of a timer deletes one that is due as well, one that is idle, and its own. -/
def deletedByFirst : List Act :=
  [.call (.create 1), .call (.create 2), .call (.create 3), .call (.startAbsolute 1 10),
    .call (.startAbsolute 2 10), .proceed quiet, .proceed quiet, .proceed quiet, .call (.destroy 2),
    .call (.destroy 3), .call (.destroy 1), .proceed quiet, .proceed quiet, .proceed quiet]

theorem none_dead_deleted_by_first : Along DefaultLooper.step SparesActive (new 0) deletedByFirst ∧
    ∀ pre, pre <+: deletedByFirst →
      (∀ L, pre.foldlM DefaultLooper.step (new 0) = .ok L → NoneDead L) ∧
        pre.foldlM DefaultLooper.step (new 0) ≠ .error .useAfterFree := by
  have hspares : Along DefaultLooper.step SparesActive (new 0) deletedByFirst := by decide
  exact ⟨hspares, (no_dead_timer_iff 0 deletedByFirst (by decide)).mpr hspares⟩

/-- The callback of a timer deletes one that is to expire later. -/
def laterDeleted : List Act :=
  [.call (.create 1), .call (.create 2), .call (.startAbsolute 1 10), .call (.startAbsolute 2 20),
    .proceed quiet, .proceed quiet, .proceed quiet, .call (.destroy 2)]

/-- The deleted timer is first in the active list, and the next iteration reads its deadline. -/
theorem dead_timer_read : Along DefaultLooper.step Uses (new 0) laterDeleted ∧
    (∃ L, laterDeleted.foldlM DefaultLooper.step (new 0) = .ok L ∧ ¬ NoneDead L) ∧
      (laterDeleted ++ List.replicate 3 (Act.proceed quiet)).foldlM DefaultLooper.step (new 0) =
        .error .useAfterFree := by
  refine ⟨by decide, ⟨_, rfl, fun h => ?_⟩, rfl⟩
  exact h ⟨1, 2⟩ (by decide) rfl

/-! ### The destructor of the looper -/

/-- The loop of `~DefaultLooper` over `mTimers`, which has the timers in an order of its own. -/
def close (L : DefaultLooper) (order : List TimerId) : Except Fault DefaultLooper :=
  order.foldlM DefaultLooper.destroyTimer L

/-- What the destructor of a timer needs: the node of a timer that is pending. -/
def Deletable (L : DefaultLooper) (t : TimerId) : Prop :=
  ∃ T, L.objects t = some T ∧ (T.mPending = true →
    ∃ n ∈ L.mPendingTimers, n.val = t ∧ L.mTimers t = some (.node n.id))

theorem Inv.deletable (h : Inv L) (hlive : L.objects t ≠ none) : Deletable L t := by
  obtain ⟨T, hT⟩ := Option.ne_none_iff_exists'.mp hlive
  refine ⟨T, hT, fun hpend => ?_⟩
  obtain ⟨n, rfl, hposition, ⟨hflag, -⟩ | ⟨-, hn⟩⟩ := h.node_of_active hT (h.pendingActive t T hT hpend)
  · rw [hflag] at hpend
    cases hpend
  · exact ⟨n, hn, rfl, hposition⟩

/-- A timer is deleted, whatever the lists refer to, and the others can be deleted as before. -/
theorem destroyTimer_deletable (hdistinct : NodeList.Distinct L.mPendingTimers) (ht : Deletable L t) :
    ∃ L', L.destroyTimer t = .ok L' ∧ NodeList.Distinct L'.mPendingTimers ∧
      ∀ s, s ≠ t → Deletable L s → Deletable L' s := by
  obtain ⟨T, hT, hnode⟩ := ht
  cases hpend : T.mPending with
  | true =>
    obtain ⟨n, hn, rfl, hposition⟩ := hnode hpend
    obtain ⟨l, herase, hsub, hmem⟩ := eraseAt_of_mem hposition hdistinct hn
    rw [DefaultLooper.destroyTimer, DefaultLooper.clearPending, deref_eq_ok.mpr hT, ok_bind, if_pos hpend,
      delPendingTimer, herase]
    refine ⟨_, rfl, hdistinct.sublist (hsub.map _), fun s hs hdeletable => ?_⟩
    obtain ⟨S, hS, hnode'⟩ := hdeletable
    refine ⟨S, ?_, fun hpend' => ?_⟩
    · simpa [delTimer, setObject, Function.update_of_ne hs] using hS
    · obtain ⟨m, hm, rfl, hposition'⟩ := hnode' hpend'
      refine ⟨m, (hmem m).mpr ⟨hm, fun heq => hs (heq ▸ rfl)⟩, rfl, ?_⟩
      simpa [delTimer, setObject, Function.update_of_ne hs] using hposition'
  | false =>
    rw [DefaultLooper.destroyTimer, DefaultLooper.clearPending, deref_eq_ok.mpr hT, ok_bind,
      if_neg (by simp [hpend]), ok_bind]
    refine ⟨_, rfl, hdistinct, fun s hs hdeletable => ?_⟩
    obtain ⟨S, hS, hnode'⟩ := hdeletable
    refine ⟨S, ?_, fun hpend' => ?_⟩
    · simpa [delTimer, Function.update_of_ne hs] using hS
    · obtain ⟨m, hm, rfl, hposition'⟩ := hnode' hpend'
      exact ⟨m, hm, rfl, by simpa [delTimer, Function.update_of_ne hs] using hposition'⟩

/-- **The destructor of the looper** deletes its timers in any state and in any order, and reads no deleted
one. -/
theorem Inv.close (h : Inv L) {order : List TimerId} (honce : order.Nodup)
    (hlive : ∀ t ∈ order, L.objects t ≠ none) : ∃ L', L.close order = .ok L' := by
  have hdeletable : ∀ t ∈ order, Deletable L t := fun t ht => h.deletable (hlive t ht)
  have hdistinct := h.distinct_pending
  clear h hlive
  induction order generalizing L with
  | nil => exact ⟨L, rfl⟩
  | cons t order ih =>
    obtain ⟨hnot, honce⟩ := List.nodup_cons.mp honce
    obtain ⟨L₁, hdestroy, hdistinct₁, hothers⟩ :=
      destroyTimer_deletable hdistinct (hdeletable t List.mem_cons_self)
    obtain ⟨L', hL'⟩ := ih honce (fun s hs => hothers s (fun heq => hnot (heq ▸ hs))
      (hdeletable s (List.mem_cons_of_mem t hs))) hdistinct₁
    refine ⟨L', ?_⟩
    rw [DefaultLooper.close, List.foldlM_cons, hdestroy, ok_bind]
    exact hL'

end DefaultLooper

end Goldfish.Async
