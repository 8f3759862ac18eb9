import Goldfish.Async.TimerInvariant

/-!
# Goldfish.Async.TimerDiscipline

**When the timers keep their discipline.** One lemma for each operation: it does not
fail, and keeps the invariant. The destructor is the exception. It takes a timer off
the pending list only, so one that is deleted while it is active stays in
`mActiveTimers`, where the looper reads it again. A run keeps the discipline exactly
if it deletes no active timer (`discipline_iff_spares_active`).
-/

namespace Goldfish.Async

open Goldfish.Lib

namespace DefaultLooper

variable {L : DefaultLooper} {t : TimerId} {T : Timer} {n : Node TimerId}

/-! ### The operations -/

theorem eraseAt_of_mem {list : List (Node TimerId)} (hposition : L.mTimers t = some (.node n.id))
    (hdistinct : NodeList.Distinct list) (hn : n ∈ list) :
    ∃ l, L.eraseAt t list = .ok l ∧ l.Sublist list ∧ ∀ m, m ∈ l ↔ m ∈ list ∧ m ≠ n := by
  obtain ⟨l, herase, hl⟩ := NodeList.erase_of_mem hdistinct hn
  refine ⟨l, ?_, hl⟩
  simp only [eraseAt, hposition, herase]

/-- What the deadline was before does not matter. -/
theorem setDeadline_setObject (d e : Int) :
    (L.setObject t { T with mDeadline := e }).setDeadline t { T with mDeadline := e } d =
      L.setDeadline t T d := by
  unfold setDeadline setObject
  split <;> simp

/-- In a list by deadline, the timers up to the place found do not expire later, and the rest do. -/
theorem findLater_ok {d : Int} (list : List (Node TimerId))
    (hlive : ∀ m ∈ list, ∃ M, L.objects m.val = some M) (hsorted : list.Pairwise (L.Related Before)) :
    ∃ before after, L.findLater d list = .ok (before, after) ∧ before ++ after = list ∧
      (∀ m ∈ before, ∀ M, L.objects m.val = some M → M.mDeadline ≤ d) ∧
      ∀ m ∈ after, ∀ M, L.objects m.val = some M → d < M.mDeadline := by
  induction list with
  | nil => exact ⟨[], [], rfl, rfl, by simp, by simp⟩
  | cons n rest ih =>
    obtain ⟨T, hT⟩ := hlive n List.mem_cons_self
    obtain ⟨hfirst, hrest⟩ := List.pairwise_cons.mp hsorted
    rw [findLater, deref_eq_ok.mpr hT, ok_bind]
    split
    · next hlt =>
      refine ⟨[], n :: rest, rfl, rfl, by simp, fun m hm M hM => ?_⟩
      rcases List.mem_cons.mp hm with rfl | hm
      · obtain rfl := Option.some.inj (hT.symm.trans hM)
        exact hlt
      · rcases hfirst m hm T M hT hM with hlt' | ⟨heq, -⟩
        · exact Int.lt_trans hlt hlt'
        · exact heq ▸ hlt
    · next hle =>
      obtain ⟨before, after, hfind, hsplit, hbefore, hafter⟩ :=
        ih (fun m hm => hlive m (List.mem_cons_of_mem n hm)) hrest
      refine ⟨n :: before, after, by rw [hfind]; rfl, by rw [List.cons_append, hsplit], ?_, hafter⟩
      intro m hm M hM
      rcases List.mem_cons.mp hm with rfl | hm
      · obtain rfl := Option.some.inj (hT.symm.trans hM)
        exact Int.not_lt.mp hle
      · exact hbefore m hm M hM

section Inv

variable (h : Inv L)
include h

theorem Inv.distinct_active : NodeList.Distinct L.mActiveTimers :=
  h.distinct.sublist ((List.sublist_append_left ..).map _)

theorem Inv.distinct_pending : NodeList.Distinct L.mPendingTimers :=
  h.distinct.sublist ((List.sublist_append_right ..).map _)

/-- No timer is in both lists. -/
theorem Inv.disjoint (hactive : n ∈ L.mActiveTimers) : n ∉ L.mPendingTimers := by
  intro hpending
  have honce := h.oneList
  rw [nodes, List.map_append, List.nodup_append'] at honce
  exact honce.2.2 (List.mem_map_of_mem hactive) (List.mem_map_of_mem hpending)

/-- `mDeadline` and `enableTimer` on a timer that is not active. -/
theorem Inv.enable (hT : L.objects t = some T) (hinactive : T.isActive = false) {d : Int}
    (hd : d ≠ kDurationInfinite) : ∃ L', (L.setDeadline t T d).enableTimer t = .ok L' ∧ Inv L' := by
  have hne : ∀ m ∈ L.mActiveTimers, m.val ≠ t := by
    rintro m hm rfl
    exact h.not_mem_nodes hT hinactive (List.mem_map_of_mem (mem_nodes_of_active hm))
  have hsame : ∀ m ∈ L.mActiveTimers, (L.setDeadline t T d).objects m.val = L.objects m.val := by
    intro m hm
    rw [setDeadline, if_neg hd]
    exact Function.update_of_ne (hne m hm) ..
  obtain ⟨before, after, hfind, hsplit, hbefore, hafter⟩ :=
    findLater_ok (L := L.setDeadline t T d) (d := d) L.mActiveTimers
      (fun m hm => hsame m hm ▸ h.live m (mem_nodes_of_active hm)) (pairwise_related hsame h.sorted)
  have hinv := h.arm hT hinactive hd hsplit
    (fun m hm M hM => hbefore m hm M ((hsame m (hsplit ▸ List.mem_append_left _ hm)).trans hM))
    (fun m hm M hM => hafter m hm M ((hsame m (hsplit ▸ List.mem_append_right _ hm)).trans hM))
  refine ⟨_, ?_, hinv⟩
  have hself : (L.setDeadline t T d).deref t = .ok ⟨d, T.mPending, L.armings.length⟩ := by
    rw [deref_eq_ok, setDeadline, if_neg hd]
    exact Function.update_self ..
  have hlist : (L.setDeadline t T d).mActiveTimers = L.mActiveTimers := by
    rw [setDeadline, if_neg hd]
    rfl
  rw [enableTimer, hself, ok_bind, hlist, hfind, ok_bind, setDeadline, if_neg hd]
  rfl

/-- The second half of `startAbsolute`. -/
theorem Inv.restart (hT : L.objects t = some T) (hinactive : T.isActive = false) (d : Int) :
    ∃ L', (if d ≠ kDurationInfinite then (L.setDeadline t T d).enableTimer t
      else .ok (L.setDeadline t T d)) = .ok L' ∧ Inv L' := by
  by_cases hd : d = kDurationInfinite
  · refine ⟨L, ?_, h⟩
    have hsame : { T with mDeadline := d } = T := by rw [hd, ← isActive_eq_false.mp hinactive]
    rw [if_neg (not_not.mpr hd), setDeadline, if_pos hd, hsame, setObject, ← hT, Function.update_eq_self]
  · rw [if_pos hd]
    exact h.enable hT hinactive hd

/-- The first half of `startAbsolute`, on a timer that is active. -/
theorem Inv.disable (hT : L.objects t = some T) (hactive : T.isActive)
    (hpending : t ∉ L.mPendingTimers.map Node.val) :
    ∃ L', L.disableTimer t = .ok L' ∧ Inv (L'.setObject t { T with mDeadline := kDurationInfinite }) := by
  obtain ⟨n, rfl, hposition, ⟨hflag, hn⟩ | ⟨-, hn⟩⟩ := h.node_of_active hT hactive
  · obtain ⟨l, herase, hsub, hmem⟩ := eraseAt_of_mem hposition h.distinct_active hn
    refine ⟨{ L with mActiveTimers := l }, by rw [disableTimer, herase]; rfl, ?_⟩
    refine h.unlist (mem_nodes_of_active hn) hsub (List.Sublist.refl _) (fun m => ?_) (by simp) hflag
    rw [List.mem_append, hmem, mem_nodes, or_and_right]
    refine or_congr_right ⟨fun hm => ⟨hm, ?_⟩, And.left⟩
    rintro rfl
    exact h.disjoint hn hm
  · exact absurd (List.mem_map_of_mem hn) hpending

theorem Inv.startAbsolute (hlive : L.objects t ≠ none) (hpending : t ∉ L.mPendingTimers.map Node.val)
    (d : Int) : ∃ L', L.startAbsolute t d = .ok L' ∧ Inv L' := by
  obtain ⟨T, hT⟩ := Option.ne_none_iff_exists'.mp hlive
  rw [DefaultLooper.startAbsolute, deref_eq_ok.mpr hT, ok_bind]
  by_cases hactive : T.mDeadline = kDurationInfinite
  · rw [if_neg (not_not.mpr hactive), ok_bind]
    exact h.restart hT (isActive_eq_false.mpr hactive) d
  · obtain ⟨L₁, hdisable, h₁⟩ := h.disable hT (isActive_iff.mpr hactive) hpending
    rw [if_pos hactive, hdisable, ok_bind]
    have hagain := h₁.restart (t := t) (T := { T with mDeadline := kDurationInfinite })
      (by rw [setObject_objects, Function.update_self]) (by simp) d
    rw [setDeadline_setObject] at hagain
    exact hagain

/-- `clearPending` on a timer that is pending. -/
theorem Inv.clearPending (hT : L.objects t = some T) (hpend : T.mPending = true) :
    ∃ l, l.Sublist L.mPendingTimers ∧ (∀ m, m ∈ l → m.val ≠ t) ∧
      L.clearPending t = .ok ({ L with mPendingTimers := l }.setObject t
        { T with mPending := false, mDeadline := kDurationInfinite }) ∧
      Inv ({ L with mPendingTimers := l }.setObject t
        { T with mPending := false, mDeadline := kDurationInfinite }) := by
  obtain ⟨n, rfl, hposition, ⟨hflag, -⟩ | ⟨-, hn⟩⟩ := h.node_of_active hT (h.pendingActive t T hT hpend)
  · simp [hflag] at hpend
  · obtain ⟨l, herase, hsub, hmem⟩ := eraseAt_of_mem hposition h.distinct_pending hn
    refine ⟨l, hsub, ?_, ?_, ?_⟩
    · intro m hm
      obtain ⟨hold, hne⟩ := (hmem m).mp hm
      exact h.placed.val_ne (mem_nodes_of_pending hn) (mem_nodes_of_pending hold) hne
    · rw [DefaultLooper.clearPending, deref_eq_ok.mpr hT, ok_bind, if_pos hpend, delPendingTimer, herase]
      rfl
    · refine h.unlist (mem_nodes_of_pending hn) (List.Sublist.refl _) hsub (fun m => ?_) (by simp) rfl
      rw [List.mem_append, hmem, mem_nodes, or_and_right]
      refine or_congr_left ⟨fun hm => ⟨hm, ?_⟩, And.left⟩
      rintro rfl
      exact h.disjoint hm hn

theorem Inv.destroyTimer (hlive : L.objects t ≠ none) (hspare : t ∉ L.mActiveTimers.map Node.val) :
    ∃ L', L.destroyTimer t = .ok L' ∧ Inv L' := by
  obtain ⟨T, hT⟩ := Option.ne_none_iff_exists'.mp hlive
  rw [DefaultLooper.destroyTimer]
  cases hpend : T.mPending with
  | true =>
    obtain ⟨l, -, hout, hclear, h₁⟩ := h.clearPending hT hpend
    rw [hclear, ok_bind]
    refine ⟨_, rfl, h₁.remove fun hmem => ?_⟩
    obtain ⟨m, hm, rfl⟩ := List.mem_map.mp hmem
    rcases mem_nodes.mp hm with hm | hm
    · exact hspare (List.mem_map_of_mem hm)
    · exact hout m hm rfl
  | false =>
    rw [DefaultLooper.clearPending, deref_eq_ok.mpr hT, ok_bind, if_neg (by simp [hpend]), ok_bind]
    refine ⟨_, rfl, h.remove fun hmem => ?_⟩
    obtain ⟨m, hm, rfl⟩ := List.mem_map.mp hmem
    rcases mem_nodes.mp hm with hm | hm
    · exact hspare (List.mem_map_of_mem hm)
    · simp [(h.expired m hm T hT).1] at hpend

/-- A timer that is deleted while it is active stays in the active list. -/
theorem Inv.destroyTimer_active (hn : n ∈ L.mActiveTimers) :
    ∃ L', L.destroyTimer n.val = .ok L' ∧ L'.nodes = L.nodes ∧ L'.objects n.val = none := by
  obtain ⟨T, hT⟩ := h.live n (mem_nodes_of_active hn)
  have hflag : ¬ T.mPending = true := by simp [h.notPending n hn T hT]
  rw [DefaultLooper.destroyTimer, DefaultLooper.clearPending, deref_eq_ok.mpr hT, ok_bind, if_neg hflag, ok_bind]
  exact ⟨_, rfl, rfl, Function.update_self ..⟩

theorem Inv.createTimer (hfresh : L.objects t = none) : Inv (L.createTimer t) := by
  unfold DefaultLooper.createTimer addTimer
  split
  · have hadd := h.add hfresh (L.mTimers t)
    rw [Function.update_eq_self] at hadd
    exact hadd
  · exact h.add hfresh (some .pendingEnd)

/-- The front of the pending list is fired. -/
theorem Inv.firePending {rest : List (Node TimerId)} (hfront : L.mPendingTimers = n :: rest) :
    ∃ L', L.firePending n.val = .ok L' ∧ Inv L' := by
  have hn : n ∈ L.mPendingTimers := hfront ▸ List.mem_cons_self
  obtain ⟨T, hT⟩ := h.live n (mem_nodes_of_pending hn)
  obtain ⟨hpend, hdue⟩ := h.expired n hn T hT
  obtain ⟨harming, hunfired⟩ := h.armed _ T hT (h.pendingActive _ T hT hpend)
  obtain ⟨l, hsub, hout, hclear, h₁⟩ := h.clearPending hT hpend
  rw [DefaultLooper.firePending, deref_eq_ok.mpr hT, ok_bind, hclear, ok_bind]
  refine ⟨_, rfl, h₁.log harming hdue ?_ hunfired (fun f hf hit => h.next f hf hit n hn T hT) ?_⟩
  · intro S hS
    rw [setObject_objects, Function.update_self] at hS
    obtain rfl := Option.some.inj hS
    simp
  · intro m hm S hS
    rw [setObject_objects, Function.update_of_ne (hout m hm)] at hS
    have hsorted := h.pendingSorted
    rw [hfront, List.pairwise_cons] at hsorted
    rcases List.mem_cons.mp (hfront ▸ hsub.subset hm) with rfl | hm'
    · exact absurd rfl (hout m hm)
    · exact hsorted.1 m hm' T S hT hS

theorem Inv.timeOut (deadlineMs : Int) (scheduled : Bool) :
    ∃ timeOut, L.timeOut deadlineMs scheduled = .ok timeOut := by
  unfold DefaultLooper.timeOut
  cases hactive : L.mActiveTimers with
  | nil => exact ⟨_, rfl⟩
  | cons first rest =>
    obtain ⟨T, hT⟩ := h.live first (mem_nodes_of_active (hactive ▸ List.mem_cons_self))
    dsimp only
    rw [deref_eq_ok.mpr hT]
    exact ⟨_, rfl⟩

theorem Inv.waitAndQueue (hnil : L.mPendingTimers = []) (timeOut : Int) (env : Env) :
    ∃ L', L.waitAndQueue timeOut env = .ok L' ∧ Inv L' := by
  have hover : ∃ L', Except.ok (ε := Fault) { L with phase := .idle } = .ok L' ∧ Inv L' :=
    ⟨_, rfl, h.enter hnil .idle L.nowMs⟩
  have hqueue : ∀ now, ∃ L', queuePending { L with nowMs := now } = .ok L' ∧ Inv L' :=
    fun now => queuePending_inv (h.enter hnil L.phase now) hnil
  unfold DefaultLooper.waitAndQueue
  split
  · split
    · exact hover
    · exact hqueue _
  · split
    · exact hover
    · exact hqueue _

/-- No stretch of an iteration fails, and each keeps the invariant. -/
theorem Inv.proceed (env : Env) : ∃ L', L.proceed env = .ok L' ∧ Inv L' := by
  unfold DefaultLooper.proceed
  cases hphase : L.phase with
  | idle =>
    obtain ⟨timeOut, htimeOut⟩ := h.timeOut env.deadlineMs env.scheduled
    dsimp only
    rw [htimeOut]
    exact ⟨_, rfl, h.enter (h.settled.resolve_left (by simp [hphase])) (.tasks timeOut) L.nowMs⟩
  | tasks timeOut => exact h.waitAndQueue (h.settled.resolve_left (by simp [hphase])) timeOut env
  | firing =>
    dsimp only
    split
    · next hpending => exact ⟨_, rfl, h.enter hpending .watches L.nowMs⟩
    · next front rest hpending => exact h.firePending hpending
  | watches => exact ⟨_, rfl, h.enter (h.settled.resolve_left (by simp [hphase])) .idle L.nowMs⟩

end Inv

/-! ### Runs -/

/-- What a program may do: it uses timers that exist, starts and stops none that is pending, and a new
timer has an address of its own. -/
def Allowed (L : DefaultLooper) : Act → Prop
  | .call (.create t) => L.objects t = none
  | .call (.destroy t) => L.objects t ≠ none
  | .call (.startAbsolute t _) => L.objects t ≠ none ∧ t ∉ L.mPendingTimers.map Node.val
  | .call (.startRelative t _) => L.objects t ≠ none ∧ t ∉ L.mPendingTimers.map Node.val
  | .call (.stop t) => L.objects t ≠ none ∧ t ∉ L.mPendingTimers.map Node.val
  | .call (.load t _) => L.objects t ≠ none ∧ t ∉ L.mPendingTimers.map Node.val
  | .tick _ => True
  | .proceed _ => True

instance (L : DefaultLooper) : DecidablePred (Allowed L)
  | .call (.create t) => inferInstanceAs (Decidable (L.objects t = none))
  | .call (.destroy t) => inferInstanceAs (Decidable (L.objects t ≠ none))
  | .call (.startAbsolute t _) | .call (.startRelative t _) | .call (.stop t) | .call (.load t _) =>
      inferInstanceAs (Decidable (L.objects t ≠ none ∧ t ∉ L.mPendingTimers.map Node.val))
  | .tick _ | .proceed _ => isTrue trivial

/-- No active timer is deleted. -/
def SparesActive (L : DefaultLooper) : Act → Prop
  | .call (.destroy t) => t ∉ L.mActiveTimers.map Node.val
  | .call (.create _) | .call (.startAbsolute ..) | .call (.startRelative ..) | .call (.stop _) |
    .call (.load ..) | .tick _ | .proceed _ => True

instance (L : DefaultLooper) : DecidablePred (SparesActive L)
  | .call (.destroy t) => inferInstanceAs (Decidable (t ∉ L.mActiveTimers.map Node.val))
  | .call (.create _) | .call (.startAbsolute ..) | .call (.startRelative ..) | .call (.stop _) |
    .call (.load ..) | .tick _ | .proceed _ => isTrue trivial

theorem Inv.step (h : Inv L) {a : Act} (hallowed : Allowed L a) (hspares : SparesActive L a) :
    ∃ L', L.step a = .ok L' ∧ Inv L' := by
  cases a with
  | tick ms => exact ⟨_, rfl, h.tick (Int.le_add_of_nonneg_right (Int.natCast_nonneg ms))⟩
  | proceed env => exact h.proceed env
  | call op =>
    cases op with
    | create t => exact ⟨_, rfl, h.createTimer hallowed⟩
    | destroy t => exact h.destroyTimer hallowed hspares
    | startAbsolute t d => exact h.startAbsolute hallowed.1 hallowed.2 d
    | startRelative t d =>
      unfold DefaultLooper.step DefaultLooper.call DefaultLooper.startRelative
      dsimp only
      split
      · exact h.startAbsolute hallowed.1 hallowed.2 _
      · exact h.startAbsolute hallowed.1 hallowed.2 _
    | stop t => exact h.startAbsolute hallowed.1 hallowed.2 _
    | load t be64 => exact h.startAbsolute hallowed.1 hallowed.2 _

/-- A timer that is deleted while it is active is in a list, and no timer any more. -/
theorem Inv.spares_of_discipline (h : Inv L) {a : Act} (hallowed : Allowed L a)
    (hkeeps : ∃ L', L.step a = .ok L' ∧ Discipline L') : SparesActive L a := by
  cases a with
  | tick => trivial
  | proceed => trivial
  | call op =>
    cases op with
    | destroy t =>
      intro hmem
      obtain ⟨n, hn, rfl⟩ := List.mem_map.mp hmem
      obtain ⟨L', hstep, hdiscipline⟩ := hkeeps
      obtain ⟨L'', hdestroy, hnodes, hdead⟩ := h.destroyTimer_active hn
      obtain rfl := Except.ok.inj (hdestroy.symm.trans hstep)
      obtain ⟨S, hS⟩ := hdiscipline.live n (hnodes ▸ mem_nodes_of_active hn)
      rw [hdead] at hS
      cases hS
    | create t => trivial
    | startAbsolute t d => trivial
    | startRelative t d => trivial
    | stop t => trivial
    | load t be64 => trivial

/-- **The discipline of the timers.** In a run of any tasks and callbacks that start and stop no pending
timer, nothing fails and every state is disciplined exactly if no active timer is deleted. -/
theorem discipline_iff_spares_active (now : Int) (acts : List Act)
    (hallowed : Along DefaultLooper.step Allowed (new now) acts) :
    (∀ pre, pre <+: acts → ∃ L, pre.foldlM DefaultLooper.step (new now) = .ok L ∧ Discipline L) ↔
      Along DefaultLooper.step SparesActive (new now) acts := by
  rw [forall_prefix_iff_along (new_inv now).toDiscipline]
  have hiff : Along DefaultLooper.step
        (fun L a => Allowed L a ∧ ∃ L', L.step a = .ok L' ∧ Discipline L') (new now) acts ↔
      Along DefaultLooper.step (fun L a => Allowed L a ∧ SparesActive L a) (new now) acts := by
    refine along_iff_along (I := Inv) (fun L a h => ?_) (fun L a L' h hok hstep => ?_) (new_inv now)
    · refine and_congr_right fun hallowed => ⟨h.spares_of_discipline hallowed, fun hspares => ?_⟩
      obtain ⟨L', hstep, h'⟩ := h.step hallowed hspares
      exact ⟨L', hstep, h'.toDiscipline⟩
    · obtain ⟨L'', hstep', h'⟩ := h.step hok.1 hok.2
      exact Except.ok.inj (hstep'.symm.trans hstep) ▸ h'
  rw [along_and_iff, along_and_iff, and_iff_right hallowed, and_iff_right hallowed] at hiff
  exact hiff

/-- An iteration without tasks or watches. -/
def quiet : Env := ⟨kDurationInfinite, false, false, 0, 0⟩

/-- Two timers expire together: the callback of the first starts it again, and that of the second deletes
its own timer. -/
def twoTimers : List Act :=
  [.call (.create 1), .call (.create 2), .call (.startAbsolute 1 10), .call (.startAbsolute 2 10),
    .proceed quiet, .proceed quiet, .proceed quiet, .call (.startRelative 1 5), .proceed quiet,
    .call (.destroy 2), .proceed quiet]

theorem discipline_two_timers :
    (∃ L, twoTimers.foldlM DefaultLooper.step (new 0) = .ok L ∧ L.fired.map Firing.timer = [1, 2]) ∧
      ∀ pre, pre <+: twoTimers → ∃ L, pre.foldlM DefaultLooper.step (new 0) = .ok L ∧ Discipline L :=
  ⟨⟨_, rfl, rfl⟩, (discipline_iff_spares_active 0 twoTimers (by decide)).mpr (by decide)⟩

/-- A timer that is deleted while it is active is still in `mActiveTimers`, and the next iteration reads
it. -/
theorem deleted_while_active :
    Along DefaultLooper.step Allowed (new 0)
        [.call (.create 1), .call (.startAbsolute 1 10), .call (.destroy 1), .proceed quiet] ∧
      (∃ L, [Act.call (.create 1), .call (.startAbsolute 1 10), .call (.destroy 1)].foldlM
        DefaultLooper.step (new 0) = .ok L ∧ ¬ Discipline L) ∧
      [Act.call (.create 1), .call (.startAbsolute 1 10), .call (.destroy 1), .proceed quiet].foldlM
        DefaultLooper.step (new 0) = .error .useAfterFree := by
  refine ⟨by decide, ⟨_, rfl, fun h => ?_⟩, rfl⟩
  obtain ⟨T, hT⟩ := h.live ⟨0, 1⟩ (by decide)
  cases hT

end DefaultLooper

end Goldfish.Async
