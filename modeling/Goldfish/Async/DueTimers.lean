import Goldfish.Async.TimerDiscipline

/-!
# Goldfish.Async.DueTimers

**Calls on a timer that is about to be fired.** `Switched` is what a callback that
stops or restarts another due timer wants of it. `startAbsolute` never takes a timer
off the pending list: where the deadline is finite it erases `mTimers[timer]` from
`mActiveTimers`, and for a due timer that is an iterator into `mPendingTimers`
(`Inv.startAbsolute_due`). So no such call switches its timer
(`due_timer_never_switched`). Behind `clearPending`, with which the destructor begins,
each of them does (`Inv.clearPending_startAbsolute`).
-/

namespace Goldfish.Async

open Goldfish.Lib

namespace DefaultLooper

variable {L L' : DefaultLooper} {t : TimerId} {T : Timer} {d : Int} {op : Op}

/-- The timer that a call stops or starts, and its deadline from then on. -/
def redirects (L : DefaultLooper) : Op → Option (TimerId × Int)
  | .startAbsolute timer deadlineMs => some (timer, deadlineMs)
  | .startRelative timer deadlineMs =>
      if deadlineMs ≠ kDurationInfinite then some (timer, toDuration (deadlineMs + L.nowMs))
      else some (timer, deadlineMs)
  | .stop timer => some (timer, kDurationInfinite)
  | .create _ | .destroy _ | .load .. => none

/-- A timer that was due is not any more: it has been stopped, or waits for its new deadline. -/
structure Switched (L : DefaultLooper) (t : TimerId) (deadlineMs : Int) : Prop where
  unqueued : t ∉ L.mPendingTimers.map Node.val
  stopped : deadlineMs = kDurationInfinite →
    t ∉ L.nodes.map Node.val ∧ ∃ T, L.objects t = some T ∧ T.mPending = false
  restarted : deadlineMs ≠ kDurationInfinite →
    (L.mActiveTimers.map Node.val).count t = 1 ∧ ∃ T, L.objects t = some T ∧ T.mDeadline = deadlineMs

theorem call_of_redirects (hop : L.redirects op = some (t, d)) : L.call op = L.startAbsolute t d := by
  cases op with
  | startAbsolute s e =>
    obtain ⟨rfl, rfl⟩ := Prod.mk.inj (Option.some.inj hop)
    rfl
  | startRelative s e =>
    unfold DefaultLooper.call DefaultLooper.startRelative
    unfold redirects at hop
    dsimp only at hop ⊢
    split at hop
    · next he =>
      obtain ⟨rfl, rfl⟩ := Prod.mk.inj (Option.some.inj hop)
      rw [if_pos he]
    · next he =>
      obtain ⟨rfl, rfl⟩ := Prod.mk.inj (Option.some.inj hop)
      rw [if_neg he]
  | stop s =>
    obtain ⟨rfl, rfl⟩ := Prod.mk.inj (Option.some.inj hop)
    rfl
  | create s => cases hop
  | destroy s => cases hop
  | load s be64 => cases hop

/-! ### The pending list and the flag are left alone -/

theorem disableTimer_frame (h : L.disableTimer t = .ok L') :
    L'.mPendingTimers = L.mPendingTimers ∧ L'.objects = L.objects := by
  obtain ⟨l, -, rfl⟩ := map_eq_ok.mp h
  exact ⟨rfl, rfl⟩

theorem enableTimer_frame (h : L.enableTimer t = .ok L') :
    L'.mPendingTimers = L.mPendingTimers ∧ L'.objects = L.objects := by
  simp only [enableTimer, bind_eq_ok, Except.ok.injEq] at h
  obtain ⟨T, -, split, -, rfl⟩ := h
  exact ⟨rfl, rfl⟩

theorem setDeadline_frame : (L.setDeadline t T d).mPendingTimers = L.mPendingTimers ∧
    ∃ S, (L.setDeadline t T d).objects = Function.update L.objects t (some S) ∧
      S.mDeadline = d ∧ S.mPending = T.mPending := by
  unfold setDeadline
  split
  · exact ⟨rfl, _, rfl, rfl, rfl⟩
  · exact ⟨rfl, _, rfl, rfl, rfl⟩

/-- A start that succeeds gives the timer its deadline, and leaves the pending list and the flag alone. -/
theorem startAbsolute_frame (hT : L.objects t = some T) (h : L.startAbsolute t d = .ok L') :
    L'.mPendingTimers = L.mPendingTimers ∧
      ∃ S, L'.objects t = some S ∧ S.mDeadline = d ∧ S.mPending = T.mPending := by
  obtain ⟨L₁, hdisable, hrest⟩ : ∃ L₁, (if T.mDeadline ≠ kDurationInfinite then L.disableTimer t else .ok L) =
        .ok L₁ ∧ (if d ≠ kDurationInfinite then (L₁.setDeadline t T d).enableTimer t
          else .ok (L₁.setDeadline t T d)) = .ok L' := by
    rw [startAbsolute, deref_eq_ok.mpr hT, ok_bind] at h
    by_cases hactive : T.mDeadline ≠ kDurationInfinite
    · rw [if_pos hactive]
      rw [if_pos hactive] at h
      exact bind_eq_ok.mp h
    · rw [if_neg hactive]
      rw [if_neg hactive] at h
      exact ⟨L, rfl, h⟩
  have h₁ : L₁.mPendingTimers = L.mPendingTimers := by
    split at hdisable
    · exact (disableTimer_frame hdisable).1
    · exact Except.ok.inj hdisable ▸ rfl
  obtain ⟨h₂, S, hobjects, hdeadline, hflag⟩ := setDeadline_frame (L := L₁) (t := t) (T := T) (d := d)
  have hself : (L₁.setDeadline t T d).objects t = some S := by rw [hobjects, Function.update_self]
  split at hrest
  · obtain ⟨h₃, hsame⟩ := enableTimer_frame hrest
    exact ⟨h₃.trans (h₂.trans h₁), S, by rw [hsame, hself], hdeadline, hflag⟩
  · obtain rfl := Except.ok.inj hrest
    exact ⟨h₂.trans h₁, S, hself, hdeadline, hflag⟩

/-- What is due stays due. -/
theorem not_switched (hdue : t ∈ L.mPendingTimers.map Node.val) :
    ¬ ∃ L', L.startAbsolute t d = .ok L' ∧ L'.Switched t d := by
  rintro ⟨L', hstart, hswitched⟩
  cases hT : L.objects t with
  | none => simp [startAbsolute, deref, hT] at hstart
  | some T =>
    refine hswitched.unqueued ?_
    rw [(startAbsolute_frame hT hstart).1]
    exact hdue

section Inv

variable (h : Inv L)
include h

/-- The iterator of a due timer is not one into `mActiveTimers`. -/
theorem Inv.startAbsolute_due (hdue : t ∈ L.mPendingTimers.map Node.val) (d : Int) :
    L.startAbsolute t d = .error .badIterator := by
  obtain ⟨n, hn, rfl⟩ := List.mem_map.mp hdue
  have hnode := mem_nodes_of_pending hn
  obtain ⟨T, hT⟩ := h.live n hnode
  have hactive : T.mDeadline ≠ kDurationInfinite :=
    isActive_iff.mp (h.pendingActive _ T hT (h.expired n hn T hT).1)
  have hforeign : n.id ∉ L.mActiveTimers.map Node.id := by
    intro hmem
    obtain ⟨m, hm, hid⟩ := List.mem_map.mp hmem
    have heq : m = n := h.distinct.eq (mem_nodes_of_active hm) hnode hid
    exact h.disjoint (heq ▸ hm) hn
  have herase : L.eraseAt n.val L.mActiveTimers = .error .badIterator := by
    simp only [eraseAt, h.position n hnode, NodeList.erase, if_neg hforeign]
  rw [DefaultLooper.startAbsolute, deref_eq_ok.mpr hT, ok_bind, if_pos hactive, disableTimer, herase]
  rfl

/-- A timer that is taken off the pending list first is switched. -/
theorem Inv.clearPending_startAbsolute (hdue : t ∈ L.mPendingTimers.map Node.val) (d : Int) :
    ∃ L', (L.clearPending t >>= fun L => L.startAbsolute t d) = .ok L' ∧ L'.Switched t d ∧ Inv L' := by
  obtain ⟨n, hn, rfl⟩ := List.mem_map.mp hdue
  obtain ⟨T, hT⟩ := h.live n (mem_nodes_of_pending hn)
  obtain ⟨l, -, hout, hclear, h₁⟩ := h.clearPending hT (h.expired n hn T hT).1
  have hcleared := Function.update_self (β := fun _ => Option Timer) n.val
    (some { T with mPending := false, mDeadline := kDurationInfinite }) L.objects
  have hunqueued : n.val ∉ l.map Node.val := by
    intro hmem
    obtain ⟨m, hm, hval⟩ := List.mem_map.mp hmem
    exact hout m hm hval
  obtain ⟨L', hstart, h'⟩ := h₁.startAbsolute (t := n.val) (Option.ne_none_iff_exists'.mpr ⟨_, hcleared⟩)
    hunqueued d
  obtain ⟨hpending, S, hS, hdeadline, hflag⟩ := startAbsolute_frame hcleared hstart
  refine ⟨L', by rw [hclear, ok_bind, hstart], ?_, h'⟩
  constructor
  case unqueued => rwa [hpending]
  case stopped =>
    rintro rfl
    exact ⟨h'.not_mem_nodes hS (isActive_eq_false.mpr hdeadline), S, hS, hflag⟩
  case restarted =>
    intro hd
    have hlisted := (h'.listed _ S hS).mp (isActive_iff.mpr (hdeadline ▸ hd))
    rw [nodes, List.map_append, List.mem_append, hpending] at hlisted
    have hnodup := h'.oneList
    rw [nodes, List.map_append] at hnodup
    exact ⟨List.count_eq_one_of_mem hnodup.of_append_left (hlisted.resolve_right hunqueued), S, hS, hdeadline⟩

end Inv

/-! ### Runs -/

/-- The states of runs of programs that keep to the rules. -/
theorem inv_of_run {now : Int} {acts : List Act}
    (hacts : Along DefaultLooper.step (fun L a => Allowed L a ∧ SparesActive L a) (new now) acts)
    (hrun : acts.foldlM DefaultLooper.step (new now) = .ok L) : Inv L := by
  refine hacts.invariant (fun L a L' h hok hstep => ?_) (new_inv now) hrun
  obtain ⟨L'', hstep', h'⟩ := h.step hok.1 hok.2
  exact Except.ok.inj (hstep'.symm.trans hstep) ▸ h'

/-- **Stopping or restarting a timer that is due.** In no state of any run does a callback that stops or
starts a timer of the pending list switch it: where the run has kept to the rules, the call erases an
iterator from a list that it does not point into. -/
theorem due_timer_never_switched (now : Int) (acts : List Act)
    (hrun : acts.foldlM DefaultLooper.step (new now) = .ok L) (hop : L.redirects op = some (t, d))
    (hdue : t ∈ L.mPendingTimers.map Node.val) :
    (¬ ∃ L', L.call op = .ok L' ∧ L'.Switched t d) ∧
      (Along DefaultLooper.step (fun L a => Allowed L a ∧ SparesActive L a) (new now) acts →
        L.call op = .error .badIterator) := by
  rw [call_of_redirects hop]
  exact ⟨not_switched hdue, fun hacts => (inv_of_run hacts hrun).startAbsolute_due hdue d⟩

/-- Two timers have expired together, and the callback of the first runs. -/
def firstOfTwo : List Act :=
  [.call (.create 1), .call (.create 2), .call (.startAbsolute 1 10), .call (.startAbsolute 2 10),
    .proceed quiet, .proceed quiet, .proceed quiet]

theorem second_of_two_never_switched :
    ∃ L, firstOfTwo.foldlM DefaultLooper.step (new 0) = .ok L ∧
      (¬ ∃ L', L.call (.startRelative 2 5) = .ok L' ∧ L'.Switched 2 15) ∧
      L.call (.startRelative 2 5) = .error .badIterator := by
  have hnever := due_timer_never_switched 0 firstOfTwo rfl
    (show DefaultLooper.redirects _ (.startRelative 2 5) = some (2, 15) from rfl) (by decide)
  exact ⟨_, rfl, hnever.1, hnever.2 (by decide)⟩

/-- The first of two timers stops the second: the call erases an iterator of the other list. -/
theorem stopped_by_the_first :
    ∃ L, firstOfTwo.foldlM DefaultLooper.step (new 0) = .ok L ∧ L.phase = .firing ∧
      L.fired.map Firing.timer = [1] ∧ L.mPendingTimers.map Node.val = [2] ∧
      L.call (.stop 2) = .error .badIterator ∧
      ¬ ∃ L', L.call (.stop 2) = .ok L' ∧ L'.Switched 2 kDurationInfinite := by
  refine ⟨_, rfl, rfl, rfl, rfl, rfl, ?_⟩
  rintro ⟨L', hcall, -⟩
  cases hcall

end DefaultLooper

end Goldfish.Async
