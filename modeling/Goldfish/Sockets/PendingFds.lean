import Goldfish.Sockets.SocketWaiter

/-!
# Goldfish.Sockets.PendingFds

What the waiter reports after a `select`. The cursor of `nextPendingFd` is moved before the
descriptor is tested, so the enumeration gives what is pending behind the cursor
(`drain_spec`): not descriptor 0, where it starts. At the other end it tests the bit of the
count, which is outside if the last descriptor is wanted (`drain_bound`). With the updates,
this gives the exact condition for a sequence of calls (`waiter_right_iff`).
-/

namespace Goldfish.Sockets

open Goldfish.Lib

/-! ### What is pending -/

section Listed

variable {events : Int → UInt32}

theorem listed_succ (first count : Nat) : listed events first (count + 1) =
    if events first ≠ 0 then ((first : Int), events first) :: listed events (first + 1) count
    else listed events (first + 1) count := by
  unfold listed
  rw [List.range'_succ, List.filterMap_cons]
  split <;> simp_all

theorem listed_add (first m n : Nat) :
    listed events first (m + n) = listed events first m ++ listed events (first + m) n := by
  unfold listed
  rw [← List.filterMap_append, List.range'_append_1]

theorem listed_eq_nil {first count : Nat} (h : ∀ fd : Nat, first ≤ fd → fd < first + count → events fd = 0) :
    listed events first count = [] := by
  rw [listed, List.filterMap_eq_nil_iff]
  intro fd hfd
  obtain ⟨hfirst, hlast⟩ := List.mem_range'_1.mp hfd
  simp [h fd hfirst hlast]

/-- What is listed is the first one, and what is listed behind it. -/
theorem listed_head {first count : Nat} {fd : Int} {flags : UInt32}
    (h : (listed events first count).head? = some (fd, flags)) : ∃ q : Nat, fd = q ∧ first ≤ q ∧ q < first + count ∧
      listed events first count = ((q : Int), flags) :: listed events (q + 1) (first + count - (q + 1)) := by
  induction count generalizing first with
  | zero => cases h
  | succ count ih =>
    rw [listed_succ] at h ⊢
    split
    · rename_i hevents
      rw [if_pos hevents] at h
      obtain ⟨rfl, rfl⟩ := Prod.mk.inj (Option.some.inj h)
      refine ⟨first, rfl, Nat.le_refl _, by omega, ?_⟩
      congr 2
      omega
    · rename_i hnone
      rw [if_neg hnone] at h
      obtain ⟨q, hq, hfirst, hlast, hlisted⟩ := ih h
      refine ⟨q, hq, by omega, by omega, ?_⟩
      rw [hlisted]
      congr 2
      omega

end Listed

section Drain

variable {waiter : SelectSocketWaiter} {events : Int → UInt32}

/-- The result sets hold these events of the valid descriptors. -/
def Pending (waiter : SelectSocketWaiter) (events : Int → UInt32) : Prop :=
  ∀ fd, isValidFd fd = true → eventsIn waiter.mReadsResult waiter.mWritesResult fd = .ok (events fd)

theorem isValidFd_natCast {fd : Nat} : isValidFd fd = true ↔ fd < FD_SETSIZE := by
  simp [isValidFd]

theorem scan_spec (h : Pending waiter events) {turns first : Nat} (hroom : first + turns < FD_SETSIZE) :
    waiter.scan turns first = .ok (listed events (first + 1) turns).head? := by
  induction turns generalizing first with
  | zero => rfl
  | succ turns ih =>
    have hvalid : isValidFd ((first + 1 : Nat) : Int) = true := isValidFd_natCast.mpr (by omega)
    rw [SelectSocketWaiter.scan, listed_succ]
    rw [show (first : Int) + 1 = ((first + 1 : Nat) : Int) from rfl, h _ hvalid, ok_bind]
    split
    · rfl
    · exact ih (by omega)

/-- Where the loop gets through, it stays within the sets. -/
theorem scan_eq_ok {turns first : Nat} {result : Option (Int × UInt32)}
    (h : waiter.scan turns first = .ok result) (hfirst : first < FD_SETSIZE) :
    (result = none → first + turns < FD_SETSIZE) ∧
      ∀ fd flags, result = some (fd, flags) → ∃ q : Nat, fd = q ∧ q < FD_SETSIZE := by
  induction turns generalizing first with
  | zero =>
    obtain rfl := Except.ok.inj h
    exact ⟨fun _ => hfirst, nofun⟩
  | succ turns ih =>
    rw [SelectSocketWaiter.scan, bind_eq_ok] at h
    obtain ⟨flags, hflags, h⟩ := h
    rw [show (first : Int) + 1 = ((first + 1 : Nat) : Int) from rfl] at hflags h
    have hnext := isValidFd_natCast.mp (eventsIn_eq_ok hflags).1
    split at h
    · obtain rfl := Except.ok.inj h
      refine ⟨nofun, fun fd flags' hsome => ⟨first + 1, ?_, hnext⟩⟩
      exact (Prod.mk.inj (Option.some.inj hsome)).1.symm
    · obtain ⟨hnone, hsome⟩ := ih h hnext
      exact ⟨fun hresult => by have := hnone hresult; omega, hsome⟩

/-- The waiter once it has a maximum. -/
def Counted (waiter : SelectSocketWaiter) (count : Nat) : Prop :=
  waiter.mMaxFdValid = true ∧ waiter.mMaxFd + 1 = count

theorem Counted.getFdCount {count : Nat} (h : Counted waiter count) :
    waiter.getFdCount = .ok ((count : Int), waiter) := by
  rw [SelectSocketWaiter.getFdCount, if_pos h.1, h.2]

/-- What a call gives for what the loop has found. -/
def SelectSocketWaiter.found (waiter : SelectSocketWaiter) :
    Option (Int × UInt32) → (Int × UInt32) × SelectSocketWaiter
  | some (fd, fdEvents) => ((fd, fdEvents), { waiter with mPendingFd := fd })
  | none => ((-1, 0), waiter)

theorem nextPendingFd_eq {count cursor : Nat} (hcount : Counted waiter count) (hcursor : waiter.mPendingFd = cursor) :
    waiter.nextPendingFd = waiter.found <$> waiter.scan (count - cursor) cursor := by
  have hturns : ((count : Int) - cursor).toNat = count - cursor := by omega
  rw [SelectSocketWaiter.nextPendingFd, hcount.getFdCount, ok_bind]
  simp only [hcursor, hturns]
  cases waiter.scan (count - cursor) cursor with
  | error fault => rfl
  | ok result => cases result <;> rfl

theorem Counted.found {count : Nat} (h : Counted waiter count) (fd : Int) :
    Counted { waiter with mPendingFd := fd } count := h

/-- **What is reported is what is pending**, from the cursor on. -/
theorem drain_spec (h : Pending waiter events) {count cursor : Nat} (fuel : Nat) (hcount : Counted waiter count)
    (hcursor : waiter.mPendingFd = cursor) (hroom : count < FD_SETSIZE) (hle : cursor ≤ count)
    (hfuel : count - cursor < fuel) : ∃ fd, SelectSocketWaiter.drain fuel waiter =
      .ok (listed events (cursor + 1) (count - cursor), { waiter with mPendingFd := fd }) := by
  induction fuel generalizing waiter cursor with
  | zero => omega
  | succ fuel ih =>
    have hscan := scan_spec h (show cursor + (count - cursor) < FD_SETSIZE by omega)
    rw [SelectSocketWaiter.drain, nextPendingFd_eq hcount hcursor, hscan]
    cases hhead : (listed events (cursor + 1) (count - cursor)).head? with
    | none =>
      rw [List.head?_eq_none_iff.mp hhead]
      exact ⟨waiter.mPendingFd, rfl⟩
    | some found =>
      obtain ⟨fd, flags⟩ := found
      obtain ⟨q, rfl, hfirst, hlast, hlisted⟩ := listed_head hhead
      have hrest : cursor + 1 + (count - cursor) - (q + 1) = count - q := by omega
      have hpending : Pending { waiter with mPendingFd := q } events := h
      obtain ⟨last, hdrain⟩ := ih hpending (hcount.found q) rfl (by omega) (by omega)
      have hpositive : ¬ (q : Int) < 0 := by omega
      refine ⟨last, ?_⟩
      rw [hlisted, hrest]
      simp only [SelectSocketWaiter.found, Functor.map, Except.map, ok_bind, hpositive, if_false, hdrain]
      rfl

/-- To enumerate what is pending, the bit of the count is tested. -/
theorem drain_bound {count fuel cursor : Nat} (hcount : Counted waiter count) (hcursor : waiter.mPendingFd = cursor)
    (hroom : cursor < FD_SETSIZE) {result : List (Int × UInt32) × SelectSocketWaiter}
    (h : SelectSocketWaiter.drain fuel waiter = .ok result) : count < FD_SETSIZE := by
  induction fuel generalizing waiter cursor result with
  | zero => cases h
  | succ fuel ih =>
    rw [SelectSocketWaiter.drain, nextPendingFd_eq hcount hcursor, bind_eq_ok] at h
    obtain ⟨next, hnext, h⟩ := h
    obtain ⟨found, hscan, rfl⟩ := map_eq_ok.mp hnext
    obtain ⟨hnone, hsome⟩ := scan_eq_ok hscan hroom
    cases found with
    | none =>
      have hlast := hnone rfl
      omega
    | some found =>
      obtain ⟨fd, flags⟩ := found
      obtain ⟨q, rfl, hq⟩ := hsome fd flags rfl
      have hpositive : ¬ (q : Int) < 0 := by omega
      simp only [SelectSocketWaiter.found, hpositive, if_false, bind_eq_ok] at h
      obtain ⟨rest, hrest, -⟩ := h
      exact ih (hcount.found q) rfl hq hrest

end Drain

/-! ### One call -/

/-- The calls after which everything is right. An `update` is of a valid descriptor, or asks for no event
that the waiter knows, and does not mislead it about the maximum. In a `wait` the last descriptor is not
wanted, and descriptor 0 is not ready. -/
def Fine (world : WaiterWorld) : WaiterCall → Prop
  | .update fd events => (isValidFd fd = true ∨ events &&& (kEventRead ||| kEventWrite) = 0) ∧
      ¬ Misleads world.waiter world.requested fd events
  | .wait select => ¬ Wanted world.requested (FD_SETSIZE - 1 : Nat) ∧ readyEvents world.requested select 0 = 0
  | .reset | .hasFds => True

section Calls

variable {world : WaiterWorld} {waiter : SelectSocketWaiter} {requested : Int → UInt32} {fd : Int} {events : UInt32}

theorem waiterRight_iff (world : WaiterWorld) (hsets : SetsRight world.waiter world.requested)
    (hreported : world.reported = world.ready) : WaiterRight world ↔ MaxRight world.waiter world.requested :=
  ⟨fun h => (count_iff hsets).mp h.count, fun h => ⟨hsets, (count_iff hsets).mpr h, hreported⟩⟩

theorem WaiterRight.max (h : WaiterRight world) : MaxRight world.waiter world.requested :=
  (count_iff h.sets).mp h.count

/-- Events of no kind that the waiter knows are not the old ones, unless there are none. -/
theorem oldEventsOf_known (h : oldEventsOf waiter fd &&& (kEventRead ||| kEventWrite) = 0) :
    oldEventsOf waiter fd = 0 := by
  unfold oldEventsOf at h ⊢
  split
  · rename_i hvalid
    rw [if_pos hvalid] at h
    cases hread : waiter.mReads fd <;> cases hwrite : waiter.mWrites fd <;> rw [hread, hwrite] at h <;>
      revert h <;> decide
  · rfl

/-- The world after an update. -/
def WaiterWorld.updated (world : WaiterWorld) (fd : Int) (events : UInt32) (waiter : SelectSocketWaiter) :
    WaiterWorld :=
  { world with waiter, requested := Function.update world.requested fd events }

theorem step_update : world.step (.update fd events) = world.updated fd events <$> world.waiter.update fd events := by
  rw [WaiterWorld.step]
  cases world.waiter.update fd events <;> rfl

/-- An update that is carried out: all depends on the maximum. -/
theorem updated_right_iff (h : WaiterRight world) (hupdate : world.waiter.update fd events = .ok waiter)
    (hsets : SetsRight waiter (Function.update world.requested fd events)) :
    (∃ world', world.step (.update fd events) = .ok world' ∧ WaiterRight world') ↔
      MaxRight waiter (Function.update world.requested fd events) := by
  have hright : WaiterRight (world.updated fd events waiter) ↔
      MaxRight waiter (Function.update world.requested fd events) :=
    waiterRight_iff (world.updated fd events waiter) hsets h.reported
  have hstep : world.step (.update fd events) = .ok (world.updated fd events waiter) := by
    rw [step_update, hupdate]
    rfl
  rw [hstep, ← hright]
  constructor
  · rintro ⟨world', hok, hworld⟩
    exact Except.ok.inj hok ▸ hworld
  · intro hworld
    exact ⟨_, rfl, hworld⟩

/-- The events are the old ones. -/
theorem update_unchanged (h : WaiterRight world) (hsame : events = oldEventsOf world.waiter fd) :
    MaxRight world.waiter (Function.update world.requested fd events) ∧
      ¬ Misleads world.waiter world.requested fd events := by
  have hsets : SetsRight world.waiter (Function.update world.requested fd events) := h.sets.unchanged hsame
  refine ⟨fun hvalid => (h.max hvalid).of_sets h.sets hsets, ?_⟩
  intro hmisleads
  have hnone := hmisleads.2.1
  rw [hsame] at hnone
  exact hmisleads.1 (hsame.trans (oldEventsOf_known hnone))

/-- An update of a valid descriptor. -/
theorem update_valid_iff (h : WaiterRight world) (hvalid : isValidFd fd = true) :
    (∃ world', world.step (.update fd events) = .ok world' ∧ WaiterRight world') ↔
      ¬ Misleads world.waiter world.requested fd events := by
  by_cases hsame : events = oldEventsOf world.waiter fd
  · have hupdate : world.waiter.update fd events = .ok world.waiter := by
      rw [update_of_valid hvalid, if_pos hsame]
    obtain ⟨hmax, hmisleads⟩ := update_unchanged h hsame
    exact iff_of_true ((updated_right_iff h hupdate (h.sets.unchanged hsame)).mpr hmax) hmisleads
  · have hupdate : world.waiter.update fd events =
        .ok ((world.waiter.withEvents fd events).updateMax fd (oldEventsOf world.waiter fd) events) := by
      rw [update_of_valid hvalid, if_neg hsame]
    have hmax : MaxRight (world.waiter.withEvents fd events) world.requested := h.max
    exact (updated_right_iff h hupdate (h.sets.withEvents hvalid events).updateMax).trans
      (updateMax_right_iff hmax (h.sets.oldEvents_iff fd) hsame (.inl hvalid))

/-- An update of another descriptor, which asks for no event that the waiter knows. -/
theorem update_invalid_iff (h : WaiterRight world) (hvalid : isValidFd fd = false)
    (hflags : events &&& (kEventRead ||| kEventWrite) = 0) :
    (∃ world', world.step (.update fd events) = .ok world' ∧ WaiterRight world') ↔
      ¬ Misleads world.waiter world.requested fd events := by
  have hnone : oldEventsOf world.waiter fd = 0 := if_neg (by simp [hvalid])
  by_cases hzero : events = 0
  · have hupdate : world.waiter.update fd events = .ok world.waiter := by
      rw [update_of_invalid hvalid, if_pos hzero]
    have hsame : events = oldEventsOf world.waiter fd := hzero.trans hnone.symm
    obtain ⟨hmax, hmisleads⟩ := update_unchanged h hsame
    exact iff_of_true ((updated_right_iff h hupdate (h.sets.unchanged hsame)).mpr hmax) hmisleads
  · have hupdate : world.waiter.update fd events = .ok (world.waiter.updateMax fd 0 events) := by
      rw [update_of_invalid hvalid, if_neg hzero, if_neg (not_not_intro hflags)]
    have hold : (0 : UInt32) = 0 ↔ ¬ Wanted world.requested fd := hnone ▸ h.sets.oldEvents_iff fd
    exact (updated_right_iff h hupdate (h.sets.invalid hvalid).updateMax).trans
      (updateMax_right_iff h.max hold hzero (.inr hflags))

/-- **Updates**: the exact condition. -/
theorem update_right_iff (h : WaiterRight world) :
    (∃ world', world.step (.update fd events) = .ok world' ∧ WaiterRight world') ↔ Fine world (.update fd events) := by
  cases hvalid : isValidFd fd with
  | true =>
    rw [Fine, and_iff_right (.inl hvalid)]
    exact update_valid_iff h hvalid
  | false =>
    by_cases hflags : events &&& (kEventRead ||| kEventWrite) = 0
    · rw [Fine, and_iff_right (.inr hflags)]
      exact update_invalid_iff h hvalid hflags
    · -- the bit is set, wherever it is
      have hupdate : world.waiter.update fd events = .error .outOfBounds := by
        have hsome : events ≠ 0 := fun hzero => hflags (by rw [hzero]; rfl)
        rw [update_of_invalid hvalid, if_neg hsome, if_pos hflags]
      refine iff_of_false ?_ fun hfine => hfine.1.elim (fun h => by simp [hvalid] at h) hflags
      rintro ⟨world', hok, -⟩
      rw [step_update, hupdate] at hok
      cases hok

/-! ### Waiting -/

/-- The events that are ready are wanted. -/
theorem wanted_of_ready {select : Select} (hvalid : isValidFd fd = true) (h : readyEvents requested select fd ≠ 0) :
    Wanted requested fd := by
  refine ⟨hvalid, flags_iff.mpr ?_⟩
  by_contra hnone
  rw [not_or, not_not, not_not] at hnone
  exact h (by simp [readyEvents, hnone, flagsOf])

/-- The waiter after a `select`. -/
def SelectSocketWaiter.selected (waiter : SelectSocketWaiter) (maxFd : Int) (select : Select) : SelectSocketWaiter :=
  { waiter with
    mPendingFd := 0
    mMaxFd := maxFd
    mMaxFdValid := true
    mReadsResult := fun fd => waiter.mReads fd && select.reads fd
    mWritesResult := fun fd => waiter.mWrites fd && select.writes fd }

theorem selected_pending (h : SetsRight waiter requested) (maxFd : Int) (select : Select) :
    Pending (waiter.selected maxFd select) (readyEvents requested select) := by
  intro fd hvalid
  have hread : waiter.mReads fd = decide (requested fd &&& kEventRead ≠ 0) := by
    rw [Bool.eq_iff_iff, h.reads, decide_eq_true_eq, and_iff_right hvalid]
  have hwrite : waiter.mWrites fd = decide (requested fd &&& kEventWrite ≠ 0) := by
    rw [Bool.eq_iff_iff, h.writes, decide_eq_true_eq, and_iff_right hvalid]
  rw [eventsIn_of_valid hvalid, readyEvents, ← hread, ← hwrite]
  rfl

theorem wait_eq (h : SetsRight waiter requested) (hmax : MaxRight waiter requested) (select : Select) :
    ∃ maxFd, Largest requested maxFd ∧ waiter.wait select =
      .ok (if maxFd + 1 ≤ 0 then (0, { waiter with mMaxFd := maxFd, mMaxFdValid := true, mPendingFd := 0 })
        else (select.ret, waiter.selected maxFd select)) := by
  obtain ⟨maxFd, hcount, hiff⟩ := getFdCount_eq h
  refine ⟨maxFd, hiff.mpr hmax, ?_⟩
  rw [SelectSocketWaiter.wait, hcount, ok_bind]
  by_cases hnone : maxFd + 1 ≤ 0
  · simp only [hnone, if_true]
    rfl
  · simp only [hnone, if_false]
    rfl

theorem drain_nothing (hcount : Counted waiter 0) (hcursor : waiter.mPendingFd = (0 : Nat)) (fuel : Nat) :
    SelectSocketWaiter.drain (fuel + 1) waiter = .ok ([], waiter) := by
  rw [SelectSocketWaiter.drain, nextPendingFd_eq hcount hcursor]
  rfl

/-- The world after a wait. -/
def WaiterWorld.waited (world : WaiterWorld) (select : Select) (drained : List (Int × UInt32) × SelectSocketWaiter) :
    WaiterWorld :=
  { world with
    waiter := drained.2
    ready := listed (readyEvents world.requested select) 0 FD_SETSIZE
    reported := drained.1 }

theorem step_wait {select : Select} {ret : Int} (hwait : world.waiter.wait select = .ok (ret, waiter)) :
    world.step (.wait select) = world.waited select <$> SelectSocketWaiter.drain (FD_SETSIZE + 1) waiter := by
  rw [WaiterWorld.step, hwait, ok_bind]
  simp only
  cases SelectSocketWaiter.drain (FD_SETSIZE + 1) waiter <;> rfl

theorem waited_right_iff {select : Select} {drained : List (Int × UInt32) × SelectSocketWaiter}
    (hsets : SetsRight drained.2 world.requested) (hmax : MaxRight drained.2 world.requested) :
    WaiterRight (world.waited select drained) ↔
      drained.1 = listed (readyEvents world.requested select) 0 FD_SETSIZE := by
  constructor
  · exact WaiterRight.reported
  · intro hreported
    exact (waiterRight_iff (world.waited select drained) hsets hreported).mpr hmax

/-- What is ready is descriptor 0, and what is pending up to the maximum. -/
theorem ready_eq {select : Select} {maxFd : Nat} (hlargest : Largest requested maxFd)
    (hroom : maxFd + 1 < FD_SETSIZE) :
    listed (readyEvents requested select) 0 FD_SETSIZE =
      if readyEvents requested select 0 ≠ 0 then
        (0, readyEvents requested select 0) :: listed (readyEvents requested select) 1 (maxFd + 1)
      else listed (readyEvents requested select) 1 (maxFd + 1) := by
  have habove : listed (readyEvents requested select) (1 + (maxFd + 1)) (FD_SETSIZE - 1 - (maxFd + 1)) = [] := by
    refine listed_eq_nil fun fd hfirst hlast => ?_
    by_contra hready
    have hvalid : isValidFd fd = true := isValidFd_natCast.mpr (by omega)
    have hbound := hlargest.bound fd (wanted_of_ready hvalid hready)
    omega
  have hsplit : listed (readyEvents requested select) 1 (FD_SETSIZE - 1) =
      listed (readyEvents requested select) 1 (maxFd + 1) := by
    have hcount : FD_SETSIZE - 1 = maxFd + 1 + (FD_SETSIZE - 1 - (maxFd + 1)) := by omega
    rw [hcount, listed_add, habove, List.append_nil]
  rw [← hsplit]
  exact listed_succ 0 (FD_SETSIZE - 1)

/-- Nothing is wanted: nothing is ready, and nothing is reported. -/
theorem wait_nothing {select : Select} {ret : Int} (h : WaiterRight world) (hlargest : Largest world.requested (-1))
    (hwait : world.waiter.wait select =
      .ok (ret, { world.waiter with mMaxFd := -1, mMaxFdValid := true, mPendingFd := 0 })) :
    (∃ world', world.step (.wait select) = .ok world' ∧ WaiterRight world') ↔ Fine world (.wait select) := by
  have hnobody (fd : Int) : ¬ Wanted world.requested fd := fun hwanted => by
    have hbound := hlargest.bound fd hwanted
    have hnonneg := wanted_nonneg hwanted
    omega
  have hnothing (fd : Int) (hvalid : isValidFd fd = true) : readyEvents world.requested select fd = 0 :=
    Decidable.not_not.mp fun hready => hnobody fd (wanted_of_ready hvalid hready)
  have hready : listed (readyEvents world.requested select) 0 FD_SETSIZE = [] :=
    listed_eq_nil fun fd _ hfd => hnothing fd (isValidFd_natCast.mpr (by omega))
  have hcount : Counted { world.waiter with mMaxFd := -1, mMaxFdValid := true, mPendingFd := 0 } 0 := ⟨rfl, rfl⟩
  have hsets : SetsRight { world.waiter with mMaxFd := -1, mMaxFdValid := true, mPendingFd := 0 } world.requested :=
    ⟨h.sets.reads, h.sets.writes⟩
  rw [step_wait hwait, drain_nothing hcount rfl]
  exact iff_of_true ⟨_, rfl, (waited_right_iff hsets fun _ => hlargest).mpr hready.symm⟩ ⟨hnobody _, hnothing 0 rfl⟩

/-- The enumeration gets to its end, and starts behind descriptor 0. -/
theorem wait_within {select : Select} {ret : Int} {top : Nat} (h : WaiterRight world)
    (hlargest : Largest world.requested top) (hroom : top + 1 < FD_SETSIZE)
    (hwait : world.waiter.wait select = .ok (ret, world.waiter.selected top select)) :
    (∃ world', world.step (.wait select) = .ok world' ∧ WaiterRight world') ↔ Fine world (.wait select) := by
  have hcount : Counted (world.waiter.selected top select) (top + 1) := ⟨rfl, rfl⟩
  have hcursor : (world.waiter.selected top select).mPendingFd = (0 : Nat) := rfl
  obtain ⟨last, hdrain⟩ := drain_spec (selected_pending h.sets top select) (FD_SETSIZE + 1) hcount hcursor hroom
    (Nat.zero_le _) (by omega)
  have hbelow : ¬ Wanted world.requested (FD_SETSIZE - 1 : Nat) := fun hwanted => by
    have hbound := hlargest.bound _ hwanted
    omega
  have hsets : SetsRight { world.waiter.selected top select with mPendingFd := last } world.requested :=
    ⟨h.sets.reads, h.sets.writes⟩
  have hright : WaiterRight (world.waited select (listed (readyEvents world.requested select) 1 (top + 1),
        { world.waiter.selected top select with mPendingFd := last })) ↔ _ :=
    waited_right_iff hsets fun _ => hlargest
  rw [ready_eq hlargest hroom] at hright
  rw [step_wait hwait, hdrain]
  constructor
  · rintro ⟨world', hok, hworld⟩
    obtain rfl := Except.ok.inj hok
    refine ⟨hbelow, ?_⟩
    by_contra hzero
    have hlengths := congrArg List.length (hright.mp hworld)
    simp [hzero] at hlengths
  · rintro ⟨-, hzero⟩
    exact ⟨_, rfl, hright.mpr (if_neg (not_not_intro hzero)).symm⟩

/-- The bit behind the last one is tested. -/
theorem wait_beyond {select : Select} {ret : Int} {top : Nat} (hlargest : Largest world.requested top)
    (hroom : ¬ top + 1 < FD_SETSIZE)
    (hwait : world.waiter.wait select = .ok (ret, world.waiter.selected top select)) :
    (∃ world', world.step (.wait select) = .ok world' ∧ WaiterRight world') ↔ Fine world (.wait select) := by
  have hcount : Counted (world.waiter.selected top select) (top + 1) := ⟨rfl, rfl⟩
  have hcursor : (world.waiter.selected top select).mPendingFd = (0 : Nat) := rfl
  have hwanted : Wanted world.requested top := hlargest.attained.resolve_left (by omega)
  have hvalid := wanted_nonneg hwanted
  refine iff_of_false ?_ fun hfine => hfine.1 ?_
  · rintro ⟨world', hok, -⟩
    rw [step_wait hwait] at hok
    obtain ⟨drained, hdrain, -⟩ := map_eq_ok.mp hok
    exact hroom (drain_bound hcount hcursor (by decide) hdrain)
  · obtain rfl : top = FD_SETSIZE - 1 := by omega
    exact hwanted

/-- **Waiting**: the exact condition. -/
theorem wait_right_iff {select : Select} (h : WaiterRight world) :
    (∃ world', world.step (.wait select) = .ok world' ∧ WaiterRight world') ↔ Fine world (.wait select) := by
  obtain ⟨maxFd, hlargest, hwait⟩ := wait_eq h.sets h.max select
  split at hwait
  · rename_i hnone
    have hlow : maxFd = -1 := hlargest.attained.resolve_right fun hwanted => by
      have hnonneg := wanted_nonneg hwanted
      omega
    rw [hlow] at hlargest hwait
    exact wait_nothing h hlargest hwait
  · obtain ⟨top, rfl⟩ := Int.eq_ofNat_of_zero_le (show 0 ≤ maxFd by omega)
    by_cases hroom : top + 1 < FD_SETSIZE
    · exact wait_within h hlargest hroom hwait
    · exact wait_beyond hlargest hroom hwait

theorem hasFds_right (h : WaiterRight world) :
    ∃ world', world.step .hasFds = .ok world' ∧ WaiterRight world' := by
  obtain ⟨maxFd, hcount, hiff⟩ := getFdCount_eq h.sets
  have hsets : SetsRight { world.waiter with mMaxFd := maxFd, mMaxFdValid := true } world.requested :=
    ⟨h.sets.reads, h.sets.writes⟩
  have hright := (waiterRight_iff
    { world with waiter := { world.waiter with mMaxFd := maxFd, mMaxFdValid := true } } hsets h.reported).mpr
    fun _ => hiff.mpr h.max
  refine ⟨_, ?_, hright⟩
  rw [WaiterWorld.step, hcount]
  rfl

theorem initial_right : WaiterRight .initial := by
  have hnobody : Largest (fun _ => 0) (-1) := ⟨fun fd hwanted => by simp [Wanted] at hwanted, .inl rfl⟩
  refine (waiterRight_iff _ ⟨fun fd => ?_, fun fd => ?_⟩ rfl).mpr fun _ => hnobody
  · simp [WaiterWorld.initial, SelectSocketWaiter.reset]
  · simp [WaiterWorld.initial, SelectSocketWaiter.reset]

end Calls

/-! ### Every sequence of calls -/

theorem step_right_iff {world : WaiterWorld} (h : WaiterRight world) (call : WaiterCall) :
    (∃ world', world.step call = .ok world' ∧ WaiterRight world') ↔ Fine world call := by
  cases call with
  | reset => exact iff_of_true ⟨_, rfl, initial_right⟩ trivial
  | update fd events => exact update_right_iff h
  | hasFds => exact iff_of_true (hasFds_right h) trivial
  | wait select => exact wait_right_iff h

/-- **The waiter is right exactly if every call is fine**: after each call of a sequence, without a fault. -/
theorem waiter_right_iff (calls : List WaiterCall) :
    (∀ pre, pre <+: calls → ∃ world, WaiterWorld.run pre = .ok world ∧ WaiterRight world) ↔
      Along WaiterWorld.step Fine .initial calls := by
  refine (forall_prefix_iff_along initial_right).trans ?_
  refine along_iff_along (I := WaiterRight) (fun world call h => step_right_iff h call) ?_ initial_right
  intro world call world' h hfine hstep
  obtain ⟨next, hnext, hright⟩ := (step_right_iff h call).mpr hfine
  obtain rfl := Except.ok.inj (hnext.symm.trans hstep)
  exact hright

/-- Descriptor 0 has something to read. -/
def stdinReady : Select := ⟨fun fd => fd = 0, fun _ => false, 1⟩

theorem first_listed {events : Int → UInt32} {flags : UInt32} (h : events (0 : Nat) = flags) (hflags : flags ≠ 0) :
    (0, flags) ∈ listed events 0 FD_SETSIZE := by
  have hfirst : listed events 0 FD_SETSIZE = _ := listed_succ 0 (FD_SETSIZE - 1)
  rw [h, if_pos hflags] at hfirst
  rw [hfirst]
  exact List.mem_cons_self

theorem WaiterRight.not_ready {world : WaiterWorld} (h : WaiterRight world) (hnone : world.reported = [])
    (pending : Int × UInt32) : pending ∉ world.ready := by
  rw [← h.reported, hnone]
  exact List.not_mem_nil

/-- It is ready, and is not reported. -/
theorem stdin_missed : ∃ world, WaiterWorld.run [.update 0 kEventRead, .wait stdinReady] = .ok world ∧
    (0, kEventRead) ∈ world.ready ∧ world.reported = [] ∧ ¬ WaiterRight world := by
  have hready : (0, kEventRead) ∈
      listed (readyEvents (Function.update (fun _ => 0) 0 kEventRead) stdinReady) 0 FD_SETSIZE :=
    first_listed rfl (by decide)
  exact ⟨_, rfl, hready, rfl, fun hright => hright.not_ready rfl _ hready⟩

-- a descriptor that is out of range is not refused
example : WaiterWorld.run [.update 1024 kEventRead] = .error .outOfBounds := rfl

end Goldfish.Sockets
