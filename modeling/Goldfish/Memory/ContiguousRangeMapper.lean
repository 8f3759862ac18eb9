import Goldfish.Lib.Runs
import Mathlib.Algebra.BigOperators.Group.List.Basic
import Mathlib.Algebra.GroupWithZero.Nat

/-!
# Goldfish.Memory.ContiguousRangeMapper

Merging ranges of addresses before they are mapped (`ContiguousRangeMapper.cpp`), for
`uintptr_t` of any width.

What is pending is a run of additions (`Pending`): the next one joins it if it begins where
the run ends and the batch is not full. So the mapped ranges are the runs of what was
added (`map_finish`), and they have the same bytes (`ranges_merged`).
-/

namespace Goldfish.Memory

open Goldfish.Lib

variable {w : Nat}

/-- A start and a size, as they are added and mapped. -/
structure AddressRange (w : Nat) where
  start : BitVec w
  size : BitVec w
  deriving DecidableEq, Repr

/-- `ContiguousRangeMapper`, with addresses of `w` bits. -/
structure ContiguousRangeMapper (w : Nat) where
  mBatchSize : BitVec w
  mHasRange : Bool
  mStart : BitVec w
  mEnd : BitVec w
  deriving DecidableEq, Repr

namespace ContiguousRangeMapper

/-- The mapper, and the call of `mMapFunc` if there is one. -/
def finish (m : ContiguousRangeMapper w) : ContiguousRangeMapper w × List (AddressRange w) :=
  if m.mHasRange then ({ m with mHasRange := false, mStart := 0, mEnd := 0 }, [⟨m.mStart, m.mEnd - m.mStart⟩])
  else (m, [])

/-- The range that waits becomes longer, or a new one begins. -/
def extend (m : ContiguousRangeMapper w) (start size : BitVec w) : ContiguousRangeMapper w :=
  if m.mHasRange then { m with mEnd := start + size }
  else { m with mHasRange := true, mStart := start, mEnd := start + size }

/-- `add`: what does not go on with the range ends it. -/
def add (m : ContiguousRangeMapper w) (start size : BitVec w) :
    ContiguousRangeMapper w × List (AddressRange w) :=
  let flushed :=
    if m.mHasRange ∧ (m.mEnd ≠ start ∨ (m.mBatchSize ≠ 0 ∧ m.mEnd - m.mStart ≥ m.mBatchSize)) then m.finish
    else (m, [])
  (flushed.1.extend start size, flushed.2)

/-- Calls of `add` one after another. -/
def addAll (m : ContiguousRangeMapper w) : List (AddressRange w) → ContiguousRangeMapper w × List (AddressRange w)
  | [] => (m, [])
  | r :: rs =>
    let added := m.add r.start r.size
    let rest := added.1.addAll rs
    (rest.1, added.2 ++ rest.2)

/-- All the ranges are added, and the last of them flushed. -/
def mapAll (m : ContiguousRangeMapper w) (rs : List (AddressRange w)) :
    ContiguousRangeMapper w × List (AddressRange w) :=
  let added := m.addAll rs
  let finished := added.1.finish
  (finished.1, added.2 ++ finished.2)

end ContiguousRangeMapper

/-! ### Runs of ranges -/

/-- The addresses of the bytes, in order. -/
def AddressRange.bytes (r : AddressRange w) : List Nat := List.range' r.start.toNat r.size.toNat

/-- The end does not go beyond the addresses. -/
def AddressRange.NoOverflow (r : AddressRange w) : Prop := r.start.toNat + r.size.toNat < 2 ^ w

/-- Where the last of the ranges ends. -/
def endOf (run : List (AddressRange w)) : Option Nat := run.getLast?.map fun r => r.start.toNat + r.size.toNat

/-- The bytes of some ranges. -/
def totalSize (run : List (AddressRange w)) : Nat := (run.map fun r => r.size.toNat).sum

/-- The next range begins where the run ends, and the run has not reached the batch size. -/
def joins (batchSize : Nat) (run : List (AddressRange w)) (r : AddressRange w) : Bool :=
  endOf run == some r.start.toNat && (batchSize == 0 || totalSize run < batchSize)

/-- One range for all of a run. -/
def merged (run : List (AddressRange w)) : AddressRange w :=
  ⟨(run.head?.map AddressRange.start).getD 0, BitVec.ofNat w (totalSize run)⟩

theorem endOf_concat (run : List (AddressRange w)) (r : AddressRange w) :
    endOf (run ++ [r]) = some (r.start.toNat + r.size.toNat) := by
  rw [endOf, List.getLast?_concat, Option.map_some]

theorem totalSize_concat (run : List (AddressRange w)) (r : AddressRange w) :
    totalSize (run ++ [r]) = totalSize run + r.size.toNat := by
  rw [totalSize, List.map_append, List.sum_append, List.map_singleton, List.sum_singleton, totalSize]

theorem joins_iff {batchSize : Nat} {run : List (AddressRange w)} {r : AddressRange w} :
    joins batchSize run r = true ↔ endOf run = some r.start.toNat ∧ (batchSize = 0 ∨ totalSize run < batchSize) := by
  rw [joins, Bool.and_eq_true, Bool.or_eq_true, beq_iff_eq, beq_iff_eq, decide_eq_true_eq]

/-- Ranges that are next to each other have the bytes of one range. -/
theorem bytes_of_isRun {batchSize : Nat} {run : List (AddressRange w)} (h : IsRun (joins batchSize) run) :
    ∃ first, run.head? = some first ∧ endOf run = some (first.start.toNat + totalSize run) ∧
      run.flatMap AddressRange.bytes = List.range' first.start.toNat (totalSize run) := by
  induction h with
  | single r => exact ⟨r, rfl, by simp [endOf, totalSize], by simp [AddressRange.bytes, totalSize]⟩
  | @concat run r h hr ih =>
    obtain ⟨first, hfirst, hend, hbytes⟩ := ih
    have hnext : first.start.toNat + totalSize run = r.start.toNat :=
      Option.some.inj (hend.symm.trans (joins_iff.mp hr).1)
    refine ⟨first, ?_, ?_, ?_⟩
    · rw [List.head?_append, hfirst, Option.some_or]
    · rw [endOf_concat, totalSize_concat, ← hnext, Nat.add_assoc]
    · rw [List.flatMap_append, List.flatMap_singleton, hbytes, AddressRange.bytes, ← hnext, totalSize_concat,
        List.range'_append_1]

/-- **The merged range has the bytes of the run.** -/
theorem bytes_merged {batchSize : Nat} {run : List (AddressRange w)} (h : IsRun (joins batchSize) run)
    (hfits : ∀ r ∈ run, r.NoOverflow) : (merged run).bytes = run.flatMap AddressRange.bytes := by
  obtain ⟨first, hfirst, hend, hbytes⟩ := bytes_of_isRun h
  obtain ⟨last, hlast, hlastend⟩ := Option.map_eq_some_iff.mp hend
  have hlt : totalSize run < 2 ^ w := by
    have hle := hfits last (List.mem_of_getLast? hlast)
    rw [AddressRange.NoOverflow, hlastend] at hle
    omega
  rw [hbytes, AddressRange.bytes, merged, hfirst, BitVec.toNat_ofNat, Nat.mod_eq_of_lt hlt]
  rfl

/-! ### The mapper -/

namespace ContiguousRangeMapper

/-- The range that waits is the run. -/
structure Pending (m : ContiguousRangeMapper w) (run : List (AddressRange w)) : Prop where
  hasRange : m.mHasRange = true
  starts : run.head?.map AddressRange.start = some m.mStart
  ends : endOf run = some m.mEnd.toNat
  size : m.mStart.toNat + totalSize run = m.mEnd.toNat

section Step

variable {m : ContiguousRangeMapper w} {run : List (AddressRange w)} {r : AddressRange w}

theorem Pending.length (h : m.Pending run) : (m.mEnd - m.mStart).toNat = totalSize run := by
  have hsize := h.size
  rw [BitVec.toNat_sub_of_le (BitVec.le_def.mpr (by omega))]
  omega

theorem Pending.finish (h : m.Pending run) :
    m.finish = ({ m with mHasRange := false, mStart := 0, mEnd := 0 }, [merged run]) := by
  have hmerged : merged run = ⟨m.mStart, m.mEnd - m.mStart⟩ := by
    rw [merged, h.starts, ← h.length, BitVec.ofNat_toNat, BitVec.setWidth_eq]
    rfl
  rw [ContiguousRangeMapper.finish, if_pos h.hasRange, hmerged]

theorem finish_idle (h : m.mHasRange = false) : m.finish = (m, []) := by
  rw [ContiguousRangeMapper.finish, if_neg (by rw [h]; decide)]

/-- What `add` tests is whether the range joins the run. -/
theorem Pending.flushes_iff (h : m.Pending run) :
    (m.mHasRange ∧ (m.mEnd ≠ r.start ∨ (m.mBatchSize ≠ 0 ∧ m.mEnd - m.mStart ≥ m.mBatchSize))) ↔
      ¬ joins m.mBatchSize.toNat run r = true := by
  have hrange := h.hasRange
  have hend : m.mEnd ≠ r.start ↔ m.mEnd.toNat ≠ r.start.toNat := BitVec.toNat_ne_iff_ne.symm
  have hbatch : m.mBatchSize ≠ 0 ↔ m.mBatchSize.toNat ≠ 0 := BitVec.toNat_ne_iff_ne.symm
  rw [joins_iff, h.ends, ge_iff_le, BitVec.le_def, h.length, Option.some_inj, hend, hbatch]
  simp only [hrange, true_and]
  omega

/-- A range that joins the run is mapped with it. -/
theorem Pending.add_joins (h : m.Pending run) (hjoins : joins m.mBatchSize.toNat run r = true)
    (hfits : r.NoOverflow) :
    m.add r.start r.size = ({ m with mEnd := r.start + r.size }, []) ∧
      Pending { m with mEnd := r.start + r.size } (run ++ [r]) := by
  constructor
  · rw [add, if_neg (fun hflush => h.flushes_iff.mp hflush hjoins), extend, if_pos h.hasRange]
  · have hend : (r.start + r.size).toNat = r.start.toNat + r.size.toNat := by
      rw [BitVec.toNat_add, Nat.mod_eq_of_lt hfits]
    have hnext : m.mEnd.toNat = r.start.toNat := Option.some.inj (h.ends.symm.trans (joins_iff.mp hjoins).1)
    obtain ⟨first, hfirst, -⟩ := Option.map_eq_some_iff.mp h.starts
    refine ⟨h.hasRange, ?_, ?_, ?_⟩
    · rw [List.head?_append, hfirst, Option.some_or, ← hfirst, h.starts]
    · rw [endOf_concat, hend]
    · rw [totalSize_concat, hend, ← Nat.add_assoc, h.size, hnext]

/-- The first range of a run. -/
theorem pending_single (hfits : r.NoOverflow) (batchSize : BitVec w) :
    Pending ⟨batchSize, true, r.start, r.start + r.size⟩ [r] := by
  have hend : (r.start + r.size).toNat = r.start.toNat + r.size.toNat := by
    rw [BitVec.toNat_add, Nat.mod_eq_of_lt hfits]
  exact ⟨rfl, rfl, congrArg some hend.symm, by rw [hend]; rfl⟩

theorem Pending.add_left (h : m.Pending run) (hjoins : joins m.mBatchSize.toNat run r = false) :
    m.add r.start r.size = (⟨m.mBatchSize, true, r.start, r.start + r.size⟩, [merged run]) := by
  rw [add, if_pos (h.flushes_iff.mpr (Bool.eq_false_iff.mp hjoins)), h.finish]
  rfl

theorem add_idle (h : m.mHasRange = false) :
    m.add r.start r.size = (⟨m.mBatchSize, true, r.start, r.start + r.size⟩, []) := by
  rw [add, if_neg (fun hflush => Bool.eq_false_iff.mp h hflush.1), extend, if_neg (Bool.eq_false_iff.mp h)]

end Step

/-! ### Runs -/

variable {m : ContiguousRangeMapper w} {rs : List (AddressRange w)}

theorem mapAll_nil : m.mapAll [] = m.finish := rfl

theorem mapAll_cons (r : AddressRange w) :
    m.mapAll (r :: rs) = (((m.add r.start r.size).1.mapAll rs).1,
      (m.add r.start r.size).2 ++ ((m.add r.start r.size).1.mapAll rs).2) := by
  rw [mapAll, addAll, mapAll, List.append_assoc]

theorem Pending.mapAll {run : List (AddressRange w)} (h : m.Pending run) (hfits : ∀ r ∈ rs, r.NoOverflow) :
    (m.mapAll rs).2 = (runsFrom (joins m.mBatchSize.toNat) run rs).map merged ∧
      (m.mapAll rs).1.mHasRange = false := by
  induction rs generalizing m run with
  | nil =>
    rw [mapAll_nil, h.finish]
    exact ⟨rfl, rfl⟩
  | cons r rs ih =>
    obtain ⟨hr, hrs⟩ := List.forall_mem_cons.mp hfits
    rw [mapAll_cons, runsFrom]
    cases hjoins : joins m.mBatchSize.toNat run r with
    | true =>
      obtain ⟨hadd, hpending⟩ := h.add_joins hjoins hr
      rw [hadd]
      exact ih hpending hrs
    | false =>
      obtain ⟨hmap, hidle⟩ := ih (pending_single hr m.mBatchSize) hrs
      rw [h.add_left hjoins]
      exact ⟨congrArg (merged run :: ·) hmap, hidle⟩

/-- **What is mapped** are the runs of what was added, and nothing is left to map. -/
theorem map_finish (hidle : m.mHasRange = false) (hfits : ∀ r ∈ rs, r.NoOverflow) :
    (m.mapAll rs).2 = (runs (joins m.mBatchSize.toNat) rs).map merged ∧ (m.mapAll rs).1.finish.2 = [] := by
  cases rs with
  | nil =>
    rw [mapAll_nil, finish_idle hidle, finish_idle hidle]
    exact ⟨rfl, rfl⟩
  | cons r rs =>
    obtain ⟨hr, hrs⟩ := List.forall_mem_cons.mp hfits
    obtain ⟨hmap, hdone⟩ := (pending_single hr m.mBatchSize).mapAll hrs
    rw [mapAll_cons, add_idle hidle]
    exact ⟨hmap, by rw [finish_idle hdone]⟩

/-- **Nothing is lost or repeated.** Ranges that do not go beyond the addresses are mapped with the same bytes
in the same order. A mapped range is a run of additions, each of which begins where the one before it ends and
comes before the batch is full; and a run ends where the next addition does neither. Another `finish` maps
nothing. -/
theorem ranges_merged (m : ContiguousRangeMapper w) (hidle : m.mHasRange = false) (rs : List (AddressRange w))
    (hfits : ∀ r ∈ rs, r.NoOverflow) :
    (m.mapAll rs).2.flatMap AddressRange.bytes = rs.flatMap AddressRange.bytes ∧
      (∃ groups : List (List (AddressRange w)), groups.flatten = rs ∧ (m.mapAll rs).2 = groups.map merged ∧
        (∀ g ∈ groups, IsRun (joins m.mBatchSize.toNat) g) ∧
          groups.IsChain (Left (joins m.mBatchSize.toNat))) ∧
        (m.mapAll rs).1.finish.2 = [] := by
  obtain ⟨hmap, hagain⟩ := map_finish hidle hfits
  have hflat := flatten_runs (joins m.mBatchSize.toNat) rs
  refine ⟨?_, ⟨_, hflat, hmap, isRun_of_mem_runs, isChain_runs rs⟩, hagain⟩
  rw [hmap, List.flatMap_map]
  have hbytes : ∀ g ∈ runs (joins m.mBatchSize.toNat) rs, (merged g).bytes = g.flatMap AddressRange.bytes := by
    intro g hg
    refine bytes_merged (isRun_of_mem_runs g hg) fun r hr => hfits r ?_
    rw [← hflat]
    exact List.mem_flatten_of_mem hg hr
  calc (runs (joins m.mBatchSize.toNat) rs).flatMap (fun g => (merged g).bytes)
      = (runs (joins m.mBatchSize.toNat) rs).flatMap (List.flatMap AddressRange.bytes) := List.flatMap_congr hbytes
    _ = (runs (joins m.mBatchSize.toNat) rs).flatten.flatMap AddressRange.bytes := by
      rw [← List.flatMap_id, List.flatMap_assoc]
      rfl
    _ = rs.flatMap AddressRange.bytes := by rw [hflat]

/-- Pages in batches of two. -/
def pages : List (AddressRange 64) :=
  [⟨0x1000, 0x1000⟩, ⟨0x2000, 0x1000⟩, ⟨0x3000, 0x1000⟩, ⟨0x5000, 0x1000⟩, ⟨0x6000, 0x1000⟩, ⟨0x7000, 0x1000⟩,
    ⟨0xa000, 0x1000⟩]

theorem pages_merged : (∀ r ∈ pages, r.NoOverflow) ∧
    (mapAll ⟨0x2000, false, 0, 0⟩ pages).2 =
      [⟨0x1000, 0x2000⟩, ⟨0x3000, 0x1000⟩, ⟨0x5000, 0x2000⟩, ⟨0x7000, 0x1000⟩, ⟨0xa000, 0x1000⟩] ∧
    (mapAll ⟨0x2000, false, 0, 0⟩ pages).2.flatMap AddressRange.bytes = pages.flatMap AddressRange.bytes := by
  have hfits : ∀ r ∈ pages, r.NoOverflow := by
    unfold AddressRange.NoOverflow
    decide
  exact ⟨hfits, by decide, (ranges_merged _ rfl pages hfits).1⟩

end ContiguousRangeMapper

end Goldfish.Memory
