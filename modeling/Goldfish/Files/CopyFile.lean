import Goldfish.Files.IniFile
import Goldfish.Lib.Loops

/-!
# Goldfish.Files.CopyFile

**Copying a file** (`path.cpp`, on Linux). `FileCopy` has the bytes of the source and what
the system calls of the copy answer: how much each `read` and each `write` takes, and
which of them fail.

`path_copy_file_impl` leaves its loop when a write takes less than the chunk, and returns
0 all the same. When a read fails, `write` is called with `(size_t)-1`, fails as well, and
the loop goes on. So a copy that returns 0 is faithful exactly if no write is cut short
(`path_copy_file_impl_iff`).
-/

namespace Goldfish.Files

open Goldfish.Lib

/-- What `path_is_same` finds. -/
inductive Sameness where
  | fails
  | same
  | different
  deriving DecidableEq, Repr

/-- The two files, and what the system calls do to them. -/
structure FileCopy where
  /-- The bytes of the source. -/
  content : Text
  path_is_same : Sameness
  /-- `access` with `R_OK` and with `F_OK`. -/
  readable : Bool
  existing : Bool
  /-- `creat` of the destination and `open` of the source. -/
  creates : Bool
  opens : Bool
  /-- The calls of `read` and `write`: an error, or how many bytes it is willing to take. -/
  reads : Nat → Option Nat
  writes : Nat → Option Nat

/-- What a function returns, and the destination if it was touched. -/
structure Copied where
  status : Int
  dest : Option Text
  deriving DecidableEq, Repr

namespace FileCopy

/-! ### The loop -/

/-- A call of `read`: nothing only at the end of the file. -/
def read (f : FileCopy) (BufferSize pos call : Nat) : Option Nat :=
  (f.reads call).map fun k => min (max 1 k) (min BufferSize (f.content.length - pos))

/-- The variables of the loop. -/
structure Copying where
  pos : Nat
  calls : Nat
  dest : Text

/-- The body of the loop. Both ways out of it leave `result` at 0. -/
def round (f : FileCopy) (BufferSize : Nat) (s : Copying) : Text ⊕ Copying :=
  match f.read BufferSize s.pos s.calls with
  | none => .inr { s with calls := s.calls + 1 }
  | some 0 => .inl s.dest
  | some n =>
    let buf := (f.content.drop s.pos).take n
    match f.writes s.calls with
    | none => .inl s.dest
    | some k =>
      if min k n ≠ n then .inl (s.dest ++ buf.take (min k n))
      else .inr ⟨s.pos + n, s.calls + 1, s.dest ++ buf⟩

/-- `path_copy_file_impl`, with the size of its buffer. -/
def path_copy_file_impl (BufferSize : Nat) (f : FileCopy) (fuel : Nat) : Option Copied :=
  if f.opens = true ∧ f.creates = true then
    (iterate (f.round BufferSize) ⟨0, 0, []⟩ fuel).map fun dest => ⟨0, some dest⟩
  else some ⟨-1, if f.creates then some [] else none⟩

/-- What the functions do first. -/
def unlessSame (f : FileCopy) (copy : Option Copied) : Option Copied :=
  match f.path_is_same with
  | .fails => some ⟨-1, none⟩
  | .same => some ⟨0, some f.content⟩
  | .different => copy

/-- `path_copy_file`: a source that cannot be read leaves an empty destination. -/
def path_copy_file (f : FileCopy) (fuel : Nat) : Option Copied :=
  f.unlessSame
    (if f.readable = false then
      -- `path_empty_file`
      some ⟨-1, if f.existing = true ∧ f.creates = true then some [] else none⟩
    else path_copy_file_impl 65536 f fuel)

/-- `path_copy_file_safe`. -/
def path_copy_file_safe (f : FileCopy) (fuel : Nat) : Option Copied :=
  f.unlessSame (path_copy_file_impl 1024 f fuel)

/-! ### When a copy is faithful -/

/-- How far the source has been read before a call, if nothing was cut short. -/
def position (f : FileCopy) (BufferSize : Nat) : Nat → Nat
  | 0 => 0
  | call + 1 => f.position BufferSize call + (f.read BufferSize (f.position BufferSize call) call).getD 0

/-- A write takes less than has been read. -/
def CutShort (f : FileCopy) (BufferSize call : Nat) : Prop :=
  ∃ n, f.read BufferSize (f.position BufferSize call) call = some n ∧ (f.writes call).getD 0 < n

/-- No write is cut short. -/
def Undisturbed (f : FileCopy) (BufferSize : Nat) : Prop := ∀ call, ¬ f.CutShort BufferSize call

/-- The end of the file is read, or a write is cut short. -/
def Ends (f : FileCopy) (BufferSize : Nat) : Prop :=
  ∃ call, f.CutShort BufferSize call ∨
    f.position BufferSize call = f.content.length ∧ f.reads call ≠ none

section Loop

variable {f : FileCopy} {BufferSize pos call n i j : Nat} {s : Copying} {dest : Text}

theorem read_le (h : f.read BufferSize pos call = some n) : n ≤ f.content.length - pos := by
  obtain ⟨k, -, rfl⟩ := Option.map_eq_some_iff.mp h
  omega

/-- `read` returns 0 at the end of the file only. -/
theorem read_eq_zero (hB : 0 < BufferSize) (h : f.read BufferSize pos call = some 0) :
    f.content.length ≤ pos ∧ f.reads call ≠ none := by
  obtain ⟨k, hk, hzero⟩ := Option.map_eq_some_iff.mp h
  exact ⟨by omega, by simp [hk]⟩

theorem position_le (f : FileCopy) (BufferSize i : Nat) : f.position BufferSize i ≤ f.content.length := by
  induction i with
  | zero => exact Nat.zero_le _
  | succ i ih =>
    rw [position]
    cases hread : f.read BufferSize (f.position BufferSize i) i with
    | none => exact ih
    | some n =>
      have hn := read_le hread
      rw [Option.getD_some]
      omega

theorem position_mono (f : FileCopy) (BufferSize : Nat) (h : i ≤ j) :
    f.position BufferSize i ≤ f.position BufferSize j := by
  induction h with
  | refl => exact Nat.le_refl _
  | step _ ih => exact ih.trans (Nat.le_add_right _ _)

/-- At the end of the file nothing more is read. -/
theorem not_cutShort_of_end (h : f.position BufferSize i = f.content.length) (hij : i ≤ j) :
    ¬ f.CutShort BufferSize j := by
  rintro ⟨n, hread, hless⟩
  have hmono := position_mono f BufferSize hij
  have hn := read_le hread
  omega

/-- What the loop has done when no write was cut short. -/
structure Good (f : FileCopy) (BufferSize : Nat) (s : Copying) : Prop where
  pos : s.pos = f.position BufferSize s.calls
  dest : s.dest = f.content.take s.pos
  undisturbed : ∀ i, i < s.calls → ¬ f.CutShort BufferSize i

/-- The calls before the next one. -/
theorem Good.undisturbed_succ (h : Good f BufferSize s) (hcut : ¬ f.CutShort BufferSize s.calls) :
    ∀ i, i < s.calls + 1 → ¬ f.CutShort BufferSize i := by
  intro i hi
  rcases Nat.lt_succ_iff_lt_or_eq.mp hi with hlt | rfl
  · exact h.undisturbed i hlt
  · exact hcut

/-- An error of `read`: the loop goes on where it was. -/
theorem Good.round_error (h : Good f BufferSize s) (hread : f.read BufferSize s.pos s.calls = none) :
    f.round BufferSize s = .inr { s with calls := s.calls + 1 } ∧
      Good f BufferSize { s with calls := s.calls + 1 } ∧ ¬ f.CutShort BufferSize s.calls ∧
      f.reads s.calls = none := by
  have hround : f.round BufferSize s = .inr { s with calls := s.calls + 1 } := by
    simp only [FileCopy.round, hread]
  have hreads : f.reads s.calls = none := by simpa [read] using hread
  rw [h.pos] at hread
  have hcut : ¬ f.CutShort BufferSize s.calls := by
    rintro ⟨n, hn, -⟩
    rw [hread] at hn
    cases hn
  refine ⟨hround, ⟨?_, h.dest, h.undisturbed_succ hcut⟩, hcut, hreads⟩
  rw [position, hread, Option.getD_none]
  exact h.pos

/-- The end of the file. -/
theorem Good.round_end (hB : 0 < BufferSize) (h : Good f BufferSize s)
    (hread : f.read BufferSize s.pos s.calls = some 0) :
    f.round BufferSize s = .inl f.content ∧ f.position BufferSize s.calls = f.content.length ∧
      f.reads s.calls ≠ none := by
  obtain ⟨hend, hreads⟩ := read_eq_zero hB hread
  have hpos : s.pos = f.content.length := Nat.le_antisymm (h.pos ▸ position_le f BufferSize s.calls) hend
  refine ⟨?_, h.pos ▸ hpos, hreads⟩
  simp only [FileCopy.round, hread]
  rw [h.dest, hpos, List.take_length]

/-- A write that takes all: the loop goes on behind it. -/
theorem Good.round_write (h : Good f BufferSize s) (hread : f.read BufferSize s.pos s.calls = some (n + 1))
    {k : Nat} (hwrite : f.writes s.calls = some k) (htakes : n + 1 ≤ k) :
    ∃ s', f.round BufferSize s = .inr s' ∧ Good f BufferSize s' ∧ s'.calls = s.calls + 1 ∧
      ¬ f.CutShort BufferSize s.calls := by
  have hcut : ¬ f.CutShort BufferSize s.calls := by
    rintro ⟨m, hm, hk⟩
    rw [← h.pos, hread] at hm
    obtain rfl := Option.some.inj hm
    rw [hwrite, Option.getD_some] at hk
    omega
  have hround : f.round BufferSize s =
      .inr ⟨s.pos + (n + 1), s.calls + 1, s.dest ++ (f.content.drop s.pos).take (n + 1)⟩ := by
    have hall : ¬ min k (n + 1) ≠ n + 1 := by omega
    simp only [FileCopy.round, hread, hwrite, if_neg hall]
  refine ⟨_, hround, ⟨?_, ?_, h.undisturbed_succ hcut⟩, rfl, hcut⟩
  · rw [position, ← h.pos, hread, Option.getD_some]
  · rw [h.dest]
    exact List.take_add.symm

/-- A write that takes less, or nothing: the loop ends with less than the source. -/
theorem Good.round_cutShort (h : Good f BufferSize s) (hread : f.read BufferSize s.pos s.calls = some (n + 1))
    (hwrite : (f.writes s.calls).getD 0 < n + 1) :
    ∃ dest, f.round BufferSize s = .inl dest ∧ dest ≠ f.content ∧ f.CutShort BufferSize s.calls := by
  have hn := read_le hread
  have hcut : f.CutShort BufferSize s.calls := ⟨n + 1, h.pos ▸ hread, hwrite⟩
  have hdest : s.dest.length = s.pos := by
    have hle : s.pos ≤ f.content.length := h.pos ▸ position_le f BufferSize s.calls
    rw [h.dest, List.length_take]
    omega
  have hless : ∀ dest : Text, dest.length < s.pos + (n + 1) → dest ≠ f.content := by
    rintro dest hlen rfl
    omega
  cases hwrites : f.writes s.calls with
  | none =>
    refine ⟨s.dest, ?_, hless s.dest (by omega), hcut⟩
    simp only [FileCopy.round, hread, hwrites]
  | some k =>
    rw [hwrites, Option.getD_some] at hwrite
    have hshort : min k (n + 1) ≠ n + 1 := by omega
    refine ⟨s.dest ++ ((f.content.drop s.pos).take (n + 1)).take (min k (n + 1)), ?_, hless _ ?_, hcut⟩
    · simp only [FileCopy.round, hread, hwrites, if_pos hshort]
    · rw [List.length_append, hdest, List.length_take, List.length_take, List.length_drop]
      omega

/-- **A round** ends with all of the source, ends with less, or goes on. -/
theorem Good.round (hB : 0 < BufferSize) (h : Good f BufferSize s) :
    (f.round BufferSize s = .inl f.content ∧ f.position BufferSize s.calls = f.content.length ∧
        f.reads s.calls ≠ none) ∨
      (∃ dest, f.round BufferSize s = .inl dest ∧ dest ≠ f.content ∧ f.CutShort BufferSize s.calls) ∨
      ∃ s', f.round BufferSize s = .inr s' ∧ Good f BufferSize s' ∧ s'.calls = s.calls + 1 ∧
        ¬ f.CutShort BufferSize s.calls ∧
        ¬ (f.position BufferSize s.calls = f.content.length ∧ f.reads s.calls ≠ none) := by
  cases hread : f.read BufferSize s.pos s.calls with
  | none =>
    obtain ⟨hround, hgood, hcut, hreads⟩ := h.round_error hread
    exact .inr (.inr ⟨_, hround, hgood, rfl, hcut, fun hend => hend.2 hreads⟩)
  | some n =>
    cases n with
    | zero => exact .inl (h.round_end hB hread)
    | succ n =>
      have hn := read_le hread
      rw [h.pos] at hn
      by_cases hwrite : (f.writes s.calls).getD 0 < n + 1
      · exact .inr (.inl (h.round_cutShort hread hwrite))
      · cases hwrites : f.writes s.calls with
        | none =>
          rw [hwrites] at hwrite
          exact absurd (Nat.succ_pos n) hwrite
        | some k =>
          rw [hwrites, Option.getD_some] at hwrite
          obtain ⟨s', hround, hgood, hcalls, hcut⟩ := h.round_write hread hwrites (by omega)
          exact .inr (.inr ⟨s', hround, hgood, hcalls, hcut, fun hend => by omega⟩)

/-- What the loop returns. -/
theorem Good.returns (hB : 0 < BufferSize) (h : Good f BufferSize s)
    (hreturns : Returns (iterate (f.round BufferSize) s) dest) :
    f.Ends BufferSize ∧ (dest = f.content ↔ f.Undisturbed BufferSize) := by
  obtain ⟨fuel, hfuel⟩ := hreturns
  induction fuel generalizing s with
  | zero => cases hfuel
  | succ fuel ih =>
    rcases h.round hB with ⟨hround, hend, hreads⟩ | ⟨dest', hround, hne, hcut⟩ | ⟨s', hround, h', -⟩
    · rw [iterate_done hround] at hfuel
      refine ⟨⟨s.calls, .inr ⟨hend, hreads⟩⟩, iff_of_true (Option.some.inj hfuel).symm fun i => ?_⟩
      by_cases hi : i < s.calls
      · exact h.undisturbed i hi
      · exact not_cutShort_of_end hend (not_lt.mp hi)
    · rw [iterate_done hround] at hfuel
      obtain rfl := Option.some.inj hfuel
      exact ⟨⟨s.calls, .inl hcut⟩, iff_of_false hne fun hall => hall s.calls hcut⟩
    · rw [iterate_step hround] at hfuel
      exact ih h' hfuel

/-- The loop ends where it is to end. -/
theorem Good.ends (hB : 0 < BufferSize) (h : Good f BufferSize s) {last : Nat} (hlast : s.calls ≤ last)
    (hends : f.CutShort BufferSize last ∨ f.position BufferSize last = f.content.length ∧ f.reads last ≠ none) :
    ∃ dest, Returns (iterate (f.round BufferSize) s) dest := by
  induction hn : last - s.calls generalizing s with
  | zero =>
    obtain rfl : s.calls = last := by omega
    rcases h.round hB with ⟨hround, -⟩ | ⟨dest', hround, -⟩ | ⟨s', -, -, -, hcut, hend⟩
    · exact ⟨_, (returns_done hround).mpr rfl⟩
    · exact ⟨_, (returns_done hround).mpr rfl⟩
    · exact (hends.elim hcut hend).elim
  | succ n ih =>
    rcases h.round hB with ⟨hround, -⟩ | ⟨dest', hround, -⟩ | ⟨s', hround, h', hcalls, -⟩
    · exact ⟨_, (returns_done hround).mpr rfl⟩
    · exact ⟨_, (returns_done hround).mpr rfl⟩
    · obtain ⟨dest, hdest⟩ := ih h' (by omega) (by omega)
      exact ⟨dest, (returns_step hround).mpr hdest⟩

theorem good_start (f : FileCopy) (BufferSize : Nat) : Good f BufferSize ⟨0, 0, []⟩ :=
  ⟨rfl, rfl, fun i hi => absurd hi (Nat.not_lt_zero i)⟩

end Loop

/-! ### The functions -/

/-- A copy that returns 0 has copied all of the source. -/
def Faithful (f : FileCopy) (copy : (fuel : Nat) → Option Copied) : Prop :=
  ∀ r, Returns copy r → r.status = 0 → r.dest = some f.content

section Functions

variable {f : FileCopy} {BufferSize fuel : Nat} {r : Copied}

/-- What `path_copy_file_impl` returns. -/
theorem impl_returns (hB : 0 < BufferSize) (h : path_copy_file_impl BufferSize f fuel = some r) :
    (f.opens = true ∧ f.creates = true ∧ r.status = 0 ∧ f.Ends BufferSize ∧
        (r.dest = some f.content ↔ f.Undisturbed BufferSize)) ∨
      ¬ (f.opens = true ∧ f.creates = true) ∧ r.status = -1 := by
  unfold path_copy_file_impl at h
  split at h
  · rename_i hopen
    obtain ⟨dest, hdest, rfl⟩ := Option.map_eq_some_iff.mp h
    obtain ⟨hends, hiff⟩ := (good_start f BufferSize).returns hB ⟨fuel, hdest⟩
    exact .inl ⟨hopen.1, hopen.2, rfl, hends, by rw [Option.some.injEq, hiff]⟩
  · rename_i hopen
    obtain rfl := Option.some.inj h
    exact .inr ⟨hopen, rfl⟩

/-- **The copying loop** is faithful exactly if no write is cut short. -/
theorem path_copy_file_impl_iff (hB : 0 < BufferSize) :
    f.Faithful (path_copy_file_impl BufferSize f) ↔
      (f.opens = true → f.creates = true → f.Undisturbed BufferSize) := by
  constructor
  · intro h hopens hcreates call hcut
    obtain ⟨dest, fuel, hfuel⟩ := (good_start f BufferSize).ends hB (Nat.zero_le call) (.inl hcut)
    have himpl : path_copy_file_impl BufferSize f fuel = some ⟨0, some dest⟩ := by
      rw [path_copy_file_impl, if_pos ⟨hopens, hcreates⟩, hfuel]
      rfl
    rcases impl_returns hB himpl with ⟨-, -, -, -, hiff⟩ | ⟨hnot, -⟩
    · exact hiff.mp (h _ ⟨fuel, himpl⟩ rfl) call hcut
    · exact hnot ⟨hopens, hcreates⟩
  · rintro h r ⟨fuel, hr⟩ hstatus
    rcases impl_returns hB hr with ⟨hopens, hcreates, -, -, hiff⟩ | ⟨-, hfails⟩
    · exact hiff.mpr (h hopens hcreates)
    · rw [hfails] at hstatus
      cases hstatus

/-- Where the source and the destination are the same file, nothing is to be copied. -/
theorem unlessSame_iff {copy : (fuel : Nat) → Option Copied} :
    f.Faithful (fun fuel => f.unlessSame (copy fuel)) ↔ (f.path_is_same = .different → f.Faithful copy) := by
  unfold Faithful unlessSame
  cases f.path_is_same with
  | fails =>
    refine iff_of_true (fun r hr hstatus => ?_) fun h => by cases h
    obtain rfl := returns_some.mp hr
    cases hstatus
  | same =>
    refine iff_of_true (fun r hr _ => ?_) fun h => by cases h
    obtain rfl := returns_some.mp hr
    rfl
  | different => exact ⟨fun h _ => h, fun h => h rfl⟩

/-- **`path_copy_file`.** -/
theorem path_copy_file_iff (f : FileCopy) :
    f.Faithful f.path_copy_file ↔
      (f.path_is_same = .different → f.readable = true → f.opens = true → f.creates = true →
        f.Undisturbed 65536) := by
  unfold path_copy_file
  rw [unlessSame_iff]
  refine imp_congr_right fun _ => ?_
  cases f.readable with
  | false =>
    refine iff_of_true (fun r hr hstatus => ?_) fun h => by cases h
    obtain rfl := returns_some.mp hr
    cases hstatus
  | true => exact (path_copy_file_impl_iff (by decide)).trans ⟨fun h _ => h, fun h => h rfl⟩

/-- **`path_copy_file_safe`.** -/
theorem path_copy_file_safe_iff (f : FileCopy) :
    f.Faithful f.path_copy_file_safe ↔
      (f.path_is_same = .different → f.opens = true → f.creates = true → f.Undisturbed 1024) := by
  unfold path_copy_file_safe
  rw [unlessSame_iff]
  exact imp_congr_right fun _ => path_copy_file_impl_iff (by decide)

/-! ### When a copy succeeds -/

/-- No step that is reported fails, and the loop ends. -/
def Succeeds (f : FileCopy) : Prop :=
  f.path_is_same = .same ∨
    f.path_is_same = .different ∧ f.readable = true ∧ f.opens = true ∧ f.creates = true ∧ f.Ends 65536

/-- All of the source is copied. -/
def Whole (f : FileCopy) : Prop := f.path_is_same = .different → f.Undisturbed 65536

theorem stable_impl (f : FileCopy) (BufferSize : Nat) : Stable (path_copy_file_impl BufferSize f) := by
  unfold path_copy_file_impl
  split
  · exact stable_iterate.map _
  · exact stable_some _

theorem stable_path_copy_file (f : FileCopy) : Stable f.path_copy_file := by
  unfold path_copy_file unlessSame
  cases f.path_is_same with
  | fails => exact stable_some _
  | same => exact stable_some _
  | different =>
    cases f.readable with
    | false => exact stable_some _
    | true => exact stable_impl f 65536

/-- What `path_copy_file` returns. -/
theorem path_copy_file_cases (h : Returns f.path_copy_file r) :
    (r.status = 0 ∧ f.Succeeds ∧ (r.dest = some f.content ↔ f.Whole)) ∨ r.status = -1 ∧ ¬ f.Succeeds := by
  unfold path_copy_file unlessSame at h
  unfold Succeeds Whole
  cases hsame : f.path_is_same with
  | fails =>
    rw [hsame] at h
    obtain rfl := returns_some.mp h
    exact .inr ⟨rfl, by simp⟩
  | same =>
    rw [hsame] at h
    obtain rfl := returns_some.mp h
    exact .inl ⟨rfl, .inl rfl, iff_of_true rfl fun h => by cases h⟩
  | different =>
    rw [hsame] at h
    cases hreadable : f.readable with
    | false =>
      rw [hreadable] at h
      obtain rfl := returns_some.mp h
      exact .inr ⟨rfl, by simp⟩
    | true =>
      rw [hreadable] at h
      obtain ⟨fuel, h⟩ := h
      rcases impl_returns (by decide) h with ⟨hopens, hcreates, hstatus, hends, hiff⟩ | ⟨hnot, hstatus⟩
      · exact .inl ⟨hstatus, .inr ⟨rfl, rfl, hopens, hcreates, hends⟩, hiff.trans ⟨fun h _ => h, fun h => h rfl⟩⟩
      · refine .inr ⟨hstatus, ?_⟩
        rintro (hsame | ⟨-, -, hopens, hcreates, -⟩)
        · cases hsame
        · exact hnot ⟨hopens, hcreates⟩

theorem Succeeds.returns (h : f.Succeeds) : ∃ r, Returns f.path_copy_file r := by
  unfold path_copy_file unlessSame
  rcases h with hsame | ⟨hsame, hreadable, hopens, hcreates, call, hends⟩
  · rw [hsame]
    exact ⟨_, returns_some.mpr rfl⟩
  · rw [hsame, hreadable]
    obtain ⟨dest, fuel, hdest⟩ := (good_start f 65536).ends (by decide) (Nat.zero_le call) hends
    refine ⟨⟨0, some dest⟩, fuel, ?_⟩
    change path_copy_file_impl 65536 f fuel = _
    rw [path_copy_file_impl, if_pos ⟨hopens, hcreates⟩, hdest]
    rfl

end Functions

end FileCopy

end Goldfish.Files
