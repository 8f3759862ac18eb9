import Goldfish.Filesystems.Ramdisk
import Mathlib.Data.List.TakeWhile
import Mathlib.Tactic.Common

/-!
# Goldfish.Filesystems.Extraction

What is extracted from a **well-formed archive**: entries, each a header, a name and its
data with their padding, a trailer, and anything behind it.

A turn takes one entry (`extractRound_taken`, `extractRound_passed`), so a run goes on to
the first one that is taken for the file (`extraction_entries`). That need not be the file
(`ramdisk_extraction`): an empty entry, a hard link, is not ignored where its name is as
long as the trailer's, and the size of an entry that is passed is rounded up in 32 bits.
-/

namespace Goldfish.Filesystems

open Goldfish.Lib

/-! ### Archives -/

/-- The value of a hexadecimal digit in either case. -/
def hexValue (c : UInt8) : Option Nat :=
  if 48 ≤ c.toNat ∧ c.toNat ≤ 57 then some (c.toNat - 48)
  else if 97 ≤ c.toNat ∧ c.toNat ≤ 102 then some (c.toNat - 87)
  else if 65 ≤ c.toNat ∧ c.toNat ≤ 70 then some (c.toNat - 55)
  else none

/-- The number that hexadecimal digits denote. -/
def hexNumber (text : List UInt8) : Option Nat :=
  text.foldlM (fun n c => (hexValue c).map fun d => 16 * n + d) 0

/-- The lengths of what is padded to a multiple of four. -/
def Padded (length padding : Nat) : Prop := padding < 4 ∧ 4 ∣ length + padding

/-- A well-formed entry. The padding and the fields that are not looked at may be anything. -/
structure Entry where
  /-- From the inode to the modification time. -/
  inode : List UInt8
  sizeText : List UInt8
  devices : List UInt8
  nameSizeText : List UInt8
  check : List UInt8
  name : List UInt8
  namePadding : List UInt8
  data : List UInt8
  dataPadding : List UInt8
  inode_length : inode.length = 48
  devices_length : devices.length = 32
  check_length : check.length = 8
  size_eq : sizeText.length = 8 ∧ hexNumber sizeText = some data.length
  nameSize_eq : nameSizeText.length = 8 ∧ hexNumber nameSizeText = some (name.length + 1)
  name_nul : 0 ∉ name
  name_padded : Padded (headerSize + (name.length + 1)) namePadding.length
  data_padded : Padded data.length dataPadding.length

namespace Entry

variable (e : Entry)

/-- The header of an entry, field by field. -/
def header : List UInt8 := magic ++ (e.inode ++ (e.sizeText ++ (e.devices ++ (e.nameSizeText ++ e.check))))

/-- What is behind the header. -/
def body : List UInt8 := e.name ++ (0 :: e.namePadding ++ (e.data ++ e.dataPadding))

/-- An entry as it stands in the archive. -/
def bytes : List UInt8 := e.header ++ e.body

end Entry

/-- The entries, none of which is the trailer, the trailer, and anything. -/
structure CpioArchive where
  entries : List Entry
  trailer : Entry
  rest : List UInt8
  entries_name : ∀ e ∈ entries, e.name ≠ kTrailer
  trailer_name : trailer.name = kTrailer

/-- An archive as it stands in the file. -/
def CpioArchive.bytes (a : CpioArchive) : List UInt8 := a.entries.flatMap Entry.bytes ++ (a.trailer.bytes ++ a.rest)

section Files

variable (fileName : List UInt8) (e : Entry)

/-- The entry is the one that is looked for. -/
def Entry.Wanted : Prop := e.name = fileName ∧ e.data ≠ []

/-- It is taken for it. -/
def Entry.Taken : Prop := e.name = fileName ∧ (e.data ≠ [] ∨ e.name.length = 10)

/-- Its size rounds up to zero in 32 bits. -/
def Entry.Wraps : Prop := 4294967293 ≤ e.data.length

instance : Decidable (e.Wanted fileName) := inferInstanceAs (Decidable (_ ∧ _))

instance : Decidable (e.Taken fileName) := inferInstanceAs (Decidable (_ ∧ _))

instance : Decidable e.Wraps := inferInstanceAs (Decidable (_ ≤ _))

/-- The data of the first entry that is looked for. -/
def wantedFile (entries : List Entry) : Option (List UInt8) :=
  (entries.find? fun e => e.Wanted fileName).map Entry.data

/-- The entries in front of it. -/
def passed (entries : List Entry) : List Entry :=
  entries.takeWhile fun e => !decide (e.Wanted fileName)

end Files

/-! ### Numbers -/

theorem hexDigitValue_spec {c : UInt8} {d : Nat} (h : hexValue c = some d) :
    d < 16 ∧ ∃ d', hexDigitValue c = some d' ∧ d'.toNat = d := by
  have hall : ∀ n < 256, (hexDigitValue (UInt8.ofNat n)).map UInt32.toNat = hexValue (UInt8.ofNat n) := by
    decide +kernel
  have hc := hall c.toNat c.toNat_lt
  rw [UInt8.ofNat_toNat, h, Option.map_eq_some_iff] at hc
  refine ⟨?_, hc⟩
  unfold hexValue at h
  split at h
  · cases h
    omega
  · split at h
    · cases h
      omega
    · split at h
      · cases h
        omega
      · cases h

/-- One more digit. -/
theorem shift_or_toNat {result d : UInt32} (hd : d.toNat < 16) (hfit : 16 * result.toNat + 15 < 4294967296) :
    ((result <<< 4) ||| d).toNat = 16 * result.toNat + d.toNat := by
  have hshift : (result <<< 4).toNat = result.toNat <<< 4 := by
    rw [UInt32.toNat_shiftLeft]
    refine Nat.mod_eq_of_lt ?_
    rw [Nat.shiftLeft_eq]
    change result.toNat * 16 < 4294967296
    omega
  rw [UInt32.toNat_or, hshift, ← Nat.shiftLeft_add_eq_or_of_lt (i := 4) hd, Nat.shiftLeft_eq]
  omega

theorem foldlM_hex {text : List UInt8} {n : Nat} (result : UInt32)
    (hfit : (result.toNat + 1) * 16 ^ text.length ≤ 4294967296)
    (h : text.foldlM (fun n c => (hexValue c).map fun d => 16 * n + d) result.toNat = some n) :
    ∃ value, text.foldlM (fun (result : UInt32) c => (hexDigitValue c).map fun d => (result <<< 4) ||| d) result =
      some value ∧ value.toNat = n := by
  induction text generalizing result with
  | nil => exact ⟨result, rfl, Option.some.inj h⟩
  | cons c text ih =>
    rw [List.foldlM_cons] at h ⊢
    cases hvalue : hexValue c with
    | none =>
      rw [hvalue] at h
      cases h
    | some d =>
      obtain ⟨hd, d', hdigit, rfl⟩ := hexDigitValue_spec hvalue
      rw [List.length_cons, Nat.pow_succ, ← Nat.mul_assoc] at hfit
      have hroom : (result.toNat + 1) * 16 ≤ 4294967296 :=
        (Nat.mul_le_mul_right 16 (Nat.le_mul_of_pos_right _ (Nat.pow_pos (by decide)))).trans hfit
      have hnext : ((result <<< 4) ||| d').toNat = 16 * result.toNat + d'.toNat :=
        shift_or_toNat hd (by omega)
      rw [hvalue] at h
      rw [hdigit]
      refine ih _ ?_ ?_
      · rw [hnext]
        calc (16 * result.toNat + d'.toNat + 1) * 16 ^ text.length
            ≤ ((result.toNat + 1) * 16) * 16 ^ text.length := Nat.mul_le_mul_right _ (by omega)
          _ = (result.toNat + 1) * 16 ^ text.length * 16 := by rw [Nat.mul_right_comm]
          _ ≤ 4294967296 := hfit
      · rw [hnext]
        exact h

/-- **The parser reads the number** where there are eight digits. -/
theorem parse_hex8_eq {text : List UInt8} {n : Nat} (h : text.length = 8 ∧ hexNumber text = some n) :
    ∃ value, parse_hex8 text = some value ∧ value.toNat = n := by
  rw [parse_hex8, List.take_of_length_le (Nat.le_of_eq h.1)]
  refine foldlM_hex 0 ?_ h.2
  rw [h.1]
  decide

/-! ### Entries -/

namespace Entry

variable (e : Entry)

theorem header_length : e.header.length = headerSize := by
  have hmagic : magic.length = 6 := rfl
  simp only [header, List.length_append, hmagic, e.inode_length, e.size_eq.1, e.devices_length, e.nameSize_eq.1,
    e.check_length, headerSize]

theorem ofBytes_header : CpioNewcHeader.ofBytes e.header = ⟨magic, e.sizeText, e.nameSizeText⟩ := by
  have hmagic : magic.length = 6 := rfl
  have hsize : e.header.drop 54 = e.sizeText ++ (e.devices ++ (e.nameSizeText ++ e.check)) := by
    rw [header, ← List.append_assoc]
    exact List.drop_left' (by rw [List.length_append, hmagic, e.inode_length])
  have hnameSize : e.header.drop 94 = e.nameSizeText ++ e.check := by
    rw [show 94 = 54 + 40 from rfl, ← List.drop_drop, hsize, ← List.append_assoc]
    exact List.drop_left' (by rw [List.length_append, e.size_eq.1, e.devices_length])
  rw [CpioNewcHeader.ofBytes, hsize, hnameSize, List.take_left' e.size_eq.1, List.take_left' e.nameSize_eq.1, header,
    List.take_left' hmagic]

/-! What the parser and the skips make of the sizes. -/

/-- The size that is written for the name. -/
def nameSize : UInt32 := UInt32.ofNat (e.name.length + 1)

/-- The size that is written for the data. -/
def entrySize : UInt32 := UInt32.ofNat e.data.length

theorem parse_nameSize :
    parse_hex8 e.nameSizeText = some e.nameSize ∧ e.nameSize.toNat = e.name.length + 1 := by
  obtain ⟨value, hparse, hvalue⟩ := parse_hex8_eq e.nameSize_eq
  rw [nameSize, ← hvalue, UInt32.ofNat_toNat]
  exact ⟨hparse, rfl⟩

theorem parse_entrySize : parse_hex8 e.sizeText = some e.entrySize ∧ e.entrySize.toNat = e.data.length := by
  obtain ⟨value, hparse, hvalue⟩ := parse_hex8_eq e.size_eq
  rw [entrySize, ← hvalue, UInt32.ofNat_toNat]
  exact ⟨hparse, rfl⟩

theorem nameLen_toNat : (e.nameSize - 1).toNat = e.name.length := by
  have hsize := e.parse_nameSize.2
  rw [UInt32.toNat_sub_of_le, hsize]
  · rfl
  · rw [UInt32.le_iff_toNat_le, hsize]
    change 1 ≤ _
    omega

/-- What is left of a count behind the name. -/
theorem sub_nameLen_toNat {count : UInt64} {n : Nat} (h : count.toNat = e.name.length + n) :
    (count - (e.nameSize - 1).toUInt64).toNat = n := by
  rw [UInt64.toNat_sub_of_le, h, UInt32.toNat_toUInt64, e.nameLen_toNat, Nat.add_sub_cancel_left]
  rw [UInt64.le_iff_toNat_le, h, UInt32.toNat_toUInt64, e.nameLen_toNat]
  exact Nat.le_add_right _ _

theorem nameSize_eq_iff (n : Nat) (hn : n + 1 < 4294967296) :
    e.nameSize = UInt32.ofNat (n + 1) ↔ e.name.length = n := by
  rw [← UInt32.toNat_inj, e.parse_nameSize.2, UInt32.toNat_ofNat_of_lt' hn]
  omega

theorem entrySize_eq_zero : e.entrySize = 0 ↔ e.data = [] := by
  rw [← UInt32.toNat_inj, e.parse_entrySize.2, ← List.length_eq_zero_iff]
  rfl

/-- What is skipped behind the name. -/
def skipped : List UInt8 := 0 :: e.namePadding ++ if e.Wraps then [] else e.data ++ e.dataPadding

/-- Where the next header is looked for. -/
def behind (more : List UInt8) : List UInt8 := if e.Wraps then e.data ++ (e.dataPadding ++ more) else more

theorem skipped_append (more : List UInt8) :
    e.skipped ++ e.behind more = 0 :: e.namePadding ++ (e.data ++ (e.dataPadding ++ more)) := by
  unfold skipped behind
  by_cases hwraps : e.Wraps
  · rw [if_pos hwraps, if_pos hwraps, List.append_nil]
  · rw [if_neg hwraps, if_neg hwraps, List.append_assoc, List.append_assoc]

theorem body_append (more : List UInt8) : e.body ++ more = e.name ++ (e.skipped ++ e.behind more) := by
  rw [e.skipped_append, body, List.append_assoc, List.append_assoc, List.append_assoc]

theorem skipName_nameSize : (skipName e.nameSize).toNat = e.name.length + (1 + e.namePadding.length) := by
  obtain ⟨hsmall, k, hk⟩ := e.name_padded
  rw [skipName_toNat, e.parse_nameSize.2]
  unfold headerSize at hk
  omega

theorem skipFile_entrySize :
    (skipFile e.entrySize).toNat = if e.Wraps then 0 else e.data.length + e.dataPadding.length := by
  obtain ⟨hsmall, k, hk⟩ := e.data_padded
  have hlt := e.entrySize.toNat_lt
  rw [e.parse_entrySize.2] at hlt
  rw [skipFile_toNat, e.parse_entrySize.2]
  by_cases hwraps : e.Wraps
  · rw [if_pos hwraps]
    unfold Wraps at hwraps
    omega
  · rw [if_neg hwraps]
    unfold Wraps at hwraps
    rw [Nat.mod_eq_of_lt (by omega)]
    omega

theorem skipCount_toNat :
    (skipName e.nameSize + (skipFile e.entrySize).toUInt64).toNat = e.name.length + e.skipped.length := by
  have hname := e.skipName_nameSize
  have hfile := e.skipFile_entrySize
  have hlt := (skipFile e.entrySize).toNat_lt
  have hlt' := e.nameSize.toNat_lt
  have hskip := skipName_toNat e.nameSize
  rw [UInt64.toNat_add, UInt32.toNat_toUInt64, Nat.mod_eq_of_lt (by omega), hname, hfile, skipped]
  split
  · simp
    omega
  · simp
    omega

end Entry

/-! ### Turns -/

section Turns

variable {fileName : List UInt8} {e : Entry}

theorem skipEntry_append (skipped rest : List UInt8) {skipCount : UInt64} (h : skipCount.toNat = skipped.length) :
    skipEntry ⟨skipped ++ rest, 0⟩ skipCount = .inr ⟨rest, 0⟩ := by
  simp only [skipEntry, GZipInputStream.doSkip_append rest skipped h]

theorem readName_entry (fileName more : List UInt8) (e : Entry) :
    readName fileName ⟨e.body ++ more, 0⟩ e.nameSize e.entrySize =
      if e.name = kTrailer then .inl (.failed none)
      else if e.name = fileName then .inl (.found e.data)
      else .inr ⟨e.behind more, 0⟩ := by
  have hname : e.name.takeWhile (· ≠ 0) = e.name := by
    refine List.takeWhile_eq_self_iff.mpr fun c hc => decide_eq_true fun hzero => ?_
    exact e.name_nul (hzero ▸ hc)
  have hread := GZipInputStream.doRead_append (e.skipped ++ e.behind more) e.name
  rw [← e.body_append, ← e.nameLen_toNat] at hread
  have htrailer : (e.nameSize - 1 = 10 ∧ e.name = kTrailer) ↔ e.name = kTrailer := by
    refine and_iff_right_of_imp fun htrailer => ?_
    rw [← UInt32.toNat_inj, e.nameLen_toNat, htrailer]
    rfl
  simp only [readName, hread, hname, htrailer]
  by_cases hend : e.name = kTrailer
  · rw [if_pos hend, if_pos hend]
  · rw [if_neg hend, if_neg hend]
    by_cases heq : e.name = fileName
    · rw [if_pos heq, if_pos heq]
      refine congrArg Sum.inl ?_
      have hpadding : (skipName e.nameSize - (e.nameSize - 1).toUInt64).toNat = (0 :: e.namePadding).length := by
        rw [e.sub_nameLen_toNat e.skipName_nameSize, List.length_cons, Nat.add_comm]
      have hdata := GZipInputStream.doRead_append (e.dataPadding ++ more) e.data
      rw [← e.parse_entrySize.2] at hdata
      simp only [readData, e.skipped_append, GZipInputStream.doSkip_append _ _ hpadding, hdata]
    · rw [if_neg heq, if_neg heq]
      exact skipEntry_append e.skipped (e.behind more) (e.sub_nameLen_toNat e.skipCount_toNat)

theorem extractRound_header (fileName more : List UInt8) (e : Entry) :
    extractRound fileName ⟨e.bytes ++ more, 0⟩ =
      if (e.data = [] ∨ e.name.length ≠ fileName.length) ∧ e.name.length ≠ 10 then .inr ⟨e.behind more, 0⟩
      else readName fileName ⟨e.body ++ more, 0⟩ e.nameSize e.entrySize := by
  have hread := GZipInputStream.doRead_append (e.body ++ more) e.header
  rw [← List.append_assoc, e.header_length] at hread
  have hten : e.nameSize ≠ 11 ↔ e.name.length ≠ 10 := not_congr (e.nameSize_eq_iff 10 (by decide))
  have hlength : e.nameSize.toNat ≠ fileName.length + 1 ↔ e.name.length ≠ fileName.length := by
    rw [e.parse_nameSize.2]
    omega
  simp only [extractRound, Entry.bytes, hread, e.ofBytes_header, e.parse_nameSize.1, e.parse_entrySize.1, ne_eq,
    not_true, if_false]
  simp only [← ne_eq, hten, hlength, e.entrySize_eq_zero]
  split
  · rw [e.body_append, ← List.append_assoc]
    refine skipEntry_append (e.name ++ e.skipped) (e.behind more) ?_
    rw [e.skipCount_toNat, List.length_append]
  · rfl

theorem extractRound_trailer (fileName more : List UInt8) (hend : e.name = kTrailer) :
    extractRound fileName ⟨e.bytes ++ more, 0⟩ = .inl (.failed none) := by
  have hten : e.name.length = 10 := congrArg List.length hend
  rw [extractRound_header, if_neg (fun h => h.2 hten), readName_entry, if_pos hend]

theorem extractRound_taken (more : List UInt8) (hend : e.name ≠ kTrailer) (htaken : e.Taken fileName) :
    extractRound fileName ⟨e.bytes ++ more, 0⟩ = .inl (.found e.data) := by
  obtain ⟨hname, hdata⟩ := htaken
  rw [extractRound_header, if_neg, readName_entry, if_neg hend, if_pos hname]
  intro ⟨hskip, hten⟩
  have hlength : e.name.length = fileName.length := congrArg List.length hname
  cases hdata with
  | inl hdata => exact hskip.elim hdata fun hne => hne hlength
  | inr hdata => exact hten hdata

theorem extractRound_passed (more : List UInt8) (hend : e.name ≠ kTrailer) (htaken : ¬ e.Taken fileName) :
    extractRound fileName ⟨e.bytes ++ more, 0⟩ = .inr ⟨e.behind more, 0⟩ := by
  rw [extractRound_header]
  by_cases hskip : (e.data = [] ∨ e.name.length ≠ fileName.length) ∧ e.name.length ≠ 10
  · rw [if_pos hskip]
  · rw [if_neg hskip, readName_entry, if_neg hend, if_neg]
    intro hname
    refine htaken ⟨hname, ?_⟩
    by_contra hnot
    rw [not_or, not_not] at hnot
    exact hskip ⟨.inl hnot.1, hnot.2⟩

/-- Data is no header. -/
theorem extractRound_data (fileName more : List UInt8) (hwraps : e.Wraps) (hmagic : e.data.take 6 ≠ magic) :
    extractRound fileName ⟨e.data ++ more, 0⟩ = .inl (.failed (some EINVAL)) := by
  unfold Entry.Wraps at hwraps
  have hread := GZipInputStream.doRead_append (e.data.drop headerSize ++ more) (e.data.take headerSize)
  rw [← List.append_assoc, List.take_append_drop, List.length_take_of_le (by unfold headerSize; omega)] at hread
  have hofBytes : (CpioNewcHeader.ofBytes (e.data.take headerSize)).c_magic = e.data.take 6 := by
    rw [CpioNewcHeader.ofBytes, List.take_take]
    rfl
  simp only [extractRound, hread, hofBytes, if_pos hmagic]

end Turns

/-! ### Runs -/

/-- What is handed out. -/
def Outcome.out : Outcome → Option (List UInt8)
  | .found out => some out
  | .failed _ => none

/-- What should be handed out is. -/
def CpioArchive.Extracted (fileName : List UInt8) (archive : CpioArchive) : Prop :=
  ∃ outcome, Returns (android_extractRamdiskFile archive.bytes fileName) outcome ∧
    outcome.out = wantedFile fileName archive.entries

/-- When the loop does not go wrong. -/
structure Extractable (fileName : List UInt8) (entries : List Entry) : Prop where
  /-- No empty entry is taken for the file. -/
  empty : ∀ e ∈ (passed fileName entries).takeWhile (fun e => !decide e.Wraps),
    ¬ (e.name = fileName ∧ e.name.length = 10)
  /-- No size wraps around in front of the file. -/
  small : wantedFile fileName entries = none ∨ ∀ e ∈ passed fileName entries, ¬ e.Wraps

/-- The data of the first entry that is taken for the file, if the loop gets there. -/
def takenFile (fileName : List UInt8) (entries : List Entry) : Option (List UInt8) :=
  (entries.find? fun e => e.Taken fileName ∨ e.Wraps).bind fun e => if e.Taken fileName then some e.data else none

section Runs

variable {fileName : List UInt8} {e : Entry} {entries : List Entry}

theorem Entry.Wanted.taken (h : e.Wanted fileName) : e.Taken fileName := ⟨h.1, .inl h.2⟩

theorem passed_cons (h : ¬ e.Wanted fileName) : passed fileName (e :: entries) = e :: passed fileName entries :=
  List.takeWhile_cons_of_pos (by simpa using h)

theorem extraction_entries {trailer : Entry} {rest : List UInt8} {outcome : Outcome}
    (hname : ∀ e ∈ entries, e.name ≠ kTrailer) (hend : trailer.name = kTrailer)
    (hmagic : ∀ e ∈ passed fileName entries, e.Wraps → e.data.take 6 ≠ magic)
    (h : Returns (android_extractRamdiskFile (entries.flatMap Entry.bytes ++ (trailer.bytes ++ rest)) fileName)
      outcome) :
    outcome.out = takenFile fileName entries := by
  induction entries with
  | nil =>
    rw [(returns_done (extractRound_trailer fileName rest hend)).mp h]
    rfl
  | cons e entries ih =>
    obtain ⟨he, hentries⟩ := List.forall_mem_cons.mp hname
    rw [List.flatMap_cons, List.append_assoc] at h
    by_cases htaken : e.Taken fileName
    · rw [(returns_done (extractRound_taken _ he htaken)).mp h]
      simp [takenFile, htaken, Outcome.out]
    · rw [passed_cons (mt Entry.Wanted.taken htaken)] at hmagic
      obtain ⟨hdata, hmore⟩ := List.forall_mem_cons.mp hmagic
      replace h := (returns_step (extractRound_passed _ he htaken)).mp h
      unfold Entry.behind at h
      by_cases hwraps : e.Wraps
      · rw [if_pos hwraps] at h
        rw [(returns_done (extractRound_data fileName _ hwraps (hdata hwraps))).mp h]
        simp [takenFile, htaken, hwraps, Outcome.out]
      · rw [if_neg hwraps] at h
        rw [ih hentries hmore h]
        simp [takenFile, htaken, hwraps]

theorem wantedFile_cons (h : ¬ e.Wanted fileName) :
    wantedFile fileName (e :: entries) = wantedFile fileName entries := by
  simp [wantedFile, h]

/-- It is not empty. -/
theorem wantedFile_ne_nil : wantedFile fileName entries ≠ some [] := by
  intro h
  obtain ⟨e, hfind, hdata⟩ := Option.map_eq_some_iff.mp h
  have hwanted : e.Wanted fileName := by simpa using List.find?_some hfind
  exact hwanted.2 hdata

theorem extractable_wanted (h : e.Wanted fileName) : Extractable fileName (e :: entries) := by
  have hpassed : passed fileName (e :: entries) = [] := List.takeWhile_cons_of_neg (by simpa using h)
  constructor
  · rw [hpassed]
    intro e he
    cases he
  · rw [hpassed]
    exact .inr fun e he => (by cases he)

theorem extractable_wraps (h : ¬ e.Wanted fileName) (hwraps : e.Wraps) :
    Extractable fileName (e :: entries) ↔ wantedFile fileName entries = none := by
  constructor
  · intro hsafe
    cases hsafe.small with
    | inl hnone => rwa [wantedFile_cons h] at hnone
    | inr hsmall =>
      rw [passed_cons h] at hsmall
      exact absurd hwraps (hsmall e List.mem_cons_self)
  · intro hnone
    refine ⟨fun e' he' => ?_, .inl (by rwa [wantedFile_cons h])⟩
    rw [passed_cons h, List.takeWhile_cons_of_neg (by simpa using hwraps)] at he'
    cases he'

theorem extractable_passed (h : ¬ e.Wanted fileName) (hwraps : ¬ e.Wraps) :
    Extractable fileName (e :: entries) ↔
      ¬ (e.name = fileName ∧ e.name.length = 10) ∧ Extractable fileName entries := by
  have hempty : ((passed fileName (e :: entries)).takeWhile fun e => !decide e.Wraps) =
      e :: (passed fileName entries).takeWhile fun e => !decide e.Wraps := by
    rw [passed_cons h, List.takeWhile_cons_of_pos (by simpa using hwraps)]
  constructor
  · intro ⟨hnone, hsmall⟩
    rw [hempty, List.forall_mem_cons] at hnone
    rw [wantedFile_cons h, passed_cons h, List.forall_mem_cons] at hsmall
    exact ⟨hnone.1, hnone.2, hsmall.imp_right And.right⟩
  · intro ⟨hname, hnone, hsmall⟩
    constructor
    · rw [hempty, List.forall_mem_cons]
      exact ⟨hname, hnone⟩
    · rw [wantedFile_cons h, passed_cons h, List.forall_mem_cons]
      exact hsmall.imp_right fun hsmall => ⟨hwraps, hsmall⟩

theorem takenFile_eq_iff :
    takenFile fileName entries = wantedFile fileName entries ↔ Extractable fileName entries := by
  induction entries with
  | nil => exact ⟨fun _ => ⟨fun e he => (by cases he), .inl rfl⟩, fun _ => rfl⟩
  | cons e entries ih =>
    by_cases hwanted : e.Wanted fileName
    · have htaken := hwanted.taken
      simp [takenFile, wantedFile, hwanted, htaken, extractable_wanted]
    · rw [wantedFile_cons hwanted]
      by_cases hwraps : e.Wraps
      · -- an entry as large as that is taken only where it is wanted
        have htaken : ¬ e.Taken fileName := by
          intro htaken
          refine hwanted ⟨htaken.1, fun hempty => ?_⟩
          rw [Entry.Wraps, hempty] at hwraps
          exact absurd hwraps (by decide)
        have hout : takenFile fileName (e :: entries) = none := by
          simp [takenFile, hwraps, htaken]
        rw [extractable_wraps hwanted hwraps, hout, eq_comm]
      · rw [extractable_passed hwanted hwraps]
        by_cases hmistaken : e.name = fileName ∧ e.name.length = 10
        · have htaken : e.Taken fileName := ⟨hmistaken.1, .inr hmistaken.2⟩
          have hdata : e.data = [] := by
            by_contra hdata
            exact hwanted ⟨hmistaken.1, hdata⟩
          have hout : takenFile fileName (e :: entries) = some [] := by
            simp [takenFile, htaken, hdata]
          rw [hout]
          exact ⟨fun heq => absurd heq.symm wantedFile_ne_nil, fun hsafe => absurd hmistaken hsafe.1⟩
        · have htaken : ¬ e.Taken fileName := by
            intro ⟨hname, hdata⟩
            exact hdata.elim (fun hdata => hwanted ⟨hname, hdata⟩) fun hten => hmistaken ⟨hname, hten⟩
          have hout : takenFile fileName (e :: entries) = takenFile fileName entries := by
            simp [takenFile, hwraps, htaken]
          rw [hout, ih]
          exact (and_iff_right hmistaken).symm

/-- **The loop ends on every image, and on an archive it hands out the file** exactly when nothing goes wrong, as
long as no data that is read as a header looks like one. -/
theorem ramdisk_extraction (fileName : List UInt8) :
    (∀ ramdisk, ∃ outcome, Returns (android_extractRamdiskFile ramdisk fileName) outcome) ∧
    ∀ archive : CpioArchive,
      (∀ e ∈ passed fileName archive.entries, e.Wraps → e.data.take 6 ≠ magic) →
        (archive.Extracted fileName ↔ Extractable fileName archive.entries) := by
  refine ⟨fun ramdisk => extraction_returns ramdisk fileName, fun archive hmagic => ?_⟩
  have hout : ∀ {outcome}, Returns (android_extractRamdiskFile archive.bytes fileName) outcome →
      outcome.out = takenFile fileName archive.entries :=
    extraction_entries archive.entries_name archive.trailer_name hmagic
  rw [← takenFile_eq_iff]
  constructor
  · intro ⟨outcome, hreturns, hfile⟩
    rw [← hout hreturns, hfile]
  · intro hfile
    obtain ⟨outcome, hreturns⟩ := extraction_returns archive.bytes fileName
    exact ⟨outcome, hreturns, (hout hreturns).trans hfile⟩

end Runs

/-! ### An image with a hard link -/

/-- An entry with a name as long as the trailer's and data that needs no padding. -/
def plainEntry (name data : List UInt8) (digit : Char) (hlength : name.length = 10) (hnul : 0 ∉ name)
    (hdigit : hexNumber (List.replicate 7 '0'.toUInt8 ++ [digit.toUInt8]) = some data.length)
    (hdata : 4 ∣ data.length) : Entry where
  inode := List.replicate 48 '0'.toUInt8
  sizeText := List.replicate 7 '0'.toUInt8 ++ [digit.toUInt8]
  devices := List.replicate 32 '0'.toUInt8
  nameSizeText := List.replicate 7 '0'.toUInt8 ++ ['b'.toUInt8]
  check := List.replicate 8 '0'.toUInt8
  name := name
  namePadding := [0, 0, 0]
  data := data
  dataPadding := []
  inode_length := rfl
  devices_length := rfl
  check_length := rfl
  size_eq := ⟨rfl, hdigit⟩
  nameSize_eq := by
    rw [hlength]
    decide
  name_nul := hnul
  name_padded := by
    rw [hlength]
    exact ⟨by decide, 31, rfl⟩
  data_padded := ⟨by decide, hdata⟩

/-- `vendor.img`. -/
def linkName : List UInt8 := ['v', 'e', 'n', 'd', 'o', 'r', '.', 'i', 'm', 'g'].map Char.toUInt8

/-- `fstab.qemu`. -/
def fstabName : List UInt8 := ['f', 's', 't', 'a', 'b', '.', 'q', 'e', 'm', 'u'].map Char.toUInt8

/-- An empty entry. -/
def linkEntry : Entry := plainEntry linkName [] '0' rfl (by decide) (by decide) ⟨0, rfl⟩

/-- An entry of four bytes. -/
def fstabEntry : Entry := plainEntry fstabName [1, 2, 3, 4] '4' rfl (by decide) (by decide) ⟨1, rfl⟩

/-- An archive of two entries. -/
def linkArchive : CpioArchive where
  entries := [linkEntry, fstabEntry]
  trailer := plainEntry kTrailer [] '0' rfl (by decide) (by decide) ⟨0, rfl⟩
  rest := []
  entries_name := List.forall_mem_cons.mpr ⟨by decide, List.forall_mem_singleton.mpr (by decide)⟩
  trailer_name := rfl

/-- The file behind the link. -/
theorem fstab_is_extracted : linkArchive.Extracted fstabName := by
  have hlink : ¬ linkEntry.Wanted fstabName := by decide
  have hwraps : ¬ linkEntry.Wraps := by decide
  have hfstab : fstabEntry.Wanted fstabName := by decide
  have hpassed : passed fstabName linkArchive.entries = [linkEntry] := by
    rw [linkArchive, passed_cons hlink]
    exact congrArg _ (List.takeWhile_cons_of_neg (by simpa using hfstab))
  refine ((ramdisk_extraction fstabName).2 linkArchive ?_).mpr ?_
  · rw [hpassed]
    exact List.forall_mem_singleton.mpr fun h => absurd h hwraps
  · exact (extractable_passed hlink hwraps).mpr ⟨by decide, extractable_wanted hfstab⟩

/-- **A hard link is not ignored** where its name is as long as the trailer's. -/
theorem hard_link_is_extracted :
    Returns (android_extractRamdiskFile linkArchive.bytes linkName) (.found []) ∧
    ¬ linkArchive.Extracted linkName := by
  have hlink : linkEntry.Taken linkName := by decide
  have hentries : linkArchive.entries = linkEntry :: [fstabEntry] := rfl
  have hreturns : ∀ outcome, Returns (android_extractRamdiskFile linkArchive.bytes linkName) outcome ↔
      outcome = .found [] := by
    intro outcome
    rw [CpioArchive.bytes, hentries, List.flatMap_cons, List.append_assoc]
    exact returns_done (extractRound_taken _ (by decide) hlink)
  refine ⟨(hreturns _).mpr rfl, fun ⟨outcome, hout, hfile⟩ => ?_⟩
  rw [(hreturns outcome).mp hout] at hfile
  exact wantedFile_ne_nil hfile.symm

end Goldfish.Filesystems
