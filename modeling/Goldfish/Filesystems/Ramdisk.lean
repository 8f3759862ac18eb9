import Goldfish.Lib.Loops
import Mathlib.Data.Nat.Bitwise

/-!
# Goldfish.Filesystems.Ramdisk

Extracting a file from a ramdisk image (`ramdisk_extractor.cpp`), a compressed `cpio`
archive. What zlib makes of the image is the list of its bytes.

One turn of the loop is `extractRound`; it always gets on by the size of a header, so the
loop ends whatever the bytes are.
-/

namespace Goldfish.Filesystems

open Goldfish.Lib

/-- The number of Linux. -/
def EIO : Nat := 5

/-- The number of Linux. -/
def EINVAL : Nat := 22

/-! ### The stream -/

/-- What is left of the bytes, and the last error. -/
structure GZipInputStream where
  rest : List UInt8
  mError : Nat
  deriving DecidableEq, Repr

namespace GZipInputStream

variable (input : GZipInputStream) (len : Nat)

/-- Up to `len` bytes. -/
def tryRead : Bool × List UInt8 × GZipInputStream :=
  if input.mError ≠ 0 then (false, [], input)
  else if len = 0 then (true, [], input)
  else
    let buffer := input.rest.take len
    (!buffer.isEmpty, buffer, { input with rest := input.rest.drop len })

/-- Exactly `len` bytes, if they are there. -/
def doRead : Option (List UInt8) × GZipInputStream :=
  match input.tryRead len with
  | (false, _, input) => (none, input)
  | (true, buffer, input) =>
    if buffer.length < len then (none, { input with mError := EIO }) else (some buffer, input)

/-- Seeking past the end is no error. -/
def doSkip : Bool × GZipInputStream :=
  if input.mError ≠ 0 then (false, input) else (true, { input with rest := input.rest.drop len })

end GZipInputStream

/-! ### Headers -/

/-- The value of a hexadecimal digit. -/
def hexDigitValue (c : UInt8) : Option UInt32 :=
  if c - '0'.toUInt8 < 10 then some (c - '0'.toUInt8).toUInt32
  else if c - 'a'.toUInt8 < 6 then some ((c - 'a'.toUInt8).toUInt32 + 10)
  else if c - 'A'.toUInt8 < 6 then some ((c - 'A'.toUInt8).toUInt32 + 10)
  else none

/-- Eight hexadecimal digits. -/
def parse_hex8 (input : List UInt8) : Option UInt32 :=
  (input.take 8).foldlM (fun result c => (hexDigitValue c).map fun d => (result <<< 4) ||| d) 0

/-- The fields of the header that are looked at. -/
structure CpioNewcHeader where
  c_magic : List UInt8
  c_filesize : List UInt8
  c_namesize : List UInt8

/-- `sizeof header`. -/
def headerSize : Nat := 110

/-- The fields that are read of a header. -/
def CpioNewcHeader.ofBytes (bytes : List UInt8) : CpioNewcHeader where
  c_magic := bytes.take 6
  c_filesize := (bytes.drop 54).take 8
  c_namesize := (bytes.drop 94).take 8

/-- The magic number of the format, in characters. -/
def magic : List UInt8 := ['0', '7', '0', '7', '0', '1'].map Char.toUInt8

/-- The name of the last entry. -/
def kTrailer : List UInt8 := ['T', 'R', 'A', 'I', 'L', 'E', 'R', '!', '!', '!'].map Char.toUInt8

/-- The name behind a header and its padding. -/
def skipName (nameSize : UInt32) : UInt64 := ((110 + nameSize.toUInt64 + 3) &&& ~~~3) - 110

/-- The data and its padding, in 32 bits. -/
def skipFile (entrySize : UInt32) : UInt32 := (entrySize + 3) &&& ~~~3

/-! ### The loop -/

/-- What is returned. -/
inductive Outcome where
  /-- True, with the data. -/
  | found (out : List UInt8)
  /-- False, with what `errno` is set to, if it is. -/
  | failed (errno : Option Nat)
  deriving DecidableEq, Repr

/-- The end of a turn. -/
def skipEntry (input : GZipInputStream) (skipCount : UInt64) : Outcome ⊕ GZipInputStream :=
  match input.doSkip skipCount.toNat with
  | (false, input) => .inl (.failed (some input.mError))
  | (true, input) => .inr input

/-- Skips the padding of the name and reads the data. -/
def readData (input : GZipInputStream) (padding : UInt64) (entrySize : UInt32) : Outcome :=
  match input.doSkip padding.toNat with
  | (false, input) => .failed (some input.mError)
  | (true, input) =>
    match input.doRead entrySize.toNat with
    | (none, _) => .failed none
    | (some out, _) => .found out

/-- Reads the name and compares it as a C string, with the name of the trailer first. -/
def readName (fileName : List UInt8) (input : GZipInputStream) (nameSize entrySize : UInt32) :
    Outcome ⊕ GZipInputStream :=
  let nameLen := nameSize - 1
  match input.doRead nameLen.toNat with
  | (none, input) => .inl (.failed (some input.mError))
  | (some entryName, input) =>
    let entryName := entryName.takeWhile (· ≠ 0)
    if nameLen = 10 ∧ entryName = kTrailer then .inl (.failed none)
    else if entryName = fileName then .inl (readData input (skipName nameSize - nameLen.toUInt64) entrySize)
    else skipEntry input (skipName nameSize + (skipFile entrySize).toUInt64 - nameLen.toUInt64)

/-- One turn of the loop. Only names that are as long as the one looked for, or as the trailer's, are read. -/
def extractRound (fileName : List UInt8) (input : GZipInputStream) : Outcome ⊕ GZipInputStream :=
  match input.doRead headerSize with
  -- assume end of input
  | (none, _) => .inl (.failed none)
  | (some bytes, input) =>
    let header := CpioNewcHeader.ofBytes bytes
    if header.c_magic ≠ magic then .inl (.failed (some EINVAL))
    else
      match parse_hex8 header.c_namesize, parse_hex8 header.c_filesize with
      | some nameSize, some entrySize =>
        if (entrySize = 0 ∨ nameSize.toNat ≠ fileName.length + 1) ∧ nameSize ≠ 11 then
          skipEntry input (skipName nameSize + (skipFile entrySize).toUInt64)
        else readName fileName input nameSize entrySize
      | _, _ => .inl (.failed (some input.mError))

/-- `android_extractRamdiskFile` of an image that could be opened, for at most `fuel` turns. -/
def android_extractRamdiskFile (ramdisk fileName : List UInt8) (fuel : Nat) : Option Outcome :=
  iterate (extractRound fileName) ⟨ramdisk, 0⟩ fuel

/-! ### The stream in front of known bytes -/

namespace GZipInputStream

variable (rest : List UInt8)

theorem doRead_append (buffer : List UInt8) :
    GZipInputStream.doRead ⟨buffer ++ rest, 0⟩ buffer.length = (some buffer, ⟨rest, 0⟩) := by
  cases buffer with
  | nil => rfl
  | cons c buffer => simp [doRead, tryRead]

theorem doSkip_append (skipped : List UInt8) {len : Nat} (h : len = skipped.length) :
    GZipInputStream.doSkip ⟨skipped ++ rest, 0⟩ len = (true, ⟨rest, 0⟩) := by
  subst h
  simp [doSkip]

end GZipInputStream

/-! ### Termination -/

section Termination

variable {input input' : GZipInputStream}

theorem doRead_rest {len : Nat} {buffer : List UInt8} (h : input.doRead len = (some buffer, input')) :
    input'.rest.length + len ≤ input.rest.length := by
  unfold GZipInputStream.doRead GZipInputStream.tryRead at h
  by_cases herror : input.mError ≠ 0
  · rw [if_pos herror] at h
    cases h
  · rw [if_neg herror] at h
    by_cases hlen : len = 0
    · rw [if_pos hlen] at h
      simp only [hlen, List.length_nil, Nat.lt_irrefl, if_false] at h
      cases h
      omega
    · rw [if_neg hlen] at h
      dsimp only at h
      cases hempty : (input.rest.take len).isEmpty with
      | true =>
        rw [hempty] at h
        cases h
      | false =>
        simp only [hempty, Bool.not_false] at h
        split at h
        · cases h
        · rename_i hread
          cases h
          rw [List.length_take] at hread
          rw [List.length_drop]
          omega

theorem skipEntry_rest {skipCount : UInt64} (h : skipEntry input skipCount = .inr input') :
    input'.rest.length ≤ input.rest.length := by
  unfold skipEntry GZipInputStream.doSkip at h
  split at h
  · cases h
  · rename_i hskip
    split at hskip
    · cases hskip
    · cases hskip
      cases h
      rw [List.length_drop]
      omega

theorem readName_rest {fileName : List UInt8} {nameSize entrySize : UInt32}
    (h : readName fileName input nameSize entrySize = .inr input') : input'.rest.length ≤ input.rest.length := by
  unfold readName at h
  dsimp only at h
  split at h
  · cases h
  · rename_i hread
    have hrest := doRead_rest hread
    split at h
    · cases h
    · split at h
      · cases h
      · have := skipEntry_rest h
        omega

/-- A turn that goes on has read a header. -/
theorem extractRound_rest {fileName : List UInt8} (h : extractRound fileName input = .inr input') :
    input'.rest.length + headerSize ≤ input.rest.length := by
  unfold extractRound at h
  split at h
  · cases h
  · rename_i hread
    have hrest := doRead_rest hread
    dsimp only at h
    split at h
    · cases h
    · split at h
      · split at h
        · have := skipEntry_rest h
          omega
        · have := readName_rest h
          omega
      · cases h

/-- **The loop ends**, whatever the bytes are. -/
theorem extraction_returns (ramdisk fileName : List UInt8) :
    ∃ outcome, Returns (android_extractRamdiskFile ramdisk fileName) outcome := by
  refine returns_of_measure (fun input : GZipInputStream => input.rest.length) (fun input input' h => ?_)
    (⟨ramdisk, 0⟩ : GZipInputStream)
  have := extractRound_rest h
  unfold headerSize at this
  omega

end Termination

/-! ### Sizes -/

/-- A number without its last two bits. -/
theorem and_mask {x k : Nat} (h : x < 2 ^ (k + 2)) : x &&& (2 ^ k - 1) <<< 2 = x / 4 * 4 := by
  have hshift : x / 4 * 4 = x >>> 2 <<< 2 := by
    rw [Nat.shiftRight_eq_div_pow, Nat.shiftLeft_eq]
  rw [hshift]
  refine Nat.eq_of_testBit_eq fun i => ?_
  rw [Nat.testBit_and, Nat.testBit_shiftLeft, Nat.testBit_shiftLeft, Nat.testBit_shiftRight,
    Nat.testBit_two_pow_sub_one]
  by_cases hlow : 2 ≤ i
  · rw [show 2 + (i - 2) = i by omega]
    by_cases hhigh : i - 2 < k
    · simp [hlow, hhigh]
    · have hzero : x.testBit i = false :=
        Nat.testBit_lt_two_pow (h.trans_le (Nat.pow_le_pow_right (by decide) (by omega)))
      simp [hzero]
  · simp [hlow]

/-- The rounding may wrap around. -/
theorem skipFile_toNat (entrySize : UInt32) :
    (skipFile entrySize).toNat = (entrySize.toNat + 3) % 4294967296 / 4 * 4 := by
  rw [skipFile, UInt32.toNat_and, UInt32.toNat_add]
  refine and_mask (k := 30) ?_
  exact Nat.mod_lt _ (by decide)

theorem skipName_toNat (nameSize : UInt32) :
    (skipName nameSize).toNat = (nameSize.toNat + 113) / 4 * 4 - 110 := by
  have hlt := nameSize.toNat_lt
  have hsum : (110 + nameSize.toUInt64 + 3).toNat = nameSize.toNat + 113 := by
    simp only [UInt64.toNat_add, UInt32.toNat_toUInt64]
    simp
    omega
  have hmask : ((110 + nameSize.toUInt64 + 3) &&& ~~~3).toNat = (nameSize.toNat + 113) / 4 * 4 := by
    rw [UInt64.toNat_and, hsum]
    exact and_mask (k := 62) (by omega)
  rw [skipName, UInt64.toNat_sub_of_le, hmask]
  · rfl
  · rw [UInt64.le_iff_toNat_le, hmask]
    change 110 ≤ _
    omega

end Goldfish.Filesystems
