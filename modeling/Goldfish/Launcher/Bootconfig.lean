import Goldfish.Lib.Trace
import Mathlib.Data.List.TakeWhile
import Mathlib.Data.Nat.Bitwise

/-!
# Goldfish.Launcher.Bootconfig

**The boot configuration behind a ramdisk** (`bootconfig.cpp`). The properties are
written as lines of text, padded so that ramdisk and text together are aligned, and
followed by the size and the checksum of the padded text and a magic word.

`PropertyReader` reads lines of `key="value"` one byte at a time. What was written is read
back whatever the values are, as long as they have no quote and no NUL in them
(`read_flattenBootconfig`); the other fields of the trailer are `bootconfig_trailer`.
-/

namespace Goldfish.Launcher

open Goldfish.Lib

/-- A `std::string`, or a row of bytes. -/
abbrev Text := List UInt8

/-- What stands behind a key. -/
def equals : UInt8 := '='.toUInt8

/-- What stands around a value. -/
def quote : UInt8 := 0x22

/-- What stands behind a property. -/
def newline : UInt8 := '\n'.toUInt8

/-- What fills the blob up. -/
def plus : UInt8 := '+'.toUInt8

/-! ### Writing -/

/-- `kBootconfigMagic`, which ends the blob. -/
def kBootconfigMagic : Text :=
  ['#', 'B', 'O', 'O', 'T', 'C', 'O', 'N', 'F', 'I', 'G', '\n'].map Char.toUInt8

/-- The blob begins at a multiple of this. -/
def kBootconfigAlign : UInt64 := 4

/-- `host2le32`. -/
def host2le32 (v32 : UInt32) : Text :=
  [v32.toUInt8, (v32 >>> 8).toUInt8, (v32 >>> 16).toUInt8, (v32 >>> 24).toUInt8]

/-- `flattenBootconfig`. -/
def flattenBootconfig (bootconfig : List (Text × Text)) : Text :=
  let bits := bootconfig.foldl (fun bits kv => bits ++ kv.1 ++ [equals, quote] ++ kv.2 ++ [quote, newline]) []
  -- it is ASCIIZ
  bits ++ [0]

/-- The text with its padding, the first half of `buildBootconfigBlob`. -/
def alignBootconfig (srcSize : UInt64) (blob : Text) : Text :=
  let unaligned := (srcSize + UInt64.ofNat blob.length) % kBootconfigAlign
  if unaligned ≠ 0 then blob ++ List.replicate (kBootconfigAlign - unaligned).toNat plus else blob

/-- `host2le32(v32, &blob[offset])` -/
def storeLe32 (v32 : UInt32) (blob : Text) (offset : Nat) : Text :=
  blob.take offset ++ host2le32 v32 ++ blob.drop (offset + 4)

/-- `buildBootconfigBlob`: the properties, their size and their sum, and the magic. -/
def buildBootconfigBlob (srcSize : UInt64) (bootconfig : List (Text × Text)) : Text :=
  let blob := alignBootconfig srcSize (flattenBootconfig bootconfig)
  let csum := blob.foldl (fun z c => z + c.toUInt32) 0
  let size := blob.length
  let blob := blob ++ List.replicate 8 plus
  let blob := storeLe32 (UInt32.ofNat size) blob (blob.length - 8)
  let blob := storeLe32 csum blob (blob.length - 4)
  blob ++ kBootconfigMagic

/-! ### Reading -/

/-- Where a reader of `key="value"` lines is. -/
inductive PropertyReader where
  | inKey (done : List (Text × Text)) (key : Text)
  | atQuote (done : List (Text × Text)) (key : Text)
  | inValue (done : List (Text × Text)) (key value : Text)
  | atNewline (done : List (Text × Text)) (key value : Text)
deriving DecidableEq

/-- One character of the properties. -/
def PropertyReader.step : PropertyReader → UInt8 → Option PropertyReader
  | .inKey done key, c =>
      if c = equals then some (.atQuote done key)
      else if c = quote ∨ c = newline then none
      else some (.inKey done (key ++ [c]))
  | .atQuote done key, c => if c = quote then some (.inValue done key []) else none
  | .inValue done key value, c =>
      if c = quote then some (.atNewline done key value) else some (.inValue done key (value ++ [c]))
  | .atNewline done key value, c => if c = newline then some (.inKey (done ++ [(key, value)]) []) else none

/-- The properties, unless the text ends inside a line. -/
def PropertyReader.finish : PropertyReader → Option (List (Text × Text))
  | .inKey done [] => some done
  | .inKey _ (_ :: _) | .atQuote .. | .inValue .. | .atNewline .. => none

/-- The properties of a text, if it has such a form. -/
def readProperties (text : Text) : Option (List (Text × Text)) :=
  text.foldlM PropertyReader.step (.inKey [] []) >>= PropertyReader.finish

/-- The number in little-endian bytes. -/
def le32 : Text → Nat
  | [] => 0
  | c :: bytes => c.toNat + 256 * le32 bytes

/-! ### What is read back -/

section Reading

variable {done : List (Text × Text)} {key value : Text}

theorem read_key (hkey : ∀ c ∈ key, c ≠ equals ∧ c ≠ quote ∧ c ≠ newline) (read : Text) :
    key.foldlM PropertyReader.step (.inKey done read) = some (.inKey done (read ++ key)) := by
  induction key generalizing read with
  | nil => simp
  | cons c key ih =>
    obtain ⟨⟨hequals, hquote, hnewline⟩, hkey⟩ := List.forall_mem_cons.mp hkey
    have hplain : ¬ (c = quote ∨ c = newline) := not_or.mpr ⟨hquote, hnewline⟩
    rw [List.foldlM_cons, PropertyReader.step, if_neg hequals, if_neg hplain]
    show key.foldlM PropertyReader.step (.inKey done (read ++ [c])) = _
    rw [ih hkey, List.append_assoc, List.singleton_append]

theorem read_value (hvalue : ∀ c ∈ value, c ≠ quote) (read : Text) :
    value.foldlM PropertyReader.step (.inValue done key read) = some (.inValue done key (read ++ value)) := by
  induction value generalizing read with
  | nil => simp
  | cons c value ih =>
    obtain ⟨hc, hvalue⟩ := List.forall_mem_cons.mp hvalue
    rw [List.foldlM_cons, PropertyReader.step, if_neg hc]
    show value.foldlM PropertyReader.step (.inValue done key (read ++ [c])) = _
    rw [ih hvalue, List.append_assoc, List.singleton_append]

/-- The line of one property. -/
def propertyLine (kv : Text × Text) : Text := kv.1 ++ [equals, quote] ++ kv.2 ++ [quote, newline]

theorem read_line {kv : Text × Text} (hkey : ∀ c ∈ kv.1, c ≠ equals ∧ c ≠ quote ∧ c ≠ newline)
    (hvalue : ∀ c ∈ kv.2, c ≠ quote) :
    (propertyLine kv).foldlM PropertyReader.step (.inKey done []) = some (.inKey (done ++ [kv]) []) := by
  have hbefore : [equals, quote].foldlM PropertyReader.step (.inKey done kv.1) = some (.inValue done kv.1 []) := rfl
  have hbehind : [quote, newline].foldlM PropertyReader.step (.inValue done kv.1 kv.2) =
      some (.inKey (done ++ [kv]) []) := rfl
  simp only [propertyLine, List.foldlM_append, read_key hkey, List.nil_append, Option.bind_eq_bind, Option.bind_some,
    hbefore, read_value hvalue, hbehind]

end Reading

/-! ### The text -/

theorem flattenBootconfig_eq (bootconfig : List (Text × Text)) :
    flattenBootconfig bootconfig = bootconfig.flatMap propertyLine ++ [0] := by
  have hfold : ∀ bits : Text, bootconfig.foldl
      (fun bits kv => bits ++ kv.1 ++ [equals, quote] ++ kv.2 ++ [quote, newline]) bits =
        bits ++ bootconfig.flatMap propertyLine := by
    induction bootconfig with
    | nil => simp
    | cons kv bootconfig ih =>
      intro bits
      rw [List.foldl_cons, ih, List.flatMap_cons]
      simp only [propertyLine, List.append_assoc]
  rw [flattenBootconfig, hfold]
  rfl

theorem read_lines {bootconfig : List (Text × Text)}
    (hkeys : ∀ kv ∈ bootconfig, ∀ c ∈ kv.1, c ≠ equals ∧ c ≠ quote ∧ c ≠ newline)
    (hvalues : ∀ kv ∈ bootconfig, ∀ c ∈ kv.2, c ≠ quote) (done : List (Text × Text)) :
    (bootconfig.flatMap propertyLine).foldlM PropertyReader.step (.inKey done []) =
      some (.inKey (done ++ bootconfig) []) := by
  induction bootconfig generalizing done with
  | nil => simp
  | cons kv bootconfig ih =>
    obtain ⟨hkey, hkeys⟩ := List.forall_mem_cons.mp hkeys
    obtain ⟨hvalue, hvalues⟩ := List.forall_mem_cons.mp hvalues
    rw [List.flatMap_cons, List.foldlM_append, read_line hkey hvalue]
    show (bootconfig.flatMap propertyLine).foldlM PropertyReader.step (.inKey (done ++ [kv]) []) = _
    rw [ih hkeys hvalues, List.append_assoc, List.singleton_append]

/-- The texts that can be written: neither part has a quote or a NUL in it, and the key no `=` and no newline. -/
structure Writable (kv : Text × Text) : Prop where
  key : ∀ c ∈ kv.1, c ≠ equals ∧ c ≠ quote ∧ c ≠ newline ∧ c ≠ 0
  value : ∀ c ∈ kv.2, c ≠ quote ∧ c ≠ 0

theorem Writable.ne_zero {kv : Text × Text} (h : Writable kv) : ∀ c ∈ propertyLine kv, c ≠ 0 := by
  intro c hc
  rcases List.mem_append.mp hc with hc | hc
  · rcases List.mem_append.mp hc with hc | hc
    · rcases List.mem_append.mp hc with hc | hc
      · exact (h.key c hc).2.2.2
      · rintro rfl
        exact absurd hc (by decide)
    · exact (h.value c hc).2
  · rintro rfl
    exact absurd hc (by decide)

/-- Up to the first NUL, the text reads as the properties, whatever comes behind. -/
theorem read_flattenBootconfig {bootconfig : List (Text × Text)} (h : ∀ kv ∈ bootconfig, Writable kv)
    (behind : Text) :
    readProperties ((flattenBootconfig bootconfig ++ behind).takeWhile (· ≠ 0)) = some bootconfig := by
  have htext : ∀ c ∈ bootconfig.flatMap propertyLine, c ≠ 0 := by
    intro c hc
    obtain ⟨kv, hkv, hc⟩ := List.mem_flatMap.mp hc
    exact (h kv hkv).ne_zero c hc
  have hkeys : ∀ kv ∈ bootconfig, ∀ c ∈ kv.1, c ≠ equals ∧ c ≠ quote ∧ c ≠ newline := by
    intro kv hkv c hc
    obtain ⟨hequals, hquote, hnewline, -⟩ := (h kv hkv).key c hc
    exact ⟨hequals, hquote, hnewline⟩
  have hvalues : ∀ kv ∈ bootconfig, ∀ c ∈ kv.2, c ≠ quote := fun kv hkv c hc => ((h kv hkv).value c hc).1
  have hnul : ([0] ++ behind : Text).takeWhile (· ≠ 0) = [] := rfl
  rw [flattenBootconfig_eq, List.append_assoc, List.takeWhile_append_of_pos (by simpa using htext), hnul,
    List.append_nil, readProperties, read_lines hkeys hvalues]
  rfl

/-! ### The trailer -/

theorem alignBootconfig_eq (srcSize : UInt64) (blob : Text) :
    ∃ padding, alignBootconfig srcSize blob = blob ++ padding ∧
      (srcSize.toNat + (alignBootconfig srcSize blob).length) % 4 = 0 := by
  have hunaligned : ((srcSize + UInt64.ofNat blob.length) % kBootconfigAlign).toNat =
      (srcSize.toNat + blob.length) % 4 := by
    rw [UInt64.toNat_mod, UInt64.toNat_add, UInt64.toNat_ofNat']
    show (srcSize.toNat + blob.length % 18446744073709551616) % 18446744073709551616 % 4 = _
    omega
  unfold alignBootconfig
  dsimp only
  split
  · next h =>
    refine ⟨_, rfl, ?_⟩
    have hle : (srcSize + UInt64.ofNat blob.length) % kBootconfigAlign ≤ kBootconfigAlign := by
      rw [UInt64.le_iff_toNat_le, hunaligned]
      show _ ≤ 4
      omega
    have hne : ((srcSize + UInt64.ofNat blob.length) % kBootconfigAlign).toNat ≠ 0 :=
      fun hzero => h (UInt64.toNat_inj.mp hzero)
    rw [List.length_append, List.length_replicate, UInt64.toNat_sub_of_le _ _ hle, hunaligned]
    rw [hunaligned] at hne
    show (srcSize.toNat + (blob.length + (4 - (srcSize.toNat + blob.length) % 4))) % 4 = 0
    omega
  · next h =>
    refine ⟨[], (List.append_nil _).symm, ?_⟩
    rw [← hunaligned, not_not.mp h]
    rfl

theorem le32_host2le32 (v32 : UInt32) : le32 (host2le32 v32) = v32.toNat := by
  have hv := v32.toNat_lt
  simp only [le32, host2le32, UInt32.toNat_toUInt8, UInt32.toNat_shiftRight, UInt32.reduceToNat,
    Nat.shiftRight_eq_div_pow, Nat.reduceMod, Nat.reducePow] at hv ⊢
  omega

theorem csum_toNat (blob : Text) (z : UInt32) :
    (blob.foldl (fun z c => z + c.toUInt32) z).toNat = (z.toNat + (blob.map UInt8.toNat).sum) % 4294967296 := by
  induction blob generalizing z with
  | nil =>
    have hz := z.toNat_lt
    simp only [List.foldl_nil, List.map_nil, List.sum_nil, Nat.add_zero]
    omega
  | cons c blob ih =>
    rw [List.foldl_cons, ih, UInt32.toNat_add, UInt8.toNat_toUInt32, List.map_cons, List.sum_cons]
    omega

theorem le32_size {body : Text} (hlength : body.length < 4294967296) :
    le32 (host2le32 (UInt32.ofNat body.length)) = body.length := by
  rw [le32_host2le32, UInt32.toNat_ofNat']
  exact Nat.mod_eq_of_lt hlength

theorem le32_csum (body : Text) : le32 (host2le32 (body.foldl (fun z c => z + c.toUInt32) 0)) =
    (body.map UInt8.toNat).sum % 4294967296 := by
  rw [le32_host2le32, csum_toNat, UInt32.toNat_zero, Nat.zero_add]

/-- The bytes that are kept free for the two fields. -/
theorem storeLe32_fields (size csum : UInt32) (body : Text) :
    storeLe32 size (body ++ List.replicate 8 plus) body.length =
        body ++ host2le32 size ++ List.replicate 4 plus ∧
      storeLe32 csum (body ++ host2le32 size ++ List.replicate 4 plus) (body.length + 4) =
        body ++ host2le32 size ++ host2le32 csum := by
  have hlength : (body ++ host2le32 size).length = body.length + 4 := List.length_append
  constructor
  · rw [storeLe32, List.take_left, List.drop_append]
    simp
  · rw [storeLe32, ← hlength, List.take_left, List.drop_append]
    simp

theorem buildBootconfigBlob_eq (srcSize : UInt64) (bootconfig : List (Text × Text)) :
    let body := alignBootconfig srcSize (flattenBootconfig bootconfig)
    buildBootconfigBlob srcSize bootconfig = body ++ host2le32 (UInt32.ofNat body.length) ++
      host2le32 (body.foldl (fun z c => z + c.toUInt32) 0) ++ kBootconfigMagic := by
  unfold buildBootconfigBlob
  dsimp only
  generalize alignBootconfig srcSize (flattenBootconfig bootconfig) = body
  obtain ⟨hsize, hcsum⟩ := storeLe32_fields (UInt32.ofNat body.length) (body.foldl (fun z c => z + c.toUInt32) 0) body
  have hfirst : (body ++ List.replicate 8 plus).length - 8 = body.length := by simp
  have hsecond : (body ++ host2le32 (UInt32.ofNat body.length) ++ List.replicate 4 plus).length - 4 =
      body.length + 4 := by simp [host2le32]
  rw [hfirst, hsize, hsecond, hcsum]

/-- **The trailer of the boot configuration.** Ramdisk and padded text are aligned, the fields hold the size and
the checksum of the padded text, the magic word comes last, and the text reads as the properties. -/
theorem bootconfig_trailer (srcSize : UInt64) (bootconfig : List (Text × Text))
    (hwritable : ∀ kv ∈ bootconfig, Writable kv)
    (hlength : (alignBootconfig srcSize (flattenBootconfig bootconfig)).length < 4294967296) :
    let body := alignBootconfig srcSize (flattenBootconfig bootconfig)
    ∃ size csum, buildBootconfigBlob srcSize bootconfig = body ++ size ++ csum ++ kBootconfigMagic ∧
      (srcSize.toNat + body.length) % 4 = 0 ∧
      size.length = 4 ∧ le32 size = body.length ∧
      csum.length = 4 ∧ le32 csum = (body.map UInt8.toNat).sum % 4294967296 ∧
      kBootconfigMagic.length = 12 ∧
      readProperties (body.takeWhile (· ≠ 0)) = some bootconfig := by
  obtain ⟨padding, hbody, haligned⟩ := alignBootconfig_eq srcSize (flattenBootconfig bootconfig)
  refine ⟨_, _, buildBootconfigBlob_eq srcSize bootconfig, haligned, rfl, ?_, rfl, ?_, rfl, ?_⟩
  · exact le32_size hlength
  · exact le32_csum _
  · rw [hbody]
    exact read_flattenBootconfig hwritable padding

/-- A value with `=`, a newline and a byte beyond 127 in it. -/
def oneProperty : List (Text × Text) :=
  [(['k'.toUInt8], [equals, newline, 0xFF])]

theorem one_property_trailer : ∃ size csum,
    buildBootconfigBlob 2 oneProperty =
      ['k'.toUInt8, equals, quote, equals, newline, 0xFF, quote, newline, 0, plus] ++ size ++ csum ++
        kBootconfigMagic ∧
    le32 size = 10 ∧ le32 csum = 615 := by
  have hwritable : ∀ kv ∈ oneProperty, Writable kv := by
    intro kv hkv
    obtain rfl := List.mem_singleton.mp hkv
    refine ⟨?_, ?_⟩ <;> rw [List.forall_mem_cons]
    · exact ⟨by decide, List.forall_mem_nil _⟩
    · rw [List.forall_mem_cons, List.forall_mem_singleton]
      decide
  have hbody : alignBootconfig 2 (flattenBootconfig oneProperty) =
      ['k'.toUInt8, equals, quote, equals, newline, 0xFF, quote, newline, 0, plus] := rfl
  have hlength : (alignBootconfig 2 (flattenBootconfig oneProperty)).length < 4294967296 := by
    rw [hbody]
    decide
  obtain ⟨size, csum, hblob, -, -, hsize, -, hcsum, -⟩ := bootconfig_trailer 2 oneProperty hwritable hlength
  rw [hbody] at hblob hsize hcsum
  exact ⟨size, csum, hblob, hsize, hcsum⟩

/-! ### The ramdisk -/

/-- The file that `createRamdiskWithBootconfig` writes. -/
def ramdiskWithBootconfig (srcRamdisk : Text) (bootconfig : List (Text × Text)) : Text :=
  srcRamdisk ++ buildBootconfigBlob (UInt64.ofNat srcRamdisk.length) bootconfig

/-- What a boot loader finds at the end of a ramdisk. -/
def findBootconfig (ramdisk : Text) : Option (List (Text × Text)) :=
  let rest := ramdisk.length - 20
  let trailer := ramdisk.drop rest
  let size := le32 (trailer.take 4)
  let csum := le32 ((trailer.drop 4).take 4)
  let body := (ramdisk.take rest).drop (rest - size)
  if trailer.drop 8 = kBootconfigMagic ∧ csum = (body.map UInt8.toNat).sum % 4294967296 then
    readProperties (body.takeWhile (· ≠ 0))
  else none

theorem findBootconfig_trailer {before body size csum : Text} (hsize : size.length = 4)
    (hbody : le32 size = body.length) (hlength : csum.length = 4)
    (hcsum : le32 csum = (body.map UInt8.toNat).sum % 4294967296) :
    findBootconfig (before ++ (body ++ size ++ csum ++ kBootconfigMagic)) =
      readProperties (body.takeWhile (· ≠ 0)) := by
  have hramdisk : before ++ (body ++ size ++ csum ++ kBootconfigMagic) =
      before ++ body ++ (size ++ (csum ++ kBootconfigMagic)) := by simp only [List.append_assoc]
  have hrest : (before ++ body ++ (size ++ (csum ++ kBootconfigMagic))).length - 20 = (before ++ body).length := by
    have hmagic : kBootconfigMagic.length = 12 := rfl
    simp only [List.length_append, hsize, hlength, hmagic]
    omega
  have hstart : (before ++ body).length - body.length = before.length := by simp
  have htrailer : (size ++ (csum ++ kBootconfigMagic)).take 4 = size := List.take_left' hsize
  have hfield : (size ++ (csum ++ kBootconfigMagic)).drop 4 = csum ++ kBootconfigMagic := List.drop_left' hsize
  have hmagic : (size ++ (csum ++ kBootconfigMagic)).drop 8 = kBootconfigMagic := by
    rw [← List.append_assoc]
    exact List.drop_left' (by rw [List.length_append, hsize, hlength])
  rw [hramdisk, findBootconfig, hrest, List.drop_left, List.take_left, htrailer, hfield, hmagic,
    List.take_left' hlength, hbody, hstart, List.drop_left, if_pos ⟨rfl, hcsum⟩]

/-- The properties are found in the written ramdisk, whatever its contents. -/
theorem findBootconfig_ramdisk (srcRamdisk : Text) {bootconfig : List (Text × Text)}
    (hwritable : ∀ kv ∈ bootconfig, Writable kv)
    (hlength :
      (alignBootconfig (UInt64.ofNat srcRamdisk.length) (flattenBootconfig bootconfig)).length < 4294967296) :
    findBootconfig (ramdiskWithBootconfig srcRamdisk bootconfig) = some bootconfig := by
  obtain ⟨padding, hbody, -⟩ := alignBootconfig_eq (UInt64.ofNat srcRamdisk.length) (flattenBootconfig bootconfig)
  rw [ramdiskWithBootconfig, buildBootconfigBlob_eq,
    findBootconfig_trailer rfl (le32_size hlength) rfl (le32_csum _), hbody]
  exact read_flattenBootconfig hwritable padding

end Goldfish.Launcher
