import Goldfish.Files.Contents
import Goldfish.Files.Update
import Goldfish.Lib.CStrings

/-!
# Goldfish.Files.RoundTrip

**What is written is read back** (`write_read_round_trip`), for the object of any
sequence of reads and settings of proper keys and values: a fresh object that reads the
file has the same map and the same order. The order list has each key once, by its
first insertion.

The invariant of the run is `WellFormed`, beside a record of the keys that were
inserted since the object was last cleared (`insertions`). Comments do not take part:
they come back as comments, and nothing here depends on them.
-/

namespace Goldfish.Files

open Goldfish.Lib

/-! ### Proper keys and values -/

/-- The keys of the form `[A-Za-z_][A-Za-z0-9_.-]*`. -/
def ProperKey : Text → Prop
  | [] => False
  | c :: cs =>
    ('A'.toUInt8 ≤ c ∧ c ≤ 'Z'.toUInt8 ∨ 'a'.toUInt8 ≤ c ∧ c ≤ 'z'.toUInt8 ∨ c = '_'.toUInt8) ∧
      ∀ d ∈ cs, 'A'.toUInt8 ≤ d ∧ d ≤ 'Z'.toUInt8 ∨ 'a'.toUInt8 ≤ d ∧ d ≤ 'z'.toUInt8 ∨
        '0'.toUInt8 ≤ d ∧ d ≤ '9'.toUInt8 ∨ d = '_'.toUInt8 ∨ d = '.'.toUInt8 ∨ d = '-'.toUInt8

/-- The values without line ends and NUL that neither start nor end with a space or a tab. -/
structure ProperValue (value : Text) : Prop where
  chars : ∀ c ∈ value, c ≠ '\r'.toUInt8 ∧ c ≠ '\n'.toUInt8 ∧ c ≠ 0
  head : ∀ c, value.head? = some c → c ≠ ' '.toUInt8 ∧ c ≠ '\t'.toUInt8
  last : ∀ c, value.getLast? = some c → c ≠ ' '.toUInt8 ∧ c ≠ '\t'.toUInt8

theorem isKeyStartChar_iff {c : UInt8} : isKeyStartChar c = true ↔
    'A'.toUInt8 ≤ c ∧ c ≤ 'Z'.toUInt8 ∨ 'a'.toUInt8 ≤ c ∧ c ≤ 'z'.toUInt8 ∨ c = '_'.toUInt8 := by
  have hlt := c.toNat_lt
  simp [isKeyStartChar, Char.toUInt8, UInt8.lt_iff_toNat_lt, UInt8.le_iff_toNat_le, ← UInt8.toNat_inj, UInt8.toNat_sub]
  omega

theorem isKeyChar_iff {c : UInt8} : isKeyChar c = true ↔
    'A'.toUInt8 ≤ c ∧ c ≤ 'Z'.toUInt8 ∨ 'a'.toUInt8 ≤ c ∧ c ≤ 'z'.toUInt8 ∨
      '0'.toUInt8 ≤ c ∧ c ≤ '9'.toUInt8 ∨ c = '_'.toUInt8 ∨ c = '.'.toUInt8 ∨ c = '-'.toUInt8 := by
  have hlt := c.toNat_lt
  rw [isKeyChar, Bool.or_eq_true, Bool.or_eq_true, Bool.or_eq_true, isKeyStartChar_iff]
  simp [Char.toUInt8, UInt8.lt_iff_toNat_lt, UInt8.le_iff_toNat_le, ← UInt8.toNat_inj, UInt8.toNat_sub]
  omega

theorem ProperKey.valid {key : Text} (h : ProperKey key) : ValidKey key := by
  cases key with
  | nil => exact h.elim
  | cons c cs => exact ⟨isKeyStartChar_iff.mpr h.1, fun d hd => isKeyChar_iff.mpr (h.2 d hd)⟩

theorem ProperValue.stored {value : Text} (h : ProperValue value) : StoredValue value := by
  refine ⟨?_, ?_, ?_⟩
  · intro c hc
    obtain ⟨hr, hn, -⟩ := h.chars c hc
    simp [isValueChar, hr, hn]
  · intro c hc
    obtain ⟨hspace, htab⟩ := h.head c hc
    obtain ⟨hr, -⟩ := h.chars c (List.mem_of_mem_head? hc)
    simp [isSpaceChar, hspace, htab, hr]
  · rw [List.rdropWhile_eq_self_iff]
    intro hne
    obtain ⟨hspace, htab⟩ := h.last _ (List.getLast?_eq_some_getLast hne)
    obtain ⟨hr, -⟩ := h.chars _ (List.getLast_mem hne)
    simp [isSpaceChar, hspace, htab, hr]

/-- Such a value is passed on whole. -/
theorem cString_eq {value : Text} (h : ProperValue value) : cString value = value :=
  cString_of_not_mem fun hnul => (h.chars 0 hnul).2.2 rfl

/-- Texts without any space or line end. -/
theorem storedValue_of_chars {value : Text}
    (h : ∀ c ∈ value, isValueChar c = true ∧ isSpaceChar c = false) : StoredValue value := by
  refine ⟨fun c hc => (h c hc).1, fun c hc => (h c (List.mem_of_mem_head? hc)).2, ?_⟩
  rw [List.rdropWhile_eq_self_iff]
  intro hne
  simp [(h _ (List.getLast_mem hne)).2]

theorem stored_of_isdigit {c : UInt8} (h : isdigit c = true) : isValueChar c = true ∧ isSpaceChar c = false := by
  have hlow := (isdigit_iff.mp h).1
  have hne : ∀ d : UInt8, d.toNat < 48 → c ≠ d := by
    intro d hd heq
    exact absurd (heq ▸ hlow) (Nat.not_le.mpr hd)
  have hr := hne '\r'.toUInt8 (by decide)
  have hn := hne '\n'.toUInt8 (by decide)
  have hspace := hne ' '.toUInt8 (by decide)
  have htab := hne '\t'.toUInt8 (by decide)
  simp [isValueChar, isSpaceChar, hr, hn, hspace, htab]

theorem to_string_chars (n : Int) : ∀ c ∈ to_string n, isValueChar c = true ∧ isSpaceChar c = false := by
  have hdigits : ∀ c ∈ (Nat.toDigits 10 n.natAbs).map Char.toUInt8,
      isValueChar c = true ∧ isSpaceChar c = false := fun c hc => stored_of_isdigit (isdigit_toDigits hc)
  intro c hc
  unfold to_string at hc
  dsimp only at hc
  split at hc
  · rcases List.mem_cons.mp hc with rfl | hc
    · decide
    · exact hdigits c hc
  · exact hdigits c hc

theorem storedValue_to_string (n : Int) : StoredValue (to_string n) := storedValue_of_chars (to_string_chars n)

theorem storedValue_diskSizeText (value : UInt64) : StoredValue (diskSizeText value) := by
  have hunit : ∀ (n : Int) (unit : UInt8), isValueChar unit = true ∧ isSpaceChar unit = false →
      StoredValue (to_string n ++ [unit]) := by
    intro n unit hunit
    refine storedValue_of_chars fun c hc => ?_
    rcases List.mem_append.mp hc with hc | hc
    · exact to_string_chars n c hc
    · exact (List.mem_singleton.mp hc) ▸ hunit
  unfold diskSizeText
  split
  · exact hunit _ _ (by decide)
  · split
    · exact hunit _ _ (by decide)
    · split
      · exact hunit _ _ (by decide)
      · exact storedValue_to_string _

/-- The text of a string or of a double has to be proper; the other texts always are. -/
def Setter.Proper : Setter → Prop
  | .setString value => ProperValue value
  | .setDouble text => ProperValue text
  | _ => True

theorem Setter.Proper.stored {setter : Setter} (h : setter.Proper) : StoredValue setter.text := by
  cases setter with
  | setString value =>
    rw [Setter.text, cString_eq h]
    exact ProperValue.stored h
  | setInt value => exact storedValue_to_string _
  | setInt64 value => exact storedValue_to_string _
  | setDouble text => exact ProperValue.stored h
  | setBool value =>
    refine storedValue_of_chars ?_
    cases value <;> decide +kernel
  | setDiskSize value => exact storedValue_diskSizeText value

/-! ### Runs -/

/-- What can be done with the object before it is written. -/
inductive Op where
  | read (keepComments : Bool) (dir : Directory)
  | readFromMemory (data : Text)
  | setBackingFile (filePath : Text)
  | set (key : Text) (setter : Setter)

/-- One operation. -/
def IniFile.step (ini : IniFile) : Op → IniFile
  | .read keepComments dir => (ini.read keepComments dir).2
  | .readFromMemory data => ini.readFromMemory data
  | .setBackingFile filePath => ini.setBackingFile filePath
  | .set key setter => ini.set key setter

/-- A new object after some operations. -/
def run (path : Text) (ops : List Op) : IniFile := ops.foldl IniFile.step (IniFile.new path)

/-- Keys and values that are set are proper. What is read is not restricted. -/
def Op.Proper : Op → Prop
  | .set key setter => ProperKey key ∧ setter.Proper
  | _ => True

/-- The keys that the entries of a text insert. -/
def insertedKeys (data : Text) : List Text := (entries (lines newline data)).map Prod.fst

/-- The record of inserted keys after one more step. Reading starts it anew. -/
def IniFile.logStep (ini : IniFile) (log : List Text) : Op → List Text
  | .read _ dir =>
    match ini.input dir with
    | none => []
    | some data => insertedKeys data
  | .readFromMemory data => insertedKeys data
  | .setBackingFile _ => log
  | .set key _ => log ++ [key]

/-- The keys that were inserted since the object was last cleared, in order and with repetitions. -/
def insertions (ini : IniFile) (log : List Text) : List Op → List Text
  | [] => log
  | op :: ops => insertions (ini.step op) (ini.logStep log op) ops

theorem parseStream_order (ini : IniFile) (data : Text) (keepComments : Bool) :
    (ini.clear.parseStream data keepComments).mOrderList = firstOccurrences (insertedKeys data) := by
  rw [IniFile.parseStream, parseLines_eq]
  exact emplaceAll_firstOccurrences [] (wellFormed_clear ini) entries_valid rfl

/-- One step keeps the invariant and the order. -/
theorem step_wellFormed {ini : IniFile} {log : List Text} {op : Op} (h : ini.WellFormed)
    (hlog : ini.mOrderList = firstOccurrences log) (hop : op.Proper) :
    (ini.step op).WellFormed ∧ (ini.step op).mOrderList = firstOccurrences (ini.logStep log op) := by
  cases op with
  | read keepComments dir =>
    unfold IniFile.step IniFile.read IniFile.logStep
    dsimp only
    cases ini.input dir with
    | none => exact ⟨wellFormed_clear ini, rfl⟩
    | some data => exact ⟨(wellFormed_clear ini).parseStream data keepComments, parseStream_order ..⟩
  | readFromMemory data => exact ⟨(wellFormed_clear ini).parseStream data true, parseStream_order ..⟩
  | setBackingFile filePath => exact ⟨⟨h.nodup, h.mem_iff, h.valid, h.comments⟩, hlog⟩
  | set key setter =>
    have hdirty : { ini with mDirty := true }.WellFormed := ⟨h.nodup, h.mem_iff, h.valid, h.comments⟩
    have hentry : ∀ e ∈ [(key, setter.text)], ValidKey e.1 ∧ StoredValue e.2 := by
      intro e he
      rw [List.mem_singleton.mp he]
      exact ⟨hop.1.valid, hop.2.stored⟩
    exact ⟨hdirty.emplaceAll hentry, emplaceAll_firstOccurrences log hdirty hentry hlog⟩

theorem foldl_wellFormed {ops : List Op} (hops : ∀ op ∈ ops, op.Proper) {ini : IniFile} (log : List Text)
    (h : ini.WellFormed) (hlog : ini.mOrderList = firstOccurrences log) :
    (ops.foldl IniFile.step ini).WellFormed ∧
      (ops.foldl IniFile.step ini).mOrderList = firstOccurrences (insertions ini log ops) := by
  induction ops generalizing ini log with
  | nil => exact ⟨h, hlog⟩
  | cons op ops ih =>
    obtain ⟨hstep, horder⟩ := step_wellFormed h hlog (hops op List.mem_cons_self)
    exact ih (fun op' hop' => hops op' (List.mem_cons_of_mem op hop')) _ hstep horder

/-! ### Writing and reading back -/

/-- The entries that are printed. -/
def keptData (discardEmpty : Bool) (mData : Text → Option Text) (key : Text) : Option Text :=
  (mData key).filter fun value => !(discardEmpty && value.isEmpty)

section Printed

variable {ini : IniFile} (h : ini.WellFormed) (discardEmpty : Bool)

include h

theorem IniFile.WellFormed.stored (key : Text) : StoredValue ((ini.mData key).getD []) := by
  cases hkey : ini.mData key with
  | none => exact storedValue_nil
  | some value => exact (h.valid key value hkey).2

theorem IniFile.WellFormed.validKey {key : Text} (hkey : key ∈ ini.mOrderList) : ValidKey key := by
  obtain ⟨value, hvalue⟩ := Option.isSome_iff_exists.mp ((h.mem_iff key).mp hkey)
  exact (h.valid key value hvalue).1

/-- The printed text is cut into the lines it was made of. -/
theorem lines_print :
    lines newline (ini.print discardEmpty) =
      writeLines discardEmpty ini.mData ini.mOrderList ini.mComments 0 := by
  refine lines_unlines fun line hline => ?_
  rcases writeLines_lines hline with ⟨c, hc, rfl⟩ | ⟨key, hkey, rfl⟩
  · exact (h.comments c hc).2
  · exact newline_not_mem_entryLine (h.validKey hkey) (h.stored key)

theorem entries_print :
    entries (lines newline (ini.print discardEmpty)) =
      (keptKeys discardEmpty ini.mData ini.mOrderList).map fun key => (key, (ini.mData key).getD []) := by
  rw [lines_print h]
  exact writeLines_entries (fun key hkey => h.validKey hkey) h.stored fun c hc => (h.comments c hc).1

theorem keptData_eq (key : Text) :
    (if key ∈ keptKeys discardEmpty ini.mData ini.mOrderList then some ((ini.mData key).getD [])
      else none) = keptData discardEmpty ini.mData key := by
  rw [keptData]
  cases hkey : ini.mData key with
  | none =>
    have hmem : key ∉ ini.mOrderList := fun hmem => by simpa [hkey] using (h.mem_iff key).mp hmem
    simp [keptKeys, hmem]
  | some value =>
    have hmem : key ∈ ini.mOrderList := (h.mem_iff key).mpr (by simp [hkey])
    simp only [keptKeys, List.mem_filter, hmem, hkey, true_and, Option.getD_some, Option.filter_some]

/-- **A cleared object that parses what was printed** has the kept entries in the kept order. -/
theorem parseStream_print (fresh : IniFile) (keepComments : Bool) :
    (fresh.clear.parseStream (ini.print discardEmpty) keepComments).mData =
        keptData discardEmpty ini.mData ∧
      (fresh.clear.parseStream (ini.print discardEmpty) keepComments).mOrderList =
        keptKeys discardEmpty ini.mData ini.mOrderList := by
  rw [IniFile.parseStream, parseLines_eq, entries_print h]
  refine ⟨funext fun key => ?_, ?_⟩
  · rw [← keptData_eq h]
    exact emplaceAll_mData (fun k => (ini.mData k).getD []) key
  · have hfst : ((keptKeys discardEmpty ini.mData ini.mOrderList).map
        fun key => (key, (ini.mData key).getD [])).map Prod.fst =
        keptKeys discardEmpty ini.mData ini.mOrderList := by
      simp [Function.comp_def]
    have hnodup := h.nodup.filter fun key => !(discardEmpty && ((ini.mData key).getD []).isEmpty)
    rw [← keptKeys, ← hfst] at hnodup
    have horder := emplaceAll_mOrderList fresh.clear hnodup fun _ _ => rfl
    rw [hfst] at horder
    exact horder

end Printed

theorem read_of_contents {ini : IniFile} {dir : Directory} {data : Text} (hpath : ini.mBackingFilePath ≠ [])
    (hdata : dir ini.mBackingFilePath = some data) (hsize : data.length ≤ kMaxIniFileSize)
    (keepComments : Bool) : ini.read keepComments dir = (true, ini.clear.parseStream data keepComments) := by
  have hinput : ini.input dir = some data := by
    rw [IniFile.input, if_neg hpath, hdata]
    exact if_neg (Nat.not_lt.mpr hsize)
  rw [IniFile.read, hinput]

/-- **Round trip.** After any reads and proper settings, the order list has every key of the map exactly
once, by first insertion; and after a write that succeeds, of a text within the limit, a fresh object that
reads the backing file has the same entries in the same order. Where empty values are discarded, that holds
of the entries that are not empty. -/
theorem write_read_round_trip (path : Text) (ops : List Op) (hops : ∀ op ∈ ops, op.Proper) :
    let ini := run path ops
    (ini.mOrderList.Nodup ∧ (∀ key, key ∈ ini.mOrderList ↔ (ini.mData key).isSome) ∧
      ini.mOrderList = firstOccurrences (insertions (IniFile.new path) [] ops)) ∧
    ∀ (discardEmpty : Bool) (faults : Faults) (dir : Directory),
      (ini.writeCommon discardEmpty faults dir).1 = true →
      (ini.print discardEmpty).length ≤ kMaxIniFileSize → ∀ keepComments,
        let fresh := (IniFile.new ini.mBackingFilePath).read keepComments
          (ini.writeCommon discardEmpty faults dir).2.2
        fresh.1 = true ∧ fresh.2.mData = keptData discardEmpty ini.mData ∧
          fresh.2.mOrderList = keptKeys discardEmpty ini.mData ini.mOrderList := by
  obtain ⟨hwf, horder⟩ := foldl_wellFormed hops [] (wellFormed_new path) rfl
  refine ⟨⟨hwf.nodup, hwf.mem_iff, horder⟩, ?_⟩
  intro discardEmpty faults dir hwritten hsize keepComments
  have hbacking := path_of_writeCommon hwritten
  have hpath : (IniFile.new (run path ops).mBackingFilePath).mBackingFilePath ≠ [] := hbacking
  have hcontents := (writeCommon_of_true hwritten).1
  dsimp only
  rw [read_of_contents hpath hcontents hsize]
  obtain ⟨hdata, hkeys⟩ := parseStream_print hwf discardEmpty
    (IniFile.new (run path ops).mBackingFilePath) keepComments
  exact ⟨rfl, hdata, hkeys⟩

/-- A value with the marks of an entry and of a comment in it, written without any fault. -/
theorem marks_round_trip :
    let ini := run ['f'.toUInt8] [.set ['k'.toUInt8] (.setString (['=', ' ', ';', '#', '%'].map Char.toUInt8))]
    ((IniFile.new ['f'.toUInt8]).read true
      (ini.writeCommon false ⟨true, true, true, true⟩ fun _ => none).2.2).2.mData ['k'.toUInt8] =
        some (['=', ' ', ';', '#', '%'].map Char.toUInt8) := by
  have hproper : ∀ op ∈ [Op.set ['k'.toUInt8] (.setString (['=', ' ', ';', '#', '%'].map Char.toUInt8))],
      op.Proper := by
    intro op hop
    rw [List.mem_singleton.mp hop]
    exact ⟨⟨by decide, by simp⟩, ⟨by decide +kernel, by decide +kernel, by decide +kernel⟩⟩
  have h := (write_read_round_trip ['f'.toUInt8] _ hproper).2 false ⟨true, true, true, true⟩ (fun _ => none)
    (by decide) (by decide) true
  exact (congrFun h.2.1 _).trans (by decide)

end Goldfish.Files
