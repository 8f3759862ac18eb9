import Goldfish.Files.IniFile

/-!
# Goldfish.Files.Lines

What reading and printing say of **one line**. An entry that was parsed or set with a
proper key and value has a line that parses back to it (`parseLine_entryLine`), and
whatever a line parses to is such an entry (`parseLine_valid`): the value has lost its
spaces at both ends and has no line end inside.

`WellFormed` is what holds of every object: the order list has the keys of the map
once each, every entry is proper, and the comments are lines that parse to comments.
-/

namespace Goldfish.Files

open Goldfish.Lib

/-! ### Keys and values -/

/-- The keys that can be read: `[A-Za-z_][A-Za-z0-9_.-]*`. -/
def ValidKey : Text → Prop
  | [] => False
  | c :: cs => isKeyStartChar c = true ∧ ∀ d ∈ cs, isKeyChar d = true

/-- The values that can be read: without line ends, and without spaces at either end. -/
structure StoredValue (value : Text) : Prop where
  chars : ∀ c ∈ value, isValueChar c = true
  head : Starts isSpaceChar value
  last : value.rdropWhile isSpaceChar = value

theorem storedValue_nil : StoredValue [] := ⟨by simp, starts_nil, rfl⟩

theorem isKeyChar_of_isKeyStartChar {c : UInt8} (h : isKeyStartChar c = true) : isKeyChar c = true := by
  simp [isKeyChar, h]

/-- A key has no space, no `=` and no line end in it. -/
theorem isKeyChar_ne {c d : UInt8} (h : isKeyChar c = true) (hd : isKeyChar d = false) : c ≠ d := by
  intro heq
  rw [heq, hd] at h
  exact Bool.false_ne_true h

theorem isKeyStartChar_not_space {c : UInt8} (h : isKeyStartChar c = true) : isSpaceChar c = false := by
  have hkey := isKeyChar_of_isKeyStartChar h
  have h₁ := isKeyChar_ne hkey (show isKeyChar ' '.toUInt8 = false by decide)
  have h₂ := isKeyChar_ne hkey (show isKeyChar '\r'.toUInt8 = false by decide)
  have h₃ := isKeyChar_ne hkey (show isKeyChar '\t'.toUInt8 = false by decide)
  simp [isSpaceChar, h₁, h₂, h₃]

theorem isKeyStartChar_not_mark {c : UInt8} (h : isKeyStartChar c = true) :
    ¬ (c = '#'.toUInt8 ∨ c = ';'.toUInt8) := by
  have hkey := isKeyChar_of_isKeyStartChar h
  have h₁ := isKeyChar_ne hkey (show isKeyChar '#'.toUInt8 = false by decide)
  have h₂ := isKeyChar_ne hkey (show isKeyChar ';'.toUInt8 = false by decide)
  simp [h₁, h₂]

/-- A text without NUL is passed on as it is. -/
theorem cString_of_not_mem {value : Text} (h : 0 ∉ value) : cString value = value :=
  List.takeWhile_eq_self_iff.mpr fun _ hc => decide_eq_true fun heq => h (heq ▸ hc)

theorem not_mem_cString (value : Text) : 0 ∉ cString value := by
  intro h
  have hne := List.mem_takeWhile_imp (show 0 ∈ value.takeWhile (· ≠ 0) from h)
  simp at hne

/-! ### The line of an entry -/

theorem parseValue_stored {key value : Text} (h : StoredValue value) :
    parseValue key (' '.toUInt8 :: value) = .entry key value := by
  have hspace : isSpaceChar ' '.toUInt8 = true := by decide
  have htake : value.takeWhile isValueChar = value := List.takeWhile_eq_self_iff.mpr h.chars
  have hdrop : value.dropWhile isValueChar = [] := List.dropWhile_eq_nil_iff.mpr h.chars
  rw [parseValue, List.dropWhile_cons_of_pos hspace, h.head.dropWhile_eq, htake, hdrop, h.last]
  simp

/-- **The line of an entry parses to the entry.** -/
theorem parseLine_entryLine {key value : Text} (hkey : ValidKey key) (hvalue : StoredValue value) :
    parseLine (entryLine key value) = .entry key value := by
  cases key with
  | nil => exact hkey.elim
  | cons c cs =>
    obtain ⟨hc, hcs⟩ := hkey
    have hrest : Starts isKeyChar (' '.toUInt8 :: '='.toUInt8 :: ' '.toUInt8 :: value) := by
      rw [starts_cons]
      decide
    have hline : entryLine (c :: cs) value =
        c :: (cs ++ ' '.toUInt8 :: '='.toUInt8 :: ' '.toUInt8 :: value) := by
      simp [entryLine]
    have hequal : (' '.toUInt8 :: '='.toUInt8 :: ' '.toUInt8 :: value).dropWhile isSpaceChar =
        '='.toUInt8 :: ' '.toUInt8 :: value := by
      rw [List.dropWhile_cons_of_pos (by decide), List.dropWhile_cons_of_neg (by decide)]
    rw [hline, parseLine, List.dropWhile_cons_of_neg (by simp [isKeyStartChar_not_space hc])]
    dsimp only
    rw [if_neg (isKeyStartChar_not_mark hc), hc, takeWhile_append_starts hcs hrest,
      dropWhile_append_starts hcs hrest, hequal]
    exact parseValue_stored hvalue

theorem ValidKey.isKeyChar {key : Text} (hkey : ValidKey key) : ∀ d ∈ key, isKeyChar d = true := by
  cases key with
  | nil => exact hkey.elim
  | cons c cs =>
    intro d hd
    rcases List.mem_cons.mp hd with rfl | hd
    · exact isKeyChar_of_isKeyStartChar hkey.1
    · exact hkey.2 d hd

/-- The line of an entry has no line end in it. -/
theorem newline_not_mem_entryLine {key value : Text} (hkey : ValidKey key) (hvalue : StoredValue value) :
    newline ∉ entryLine key value := by
  intro hmem
  rw [entryLine, List.append_assoc, List.mem_append, List.mem_append] at hmem
  rcases hmem with hmem | hmem | hmem
  · exact absurd (hkey.isKeyChar _ hmem) (by decide)
  · exact absurd hmem (by decide)
  · exact absurd (hvalue.chars _ hmem) (by decide)

/-! ### What a line parses to -/

theorem storedValue_trimmed {rest : Text} (h : Starts isSpaceChar rest) :
    StoredValue ((rest.takeWhile isValueChar).rdropWhile isSpaceChar) := by
  have hinit := List.rdropWhile_prefix isSpaceChar (rest.takeWhile isValueChar)
  have hhead : Starts isSpaceChar (rest.takeWhile isValueChar) := by
    cases rest with
    | nil => exact starts_nil
    | cons a rest =>
      cases ha : isValueChar a with
      | false =>
        rw [List.takeWhile_cons_of_neg (by simp [ha])]
        exact starts_nil
      | true =>
        rw [List.takeWhile_cons_of_pos ha, starts_cons]
        exact starts_cons.mp h
  exact ⟨fun c hc => List.mem_takeWhile_imp (hinit.subset hc), hhead.rdropWhile,
    List.rdropWhile_idempotent ..⟩

theorem parseValue_valid {key rest k v : Text} (h : parseValue key rest = .entry k v) :
    k = key ∧ StoredValue v := by
  unfold parseValue at h
  dsimp only at h
  split at h
  · cases h
  · obtain ⟨rfl, rfl⟩ := Line.entry.inj h
    exact ⟨rfl, storedValue_trimmed (starts_dropWhile isSpaceChar rest)⟩

/-- **Whatever is read is proper.** -/
theorem parseLine_valid {line key value : Text} (h : parseLine line = .entry key value) :
    ValidKey key ∧ StoredValue value := by
  unfold parseLine at h
  split at h
  · cases h
  · rename_i c cs _
    split at h
    · cases h
    · split at h
      · cases h
      · rename_i hc
        have hstart : isKeyStartChar c = true := by simpa using hc
        dsimp only at h
        split at h
        · cases h
        · split at h
          · cases h
          · obtain ⟨rfl, hvalue⟩ := parseValue_valid h
            exact ⟨⟨hstart, fun d hd => List.mem_takeWhile_imp hd⟩, hvalue⟩

end Goldfish.Files
