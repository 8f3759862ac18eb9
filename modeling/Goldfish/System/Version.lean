import Goldfish.Lib.CStrings

/-!
# Goldfish.System.Version

Version numbers (`Version.cpp`): up to four components, read from a stream and printed.

The stream is one over a string: what is left of it, and its flags. A number is extracted
as `strtoull` takes it, with a sign in front, so what the constructor takes are up to four
`Numeral32`s with the delimiters between them (`ofString_of_spelled`, `spelled_of_ne`);
`Number` is what a component should look like.

`invalid` is the value that `Version::invalid` has. Only its first component is used.
-/

namespace Goldfish.System

open Goldfish.Lib

/-- `ComponentType`. -/
abbrev ComponentType := UInt32

/-- A component that is not given. -/
def kNone : ComponentType := 4294967295

/-- `Version`. -/
structure Version where
  major : ComponentType
  minor : ComponentType
  micro : ComponentType
  build : ComponentType
  deriving DecidableEq, Repr

namespace Version

/-! ### The stream -/

/-- An `istringstream` that skips no white space. -/
structure IStream where
  rest : List UInt8
  eofbit : Bool
  failbit : Bool
  deriving DecidableEq, Repr

namespace IStream

/-- `good`. -/
def good (stream : IStream) : Bool := !stream.eofbit && !stream.failbit

/-- The sentry of an extraction fails. -/
def refuse (stream : IStream) : IStream := { stream with failbit := true }

/-- `isEof`: whether anything is left, which may set the bit. -/
def isEof (stream : IStream) : Bool × IStream :=
  if stream.good then
    match stream.rest with
    | [] => (true, { stream with eofbit := true })
    | _ :: _ => (false, stream)
  else (true, stream.refuse)

/-- `in >> c`. -/
def getChar (stream : IStream) : Option UInt8 × IStream :=
  if stream.good then
    match stream.rest with
    | [] => (none, ⟨[], true, true⟩)
    | c :: rest => (some c, { stream with rest := rest })
  else (none, stream.refuse)

end IStream

/-- The number behind a sign, in 32 bits. -/
def narrow (sign : List UInt8) (n : Nat) : ComponentType :=
  if sign = ['-'.toUInt8] then 0 - UInt32.ofNat n else UInt32.ofNat n

/-- `in >> component`: a sign and digits, as far as there are any. -/
def IStream.getUnsigned (stream : IStream) : ComponentType × IStream :=
  if stream.good then
    let number := splitSign stream.rest
    let digits := number.2.takeWhile isdigit
    let rest := number.2.dropWhile isdigit
    if digits = [] then (0, ⟨rest, rest.isEmpty, true⟩)
    else if 4294967296 ≤ decimal digits then (kNone, ⟨rest, rest.isEmpty, true⟩)
    else (narrow number.1 (decimal digits), ⟨rest, rest.isEmpty, false⟩)
  else (0, stream.refuse)

/-! ### The constructor -/

/-- What stands before each component but the first. -/
def delimiters : List UInt8 := ['.'.toUInt8, '.'.toUInt8, '-'.toUInt8]

/-- Components that were not read are zero. -/
def ofComponents (components : List ComponentType) : Version :=
  ⟨components.getD 0 0, components.getD 1 0, components.getD 2 0, components.getD 3 0⟩

/-- The loop over the components behind the first one. -/
def readComponents (stream : IStream) (components : List ComponentType) :
    List UInt8 → Option (IStream × List ComponentType)
  | [] => some (stream, components)
  | delimiter :: delimiters =>
    let eof := stream.isEof
    if eof.1 then some (eof.2, components)
    else
      let c := eof.2.getChar
      let next := c.2.getUnsigned
      if c.1 ≠ some delimiter ∨ next.2.failbit then none
      else readComponents next.2 (components ++ [next.1]) delimiters

/-- The constructor; `none` is the null pointer. -/
def ofString (invalid : Version) (ver : Option (List UInt8)) : Version :=
  match ver with
  | none => invalid
  | some ver =>
    let first := (IStream.mk ver false false).getUnsigned
    if first.2.failbit then invalid
    else
      match readComponents first.2 [first.1] delimiters with
      | none => invalid
      | some (stream, components) => if stream.isEof.1 then ofComponents components else invalid

/-- `%u`. -/
def digits (n : ComponentType) : List UInt8 := (Nat.toDigits 10 n.toNat).map Char.toUInt8

/-- `toString`. A build of 0 is left out. -/
def toString (invalid v : Version) : List UInt8 :=
  if v = invalid then literal "invalid"
  else
    digits v.major ++ literal "." ++ digits v.minor ++ literal "." ++ digits v.micro ++
      if v.build ≠ kNone ∧ v.build ≠ 0 then literal "-" ++ digits v.build else []

/-! ### Numbers and texts -/

/-- A number as the stream takes it. -/
structure Numeral32 (text : List UInt8) : Prop where
  ne_nil : (splitSign text).2 ≠ []
  digits : ∀ c ∈ (splitSign text).2, isdigit c = true
  fits : decimal (splitSign text).2 < 4294967296

/-- The value that the stream takes it for. -/
def value (text : List UInt8) : ComponentType := narrow (splitSign text).1 (decimal (splitSign text).2)

/-- A number as a component should be. -/
structure Number (text : List UInt8) : Prop where
  ne_nil : text ≠ []
  digits : ∀ c ∈ text, isdigit c = true
  small : decimal text < 4294967295

/-- The components behind the first one, with the delimiters in front of them. -/
def spell : List UInt8 → List (List UInt8) → List UInt8
  | delimiter :: delimiters, part :: parts => delimiter :: (part ++ spell delimiters parts)
  | _, _ => []

/-- `N`, `N.N`, `N.N.N` or `N.N.N-N`. -/
structure Spelled (N : List UInt8 → Prop) (s first : List UInt8) (parts : List (List UInt8)) : Prop where
  length : parts.length ≤ 3
  text : s = first ++ spell delimiters parts
  numbers : ∀ part ∈ first :: parts, N part

/-- A text is valid exactly if it is a version, and then it is read as the numbers that are written there. -/
def ReadAsWritten (invalid : Version) (s : List UInt8) : Prop :=
  (ofString invalid (some s) ≠ invalid ↔ ∃ first parts, Spelled Number s first parts) ∧
    ∀ first parts, Spelled Number s first parts →
      ofString invalid (some s) = ofComponents ((first :: parts).map fun part => UInt32.ofNat (decimal part))

/-- No number of the text has a sign or is `kNone`; a text that is read as the invalid version may be of any
numbers. -/
def PlainNumbers (invalid : Version) (s : List UInt8) : Prop :=
  ∀ first parts, Spelled Numeral32 s first parts → ofComponents ((first :: parts).map value) ≠ invalid →
    ∀ part ∈ first :: parts, (splitSign part).1 = [] ∧ decimal part ≠ 4294967295

/-- A sign is taken off, whatever is behind the number. -/
theorem Numeral32.sign_append {text : List UInt8} (h : Numeral32 text) (rest : List UInt8) :
    splitSign (text ++ rest) = ((splitSign text).1, (splitSign text).2 ++ rest) := by
  cases text with
  | nil => exact absurd rfl h.ne_nil
  | cons c cs =>
    rw [List.cons_append, splitSign, splitSign]
    split <;> rfl

theorem Number.splitSign_eq {text : List UInt8} (h : Number text) : splitSign text = ([], text) := by
  obtain ⟨c, cs, rfl⟩ := List.exists_cons_of_ne_nil h.ne_nil
  exact splitSign_of_digit (h.digits c List.mem_cons_self)

theorem Number.numeral32 {text : List UInt8} (h : Number text) : Numeral32 text := by
  have hsplit := h.splitSign_eq
  exact ⟨by rw [hsplit]; exact h.ne_nil, by rw [hsplit]; exact h.digits,
    by rw [hsplit]; exact Nat.lt_succ_of_lt h.small⟩

theorem Number.value_eq {text : List UInt8} (h : Number text) : value text = UInt32.ofNat (decimal text) := by
  rw [value, h.splitSign_eq]
  rfl

/-- A numeral without a sign that is not the largest. -/
theorem Numeral32.number {text : List UInt8} (h : Numeral32 text) (hsign : (splitSign text).1 = [])
    (hvalue : decimal text ≠ 4294967295) : Number text := by
  have htext : (splitSign text).2 = text := by simpa [hsign] using splitSign_append text
  have hfits := h.fits
  rw [htext] at hfits
  exact ⟨htext ▸ h.ne_nil, htext ▸ h.digits, by omega⟩

/-! ### Extracting numbers -/

/-- The sign and the digits of a text, where there are digits. -/
theorem exists_numeral {rest : List UInt8} (hne : (splitSign rest).2.takeWhile isdigit ≠ [])
    (hfits : decimal ((splitSign rest).2.takeWhile isdigit) < 4294967296) :
    ∃ text, Numeral32 text ∧ rest = text ++ (splitSign rest).2.dropWhile isdigit := by
  have hsplit : splitSign ((splitSign rest).1 ++ (splitSign rest).2.takeWhile isdigit) =
      ((splitSign rest).1, (splitSign rest).2.takeWhile isdigit) := by
    obtain ⟨c, cs, hcs⟩ := List.exists_cons_of_ne_nil hne
    have hc : isdigit c = true := List.mem_takeWhile_imp (hcs ▸ List.mem_cons_self)
    rcases splitSign_cases rest with hsign | hsign | hsign
    · rw [hsign, List.nil_append, hcs]
      exact splitSign_of_digit hc
    · rw [hsign]
      rfl
    · rw [hsign]
      rfl
  refine ⟨(splitSign rest).1 ++ (splitSign rest).2.takeWhile isdigit, ⟨?_, ?_, ?_⟩, ?_⟩
  · rwa [hsplit]
  · rw [hsplit]
    exact fun c hc => List.mem_takeWhile_imp hc
  · rwa [hsplit]
  · rw [List.append_assoc, List.takeWhile_append_dropWhile, splitSign_append]

/-- A numeral is extracted up to its end. -/
theorem getUnsigned_append {text rest : List UInt8} (h : Numeral32 text) (hrest : Starts isdigit rest) :
    IStream.getUnsigned ⟨text ++ rest, false, false⟩ = (value text, ⟨rest, rest.isEmpty, false⟩) := by
  have hgood : (IStream.mk (text ++ rest) false false).good = true := rfl
  rw [IStream.getUnsigned, if_pos hgood]
  dsimp only
  rw [h.sign_append rest]
  dsimp only
  rw [takeWhile_append_starts h.digits hrest, dropWhile_append_starts h.digits hrest, if_neg h.ne_nil,
    if_neg (not_le.mpr h.fits)]
  rfl

/-- What is extracted is a numeral. -/
theorem getUnsigned_inv {rest : List UInt8} (h : (IStream.getUnsigned ⟨rest, false, false⟩).2.failbit = false) :
    ∃ text behind, rest = text ++ behind ∧ Numeral32 text ∧ Starts isdigit behind ∧
      IStream.getUnsigned ⟨rest, false, false⟩ = (value text, ⟨behind, behind.isEmpty, false⟩) := by
  have hgood : (IStream.mk rest false false).good = true := rfl
  rw [IStream.getUnsigned, if_pos hgood] at h
  dsimp only at h
  split at h
  · cases h
  rename_i hne
  split at h
  · cases h
  rename_i hfits
  obtain ⟨text, hnumeral, hrest⟩ := exists_numeral hne (not_le.mp hfits)
  have hstarts := starts_dropWhile isdigit (splitSign rest).2
  have heq := getUnsigned_append hnumeral hstarts
  rw [← hrest] at heq
  exact ⟨text, _, hrest, hnumeral, hstarts, heq⟩

/-! ### Reading a version -/

theorem starts_spell {delimiters : List UInt8} (h : ∀ d ∈ delimiters, isdigit d = false) (parts : List (List UInt8)) :
    Starts isdigit (spell delimiters parts) := by
  cases delimiters with
  | nil => exact starts_nil
  | cons d ds =>
    cases parts with
    | nil => exact starts_nil
    | cons part parts => exact starts_cons.mpr (h d List.mem_cons_self)

theorem isEof_iff (rest : List UInt8) : (IStream.mk rest rest.isEmpty false).isEof.1 = true ↔ rest = [] := by
  cases rest with
  | nil => exact iff_of_true rfl rfl
  | cons c rest => simp [IStream.isEof, IStream.good]

/-- A turn of the loop. -/
theorem readComponents_cons (c d : UInt8) (rest delimiters : List UInt8) (components : List ComponentType) :
    readComponents ⟨c :: rest, false, false⟩ components (d :: delimiters) =
      if c ≠ d ∨ (IStream.getUnsigned ⟨rest, false, false⟩).2.failbit = true then none
      else readComponents (IStream.getUnsigned ⟨rest, false, false⟩).2
        (components ++ [(IStream.getUnsigned ⟨rest, false, false⟩).1]) delimiters := by
  simp [readComponents, IStream.isEof, IStream.good, IStream.getChar]

/-- The loop reads what is spelled. -/
theorem readComponents_spell {delimiters : List UInt8} (hdelimiters : ∀ d ∈ delimiters, isdigit d = false)
    {parts : List (List UInt8)} (hlength : parts.length ≤ delimiters.length) (hparts : ∀ part ∈ parts, Numeral32 part)
    (components : List ComponentType) :
    ∃ stream, readComponents ⟨spell delimiters parts, (spell delimiters parts).isEmpty, false⟩ components delimiters =
      some (stream, components ++ parts.map value) ∧ stream.isEof.1 = true := by
  induction delimiters generalizing parts components with
  | nil =>
    obtain rfl : parts = [] := List.length_eq_zero_iff.mp (Nat.le_zero.mp hlength)
    exact ⟨_, by rw [List.map_nil, List.append_nil]; rfl, rfl⟩
  | cons d ds ih =>
    cases parts with
    | nil => exact ⟨_, by rw [List.map_nil, List.append_nil]; rfl, rfl⟩
    | cons part parts =>
      obtain ⟨stream, hread, heof⟩ := ih (fun e he => hdelimiters e (List.mem_cons_of_mem d he))
        (Nat.le_of_succ_le_succ hlength) (fun e he => hparts e (List.mem_cons_of_mem part he))
        (components ++ [value part])
      refine ⟨stream, ?_, heof⟩
      have hnumber := getUnsigned_append (hparts part List.mem_cons_self)
        (starts_spell (fun e he => hdelimiters e (List.mem_cons_of_mem d he)) parts)
      rw [spell, List.isEmpty_cons, readComponents_cons, hnumber, if_neg (by simp), hread, List.map_cons,
        List.append_assoc]
      rfl

/-- What the loop reads to the end is spelled. -/
theorem readComponents_inv {delimiters : List UInt8} {rest : List UInt8} {components read : List ComponentType}
    {stream : IStream}
    (hread : readComponents ⟨rest, rest.isEmpty, false⟩ components delimiters = some (stream, read))
    (heof : stream.isEof.1 = true) :
    ∃ parts, parts.length ≤ delimiters.length ∧ rest = spell delimiters parts ∧ (∀ part ∈ parts, Numeral32 part) ∧
      read = components ++ parts.map value := by
  induction delimiters generalizing rest components with
  | nil =>
    obtain ⟨rfl, rfl⟩ := Prod.mk.inj (Option.some.inj hread)
    exact ⟨[], Nat.le_refl _, (isEof_iff rest).mp heof, by simp, by simp⟩
  | cons d ds ih =>
    cases rest with
    | nil =>
      obtain ⟨-, rfl⟩ := Prod.mk.inj (Option.some.inj hread)
      exact ⟨[], Nat.zero_le _, rfl, by simp, by simp⟩
    | cons c rest =>
      rw [List.isEmpty_cons, readComponents_cons] at hread
      split at hread
      · cases hread
      · rename_i hok
        rw [not_or, not_not, Bool.not_eq_true] at hok
        obtain ⟨text, behind, rfl, hnumeral, hstarts, hnumber⟩ := getUnsigned_inv hok.2
        rw [hnumber] at hread
        obtain ⟨parts, hlength, hbehind, hparts, hvalues⟩ := ih hread
        refine ⟨text :: parts, Nat.succ_le_succ hlength, ?_, ?_, ?_⟩
        · rw [spell, hok.1, hbehind]
        · exact List.forall_mem_cons.mpr ⟨hnumeral, hparts⟩
        · rw [hvalues, List.append_assoc]
          rfl

theorem delimiters_not_digits : ∀ d ∈ delimiters, isdigit d = false := by decide +kernel

/-- Every text of numerals is read. -/
theorem ofString_of_spelled {invalid : Version} {s first : List UInt8} {parts : List (List UInt8)}
    (h : Spelled Numeral32 s first parts) :
    ofString invalid (some s) = ofComponents ((first :: parts).map value) := by
  have hfirst := getUnsigned_append (h.numbers first List.mem_cons_self)
    (starts_spell delimiters_not_digits parts)
  obtain ⟨stream, hread, heof⟩ := readComponents_spell delimiters_not_digits h.length
    (fun part hpart => h.numbers part (List.mem_cons_of_mem first hpart)) [value first]
  rw [← h.text] at hfirst
  rw [ofString, hfirst, if_neg (by simp), hread]
  dsimp only
  rw [if_pos heof]
  rfl

/-- Nothing else is. -/
theorem spelled_of_ne {invalid : Version} {s : List UInt8} (h : ofString invalid (some s) ≠ invalid) :
    ∃ first parts, Spelled Numeral32 s first parts := by
  rw [ofString] at h
  split at h
  · exact absurd rfl h
  · rename_i hok
    obtain ⟨first, behind, rfl, hnumeral, hstarts, hnumber⟩ := getUnsigned_inv (by simpa using hok)
    rw [hnumber] at h
    split at h
    · exact absurd rfl h
    · rename_i stream components hread
      split at h
      · rename_i heof
        obtain ⟨parts, hlength, hbehind, hparts, -⟩ := readComponents_inv hread heof
        exact ⟨first, parts, hlength, by rw [hbehind], List.forall_mem_cons.mpr ⟨hnumeral, hparts⟩⟩
      · exact absurd rfl h

theorem Spelled.numeral32 {s first : List UInt8} {parts : List (List UInt8)} (h : Spelled Number s first parts) :
    Spelled Numeral32 s first parts :=
  ⟨h.length, h.text, fun part hpart => (h.numbers part hpart).numeral32⟩

theorem Spelled.map_value {s first : List UInt8} {parts : List (List UInt8)} (h : Spelled Number s first parts) :
    (first :: parts).map value = (first :: parts).map fun part => UInt32.ofNat (decimal part) :=
  List.map_congr_left fun part hpart => (h.numbers part hpart).value_eq

/-- The first component of a version is not that of the invalid one. -/
theorem Spelled.ne_invalid {invalid : Version} (hinvalid : invalid.major = kNone) {s first : List UInt8}
    {parts : List (List UInt8)} (h : Spelled Number s first parts) :
    ofComponents ((first :: parts).map value) ≠ invalid := by
  intro heq
  have hfirst := h.numbers first List.mem_cons_self
  have hmajor : UInt32.ofNat (decimal first) = kNone := by
    rw [← hfirst.value_eq, ← hinvalid, ← heq]
    rfl
  have hnat := congrArg UInt32.toNat hmajor
  rw [UInt32.toNat_ofNat_of_lt' (Nat.lt_succ_of_lt hfirst.small)] at hnat
  exact hfirst.small.ne hnat

/-! ### One way to spell -/

theorem append_unique {text text' rest rest' : List UInt8} (h : Numeral32 text) (h' : Numeral32 text')
    (hrest : Starts isdigit rest) (hrest' : Starts isdigit rest') (heq : text ++ rest = text' ++ rest') :
    text = text' ∧ rest = rest' := by
  have hsplit := congrArg splitSign heq
  rw [h.sign_append, h'.sign_append, Prod.mk.injEq] at hsplit
  have hdigits := congrArg (List.takeWhile isdigit) hsplit.2
  rw [takeWhile_append_starts h.digits hrest, takeWhile_append_starts h'.digits hrest'] at hdigits
  have htext : text = text' := by
    rw [← splitSign_append text, ← splitSign_append text', hsplit.1, hdigits]
  exact ⟨htext, List.append_cancel_left (htext ▸ heq)⟩

theorem spell_unique {delimiters : List UInt8} (hdelimiters : ∀ d ∈ delimiters, isdigit d = false)
    {parts parts' : List (List UInt8)} (hlength : parts.length ≤ delimiters.length)
    (hlength' : parts'.length ≤ delimiters.length) (hparts : ∀ part ∈ parts, Numeral32 part)
    (hparts' : ∀ part ∈ parts', Numeral32 part) (heq : spell delimiters parts = spell delimiters parts') :
    parts = parts' := by
  induction delimiters generalizing parts parts' with
  | nil =>
    rw [List.length_eq_zero_iff.mp (Nat.le_zero.mp hlength), List.length_eq_zero_iff.mp (Nat.le_zero.mp hlength')]
  | cons d ds ih =>
    have hds : ∀ e ∈ ds, isdigit e = false := fun e he => hdelimiters e (List.mem_cons_of_mem d he)
    cases parts with
    | nil =>
      cases parts' with
      | nil => rfl
      | cons part' parts' => cases heq
    | cons part parts =>
      cases parts' with
      | nil => cases heq
      | cons part' parts' =>
        rw [spell, spell, List.cons_inj_right] at heq
        obtain ⟨hpart, hrest⟩ := List.forall_mem_cons.mp hparts
        obtain ⟨hpart', hrest'⟩ := List.forall_mem_cons.mp hparts'
        obtain ⟨rfl, hspell⟩ := append_unique hpart hpart' (starts_spell hds parts) (starts_spell hds parts') heq
        rw [ih hds (Nat.le_of_succ_le_succ hlength) (Nat.le_of_succ_le_succ hlength') hrest hrest' hspell]

theorem Spelled.unique {s first first' : List UInt8} {parts parts' : List (List UInt8)}
    (h : Spelled Numeral32 s first parts) (h' : Spelled Numeral32 s first' parts') :
    first = first' ∧ parts = parts' := by
  obtain ⟨hfirst, hparts⟩ := List.forall_mem_cons.mp h.numbers
  obtain ⟨hfirst', hparts'⟩ := List.forall_mem_cons.mp h'.numbers
  obtain ⟨rfl, hspell⟩ := append_unique hfirst hfirst' (starts_spell delimiters_not_digits parts)
    (starts_spell delimiters_not_digits parts') (h.text.symm.trans h'.text)
  exact ⟨rfl, spell_unique delimiters_not_digits h.length h'.length hparts hparts' hspell⟩

/-- **Texts that are read as written.** -/
theorem readAsWritten_iff {invalid : Version} (hinvalid : invalid.major = kNone) (s : List UInt8) :
    ReadAsWritten invalid s ↔ PlainNumbers invalid s := by
  constructor
  · intro ⟨hvalid, _⟩ first parts hspelled hne part hpart
    rw [ofString_of_spelled hspelled] at hvalid
    obtain ⟨first', parts', hwritten⟩ := hvalid.mp hne
    obtain ⟨rfl, rfl⟩ := hspelled.unique hwritten.numeral32
    have hnumber := hwritten.numbers part hpart
    exact ⟨by rw [hnumber.splitSign_eq], hnumber.small.ne⟩
  · intro hplain
    refine ⟨⟨fun hne => ?_, fun ⟨first, parts, hwritten⟩ => ?_⟩, fun first parts hwritten => ?_⟩
    · obtain ⟨first, parts, hspelled⟩ := spelled_of_ne hne
      rw [ofString_of_spelled hspelled] at hne
      refine ⟨first, parts, hspelled.length, hspelled.text, fun part hpart => ?_⟩
      obtain ⟨hsign, hvalue⟩ := hplain first parts hspelled hne part hpart
      exact (hspelled.numbers part hpart).number hsign hvalue
    · rw [ofString_of_spelled hwritten.numeral32]
      exact hwritten.ne_invalid hinvalid
    · rw [ofString_of_spelled hwritten.numeral32, hwritten.map_value]

/-! ### Printing -/

theorem digits_ne_nil (n : ComponentType) : digits n ≠ [] := by
  rw [digits, Ne, List.map_eq_nil_iff]
  exact Nat.toDigits_ne_nil

theorem splitSign_digits (n : ComponentType) : splitSign (digits n) = ([], digits n) := by
  obtain ⟨c, cs, hcs⟩ := List.exists_cons_of_ne_nil (digits_ne_nil n)
  rw [hcs]
  exact splitSign_of_digit (isdigit_toDigits (n := n.toNat) (by rw [← digits, hcs]; exact List.mem_cons_self))

theorem numeral32_digits (n : ComponentType) : Numeral32 (digits n) ∧ value (digits n) = n := by
  have hsplit := splitSign_digits n
  have hdecimal : decimal (digits n) = n.toNat := decimal_toDigits n.toNat
  refine ⟨⟨?_, ?_, ?_⟩, ?_⟩
  · rw [hsplit]
    exact digits_ne_nil n
  · rw [hsplit]
    exact fun c hc => isdigit_toDigits hc
  · rw [hsplit, hdecimal]
    exact n.toNat_lt
  · rw [value, hsplit, hdecimal]
    exact UInt32.ofNat_toNat

/-- **Printing and reading.** A valid version is read back unless its last component is `kNone`. -/
theorem ofString_toString_iff {invalid v : Version} (hv : v ≠ invalid) :
    ofString invalid (some (toString invalid v)) = v ↔ v.build ≠ kNone := by
  have hvalue : ∀ n, value (digits n) = n := fun n => (numeral32_digits n).2
  rw [toString, if_neg hv]
  by_cases hbuild : v.build ≠ kNone ∧ v.build ≠ 0
  · rw [if_pos hbuild]
    have hspelled :
        Spelled Numeral32 (digits v.major ++ literal "." ++ digits v.minor ++ literal "." ++ digits v.micro ++
        (literal "-" ++ digits v.build)) (digits v.major) [digits v.minor, digits v.micro, digits v.build] := by
      refine ⟨Nat.le_refl 3, ?_, ?_⟩
      · simp [spell, delimiters, literal]
      · simp [numeral32_digits]
    rw [ofString_of_spelled hspelled]
    refine iff_of_true ?_ hbuild.1
    simp [ofComponents, hvalue]
  · rw [if_neg hbuild, List.append_nil]
    have hspelled :
        Spelled Numeral32 (digits v.major ++ literal "." ++ digits v.minor ++ literal "." ++ digits v.micro)
        (digits v.major) [digits v.minor, digits v.micro] := by
      refine ⟨Nat.le_succ 2, ?_, ?_⟩
      · simp [spell, delimiters, literal]
      · simp [numeral32_digits]
    rw [ofString_of_spelled hspelled]
    have hread : ofComponents (([digits v.major, digits v.minor, digits v.micro]).map value) =
        { v with build := 0 } := by
      simp [ofComponents, hvalue]
    rw [hread]
    constructor
    · intro heq hnone
      have hzero : v.build = 0 := (congrArg Version.build heq).symm
      exact absurd (hzero.symm.trans hnone) (by decide)
    · intro hnone
      obtain hzero : v.build = 0 := by
        by_contra hne
        exact hbuild ⟨hnone, hne⟩
      rw [← hzero]

/-- **Version strings.** A text is a valid version exactly if it is written like one, and is then read as written,
unless some number in it has a sign or is 2^32 - 1; a valid version survives printing and reading unless its
last component is 2^32 - 1. -/
theorem version_strings_iff (invalid : Version) (hinvalid : invalid.major = kNone) (s : List UInt8) (v : Version)
    (hv : v ≠ invalid) :
    (ReadAsWritten invalid s ↔ PlainNumbers invalid s) ∧
      (ofString invalid (some (toString invalid v)) = v ↔ v.build ≠ kNone) :=
  ⟨readAsWritten_iff hinvalid s, ofString_toString_iff hv⟩

/-- The version that is invalid. -/
def noVersion : Version := ⟨kNone, kNone, kNone, kNone⟩

theorem version_strings_one_two : ReadAsWritten noVersion (literal "1.2") ∧
    ofString noVersion (some (toString noVersion ⟨1, 2, 0, 7⟩)) = ⟨1, 2, 0, 7⟩ := by
  have hiff := version_strings_iff noVersion rfl (literal "1.2") ⟨1, 2, 0, 7⟩ (by decide)
  refine ⟨hiff.1.mpr fun first parts hspelled _ => ?_, hiff.2.mpr (by decide)⟩
  have hknown : Spelled Numeral32 (literal "1.2") (literal "1") [literal "2"] :=
    ⟨by decide, rfl, List.forall_mem_cons.mpr ⟨⟨by decide, by decide +kernel, by decide⟩,
      List.forall_mem_singleton.mpr ⟨by decide, by decide +kernel, by decide⟩⟩⟩
  obtain ⟨rfl, rfl⟩ := hspelled.unique hknown
  decide

/-- A sign is taken, and the largest number is not printed. -/
theorem sign_and_largest :
    (ofString noVersion (some (literal "+1")) = ⟨1, 0, 0, 0⟩ ∧ ¬ ReadAsWritten noVersion (literal "+1")) ∧
      ofString noVersion (some (toString noVersion ⟨1, 2, 3, kNone⟩)) = ⟨1, 2, 3, 0⟩ := by
  refine ⟨⟨rfl, fun h => ?_⟩, rfl⟩
  obtain ⟨first, parts, hwritten⟩ := h.1.mp (by decide)
  have hfirst := hwritten.numbers first List.mem_cons_self
  obtain ⟨c, cs, rfl⟩ := List.exists_cons_of_ne_nil hfirst.ne_nil
  have hc : '+'.toUInt8 = c := (List.cons.inj hwritten.text).1
  have hdigit := hfirst.digits c List.mem_cons_self
  rw [← hc] at hdigit
  exact absurd hdigit (by decide)

end Version

end Goldfish.System
