import Mathlib.Data.List.Basic
import Mathlib.Data.List.Range

/-!
# Goldfish.Keyboard.KeyConversion

The table of the characters that can be typed, and the keys to press for a character
(`KeyConversion.cpp`).

The loops of `ascii_to_qcode` are bounded by the number of the table's bytes, so a character
that is not found goes on to be searched for in the memory behind the table. That memory is a
parameter of the search (`Behind`), and with `trap` nothing of it can be read. `keysFor` is
the search that ends with the table, and `asciiToQcode_trap` compares the two.
-/

namespace Goldfish.Keyboard

/-! ### The table -/

/-- Key codes: those of the table, the two modifiers, and any other. -/
inductive QKeyCode where
  | a | b | c | d | e | f | g | h | i | j | k | l | m | n | o | p | q | r | s | t | u | v | w | x | y
  | z | comma | dot | slash | spc | lf | digit0 | digit1 | digit2 | digit3 | digit4 | digit5 | digit6
  | digit7 | digit8 | digit9 | tab | graveAccent | minus | equal | bracketLeft | bracketRight |
  backslash | semicolon | apostrophe
  | shift | alt
  | other (code : Nat)
  deriving DecidableEq, Repr

/-- `SkinKeyEntry`: a key, and the characters it gives. -/
structure SkinKeyEntry where
  code : QKeyCode
  base : UInt16
  caps : UInt16
  fn : UInt16
  capsFn : UInt16
  number : UInt16
  deriving DecidableEq, Repr

/-- The number of a character. -/
def ascii (c : Char) : UInt16 := c.toNat.toUInt16

/-- Quotes, brackets and the backslash are given by their codes. -/
def cmap : List SkinKeyEntry :=
  [⟨.a, ascii 'a', ascii 'A', 0xe1, 0xc1, ascii 'a'⟩,
   ⟨.b, ascii 'b', ascii 'B', ascii 'b', ascii 'B', ascii 'b'⟩,
   ⟨.c, ascii 'c', ascii 'C', 0xa9, 0xa2, ascii 'c'⟩,
   ⟨.d, ascii 'd', ascii 'D', 0xf0, 0xd0, 0x27⟩,
   ⟨.e, ascii 'e', ascii 'E', 0xe9, 0xc9, 0x22⟩,
   ⟨.f, ascii 'f', ascii 'F', 0x5b, 0x5b, 0x5b⟩,
   ⟨.g, ascii 'g', ascii 'G', 0x5d, 0x5d, 0x5d⟩,
   ⟨.h, ascii 'h', ascii 'H', ascii '<', ascii '<', ascii '<'⟩,
   ⟨.i, ascii 'i', ascii 'I', 0xed, 0xcd, ascii '-'⟩,
   ⟨.j, ascii 'j', ascii 'J', ascii '>', ascii '>', ascii '>'⟩,
   ⟨.k, ascii 'k', ascii 'K', ascii ';', ascii 'K', ascii ';'⟩,
   ⟨.l, ascii 'l', ascii 'L', 0xf8, 0xd8, ascii ':'⟩,
   ⟨.m, ascii 'm', ascii 'M', 0xb5, ascii 'M', ascii '%'⟩,
   ⟨.n, ascii 'n', ascii 'N', 0xf1, 0xd1, ascii 'n'⟩,
   ⟨.o, ascii 'o', ascii 'O', 0xf3, 0xd3, ascii '+'⟩,
   ⟨.p, ascii 'p', ascii 'P', 0xf6, 0xd6, ascii '='⟩,
   ⟨.q, ascii 'q', ascii 'Q', 0xe4, 0xc4, ascii '|'⟩,
   ⟨.r, ascii 'r', ascii 'R', 0xae, ascii 'R', 0x60⟩,
   ⟨.s, ascii 's', ascii 'S', 0xdf, 0xa7, 0x5c⟩,
   ⟨.t, ascii 't', ascii 'T', 0xfe, 0xde, 0x7d⟩,
   ⟨.u, ascii 'u', ascii 'U', 0xfa, 0xda, ascii '_'⟩,
   ⟨.v, ascii 'v', ascii 'V', ascii 'v', ascii 'V', ascii 'v'⟩,
   ⟨.w, ascii 'w', ascii 'W', 0xe5, 0xc5, ascii '~'⟩,
   ⟨.x, ascii 'x', ascii 'X', ascii 'x', ascii 'X', ascii 'x'⟩,
   ⟨.y, ascii 'y', ascii 'Y', 0xfc, 0xdc, 0x7d⟩,
   ⟨.z, ascii 'z', ascii 'Z', 0xe6, 0xc6, ascii 'z'⟩,
   ⟨.comma, ascii ',', ascii '<', 0xe7, 0xc7, ascii ','⟩,
   ⟨.dot, ascii '.', ascii '>', ascii '.', 0x2026, ascii '.'⟩,
   ⟨.slash, ascii '/', ascii '?', 0xbf, ascii '?', ascii '/'⟩,
   ⟨.spc, 0x20, 0x20, 0x9, 0x9, 0x20⟩,
   ⟨.lf, 0xa, 0xa, 0xa, 0xa, 0xa⟩,
   ⟨.digit0, ascii '0', 0x29, 0x2bc, 0x29, ascii '0'⟩,
   ⟨.digit1, ascii '1', ascii '!', 0xa1, 0xb9, ascii '1'⟩,
   ⟨.digit2, ascii '2', ascii '@', 0xb2, ascii '@', ascii '2'⟩,
   ⟨.digit3, ascii '3', ascii '#', 0xb3, ascii '#', ascii '3'⟩,
   ⟨.digit4, ascii '4', ascii '$', 0xa4, 0xa3, ascii '4'⟩,
   ⟨.digit5, ascii '5', ascii '%', 0x20ac, ascii '%', ascii '5'⟩,
   ⟨.digit6, ascii '6', ascii '^', 0xbc, 0x0302, ascii '6'⟩,
   ⟨.digit7, ascii '7', ascii '&', 0xbd, ascii '&', ascii '7'⟩,
   ⟨.digit8, ascii '8', ascii '*', 0xbe, ascii '*', ascii '8'⟩,
   ⟨.digit9, ascii '9', 0x28, 0x2bb, 0x28, ascii '9'⟩,
   ⟨.tab, 0x9, 0x9, 0x9, 0x9, 0x9⟩,
   ⟨.graveAccent, 0x60, ascii '~', 0x300, 0x0303, 0x60⟩,
   ⟨.minus, ascii '-', ascii '_', 0xa5, ascii '_', ascii '-'⟩,
   ⟨.equal, ascii '=', ascii '+', 0xd7, 0xf7, ascii '='⟩,
   ⟨.bracketLeft, 0x5b, 0x7b, 0xab, 0x7b, 0x5b⟩,
   ⟨.bracketRight, 0x5d, 0x7d, 0xbb, 0x7d, 0x5d⟩,
   ⟨.backslash, 0x5c, ascii '|', 0xac, 0xa6, 0x5c⟩,
   ⟨.semicolon, ascii ';', ascii ':', 0xb6, 0xb0, ascii ';'⟩,
   ⟨.apostrophe, 0x27, 0x22, 0x301, 0x308, 0x27⟩]

/-- A code of four bytes and five columns of two, up to a multiple of four. -/
def sizeofSkinKeyEntry : Nat := 16

/-- `sizeof(cmap)` -/
def sizeofCmap : Nat := cmap.length * sizeofSkinKeyEntry

/-- The event of a key that goes down or up. -/
structure QemuKeyEvent where
  code : QKeyCode
  down : Bool
  deriving DecidableEq, Repr

/-! ### The search -/

/-- What is behind the table, entry by entry. Reading `none` ends the program. -/
abbrev Behind := Nat → Option SkinKeyEntry

/-- Nothing is behind the table. -/
def trap : Behind := fun _ => none

/-- `cmap[n]` -/
def cmapAt (behind : Behind) (n : Nat) : Option SkinKeyEntry :=
  if h : n < cmap.length then some cmap[n] else behind (n - cmap.length)

/-- The loop over what is read, up to the first entry with the character in the column. -/
def scan (column : SkinKeyEntry → UInt16) (unicode : UInt16) :
    List (Option SkinKeyEntry) → Option (Option SkinKeyEntry)
  | [] => some none
  | none :: _ => none
  | some entry :: entries => if column entry = unicode then some (some entry) else scan column unicode entries

/-- `for (int n = 0; n < sizeof(cmap); n++)` -/
def search (behind : Behind) (column : SkinKeyEntry → UInt16) (unicode : UInt16) : Option (Option SkinKeyEntry) :=
  scan column unicode ((List.range sizeofCmap).map (cmapAt behind))

/-- `ascii_to_qcode`. The columns are searched one after the other. -/
def asciiToQcode (behind : Behind) (unicode : UInt16) (down : Bool) : Option (List QemuKeyEvent) := do
  -- base keys
  if let some key ← search behind SkinKeyEntry.base unicode then
    return [⟨key.code, down⟩]
  -- caps + keys
  if let some key ← search behind SkinKeyEntry.caps unicode then
    if down then return [⟨.shift, down⟩, ⟨key.code, down⟩]
    return [⟨key.code, down⟩, ⟨.shift, down⟩]
  -- fn + keys
  if let some key ← search behind SkinKeyEntry.fn unicode then
    if down then return [⟨.alt, down⟩, ⟨key.code, down⟩]
    return [⟨key.code, down⟩, ⟨.alt, down⟩]
  -- caps + fn + keys
  if let some key ← search behind SkinKeyEntry.capsFn unicode then
    if down then return [⟨.shift, down⟩, ⟨.alt, down⟩, ⟨key.code, down⟩]
    return [⟨key.code, down⟩, ⟨.alt, down⟩, ⟨.shift, down⟩]
  return []

/-! ### The keys of a character -/

/-- The keys that are held down together for a character: those of the first entry that matches, a plain key
before one with modifiers. -/
def keysFor (unicode : UInt16) : List QKeyCode :=
  match cmap.find? (·.base = unicode) with
  | some key => [key.code]
  | none =>
    match cmap.find? (·.caps = unicode) with
    | some key => [.shift, key.code]
    | none =>
      match cmap.find? (·.fn = unicode) with
      | some key => [.alt, key.code]
      | none =>
        match cmap.find? (·.capsFn = unicode) with
        | some key => [.shift, .alt, key.code]
        | none => []

/-- Keys pressed in this order, or released in the reverse one. -/
def strokes (keys : List QKeyCode) (down : Bool) : List QemuKeyEvent :=
  if down then keys.map (⟨·, true⟩) else keys.reverse.map (⟨·, false⟩)

/-- The character is on a key by itself. -/
def IsBase (unicode : UInt16) : Prop := ∃ key ∈ cmap, key.base = unicode

instance (unicode : UInt16) : Decidable (IsBase unicode) :=
  inferInstanceAs (Decidable (∃ key ∈ cmap, key.base = unicode))

/-! ### The table alone -/

section Search

variable {behind : Behind} {column : SkinKeyEntry → UInt16} {unicode : UInt16}

/-- The table is read first, and then what is behind it. -/
theorem reads_eq (behind : Behind) :
    (List.range sizeofCmap).map (cmapAt behind) =
      cmap.map some ++ (List.range (sizeofCmap - cmap.length)).map behind := by
  have hsize : sizeofCmap = cmap.length + (sizeofCmap - cmap.length) := by decide
  have htable : (List.range cmap.length).map (cmapAt behind) = cmap.map some := by
    refine List.ext_getElem (by simp) fun n hn hn' => ?_
    rw [List.getElem_map, List.getElem_range, List.getElem_map, cmapAt, dif_pos]
  have hrest : ∀ n, cmapAt behind (cmap.length + n) = behind n := by
    intro n
    rw [cmapAt, dif_neg (by omega), Nat.add_sub_cancel_left]
  rw [hsize, List.range_add, List.map_append, htable, List.map_map, Nat.add_sub_cancel_left]
  exact congrArg _ (List.map_congr_left fun n _ => hrest n)

theorem scan_table (rest : List (Option SkinKeyEntry)) (table : List SkinKeyEntry) :
    scan column unicode (table.map some ++ rest) =
      match table.find? (column · = unicode) with
      | some key => some (some key)
      | none => scan column unicode rest := by
  induction table with
  | nil => rfl
  | cons key table ih =>
    rw [List.map_cons, List.cons_append, scan, List.find?_cons]
    by_cases h : column key = unicode
    · rw [if_pos h, decide_eq_true h]
    · rw [if_neg h, decide_eq_false h, ih]

theorem search_eq (behind : Behind) (column : SkinKeyEntry → UInt16) (unicode : UInt16) :
    search behind column unicode =
      match cmap.find? (column · = unicode) with
      | some key => some (some key)
      | none => scan column unicode ((List.range (sizeofCmap - cmap.length)).map behind) := by
  rw [search, reads_eq, scan_table]

/-- What is found in the table does not depend on what is behind it. -/
theorem search_of_find {key : SkinKeyEntry} (h : cmap.find? (column · = unicode) = some key) :
    search behind column unicode = some (some key) := by
  rw [search_eq, h]

/-- What is not found in the table is searched for behind it. -/
theorem search_trap_of_not_find (h : cmap.find? (column · = unicode) = none) : search trap column unicode = none := by
  have hreads : (List.range (sizeofCmap - cmap.length)).map trap = none :: List.replicate 749 none := by
    show (List.range (sizeofCmap - cmap.length)).map (fun _ => none) = _
    rw [List.map_const', List.length_range]
    rfl
  rw [search_eq, h, hreads]
  rfl

/-- A search behind the table that finds nothing. -/
theorem search_of_ne (h : ∀ n, ∃ key, behind n = some key ∧ column key ≠ unicode) :
    search behind column unicode = some (cmap.find? (column · = unicode)) := by
  have hscan : ∀ ns : List Nat, scan column unicode (ns.map behind) = some none := by
    intro ns
    induction ns with
    | nil => rfl
    | cons n ns ih =>
      obtain ⟨key, hkey, hne⟩ := h n
      rw [List.map_cons, hkey, scan, if_neg hne, ih]
  rw [search_eq]
  cases hfind : cmap.find? (column · = unicode) with
  | some key => rfl
  | none => exact hscan _

end Search

-- from here on the loop is known by what it finds, its many turns are not unfolded
attribute [irreducible] search

section Lookup

variable {behind : Behind} {unicode : UInt16}

/-- The four scans agree on the keys, whatever is behind the table: they are released in the reverse order. -/
theorem asciiToQcode_strokes (behind : Behind) (unicode : UInt16) :
    ∃ keys : Option (List QKeyCode), ∀ down, asciiToQcode behind unicode down = keys.map (strokes · down) := by
  unfold asciiToQcode
  generalize search behind SkinKeyEntry.base unicode = base
  generalize search behind SkinKeyEntry.caps unicode = caps
  generalize search behind SkinKeyEntry.fn unicode = fn
  generalize search behind SkinKeyEntry.capsFn unicode = capsFn
  match base with
  | none => exact ⟨none, fun _ => rfl⟩
  | some (some key) => exact ⟨some [key.code], fun down => by cases down <;> rfl⟩
  | some none =>
    match caps with
    | none => exact ⟨none, fun _ => rfl⟩
    | some (some key) => exact ⟨some [.shift, key.code], fun down => by cases down <;> rfl⟩
    | some none =>
      match fn with
      | none => exact ⟨none, fun _ => rfl⟩
      | some (some key) => exact ⟨some [.alt, key.code], fun down => by cases down <;> rfl⟩
      | some none =>
        match capsFn with
        | none => exact ⟨none, fun _ => rfl⟩
        | some (some key) => exact ⟨some [.shift, .alt, key.code], fun down => by cases down <;> rfl⟩
        | some none => exact ⟨some [], fun down => by cases down <;> rfl⟩

theorem isBase_iff : IsBase unicode ↔ ∃ key, cmap.find? (·.base = unicode) = some key := by
  rw [← Option.isSome_iff_exists, List.find?_isSome]
  simp only [IsBase, decide_eq_true_eq]

/-- A character of the base column is found in the table. -/
theorem asciiToQcode_of_isBase (h : IsBase unicode) (behind : Behind) (down : Bool) :
    asciiToQcode behind unicode down = some (strokes (keysFor unicode) down) := by
  obtain ⟨key, hkey⟩ := isBase_iff.mp h
  rw [asciiToQcode, search_of_find hkey, keysFor, hkey]
  cases down <;> rfl

/-- Any other one is searched for behind the table. -/
theorem asciiToQcode_trap (h : ¬ IsBase unicode) (down : Bool) : asciiToQcode trap unicode down = none := by
  have hnone : cmap.find? (·.base = unicode) = none := by
    rw [isBase_iff, not_exists] at h
    exact Option.eq_none_iff_forall_ne_some.mpr h
  rw [asciiToQcode, search_trap_of_not_find hnone]
  rfl

/-- Nothing behind the table is an entry for the character. -/
def Silent (behind : Behind) (unicode : UInt16) : Prop :=
  ∀ n, ∃ key, behind n = some key ∧ key.base ≠ unicode ∧ key.caps ≠ unicode ∧ key.fn ≠ unicode ∧ key.capsFn ≠ unicode

theorem asciiToQcode_of_silent (h : Silent behind unicode) (down : Bool) :
    asciiToQcode behind unicode down = some (strokes (keysFor unicode) down) := by
  have hsearch : ∀ column : SkinKeyEntry → UInt16,
      (∀ key : SkinKeyEntry, key.base ≠ unicode ∧ key.caps ≠ unicode ∧ key.fn ≠ unicode ∧ key.capsFn ≠ unicode →
        column key ≠ unicode) →
      search behind column unicode = some (cmap.find? (column · = unicode)) := by
    intro column hcolumn
    refine search_of_ne fun n => ?_
    obtain ⟨key, hkey, hne⟩ := h n
    exact ⟨key, hkey, hcolumn key hne⟩
  unfold asciiToQcode keysFor
  rw [hsearch SkinKeyEntry.base fun _ h => h.1, hsearch SkinKeyEntry.caps fun _ h => h.2.1,
    hsearch SkinKeyEntry.fn fun _ h => h.2.2.1, hsearch SkinKeyEntry.capsFn fun _ h => h.2.2.2]
  cases cmap.find? (·.base = unicode) with
  | some key => cases down <;> rfl
  | none =>
    cases cmap.find? (·.caps = unicode) with
    | some key => cases down <;> rfl
    | none =>
      cases cmap.find? (·.fn = unicode) with
      | some key => cases down <;> rfl
      | none =>
        cases cmap.find? (·.capsFn = unicode) with
        | some key => cases down <;> rfl
        | none => cases down <;> rfl

end Lookup

end Goldfish.Keyboard
