import Goldfish.Files.RoundTrip

/-!
# Goldfish.Files.Layout

**Comments and blank lines** survive reading and writing where they stand, down to the
last entry of the file. What stands behind it is lost: `writeCommonImpl` prints the
comments in front of a key and has no step for those that are left
(`writeLines_layout`).

A first pass also drops the lines that are invalid and moves comments behind a
duplicate key. A second one changes nothing any more: its input is made of entries and
comments, has each key once, and ends with an entry.
-/

namespace Goldfish.Files

open Goldfish.Lib

/-! ### The lines that are printed -/

/-- A blank line or a comment. -/
def isComment (line : Text) : Bool := parseLine line = .comment

/-- A line as it is printed: an entry in the form `key = value`, everything else verbatim. -/
def printedLine (line : Text) : Text :=
  match parseLine line with
  | .entry key value => entryLine key value
  | _ => line

theorem printedLine_of_comment {line : Text} (h : parseLine line = .comment) : printedLine line = line := by
  rw [printedLine, h]

theorem printedLine_of_entry {line key value : Text} (h : parseLine line = .entry key value) :
    printedLine line = entryLine key value := by
  rw [printedLine, h]

/-- A comment that is due comes out in front of the next key. -/
theorem writeLines_due {mData : Text → Option Text} {key : Text} {keys : List Text} {comment : Nat × Text}
    {comments : List (Nat × Text)} {n : Nat} (h : comment.1 ≤ n + 1) :
    writeLines false mData (key :: keys) (comment :: comments) n =
      comment.2 :: writeLines false mData (key :: keys) comments (n + 1) := by
  rw [writeLines, writeLines, writeComments, if_pos h]
  rfl

/-- Where no comment is due, the entry comes out. -/
theorem writeLines_entry {mData : Text → Option Text} {key : Text} {keys : List Text}
    {comments : List (Nat × Text)} {n : Nat} (h : ∀ c ∈ comments, n + 1 < c.1) :
    writeLines false mData (key :: keys) comments n =
      entryLine key ((mData key).getD []) :: writeLines false mData keys comments (n + 1) := by
  have hnone : writeComments (n + 1) comments = ([], comments, n + 1) := by
    cases comments with
    | nil => rfl
    | cons comment comments =>
      rw [writeComments, if_neg (Nat.not_le.mpr (h comment List.mem_cons_self))]
  rw [writeLines, hnone]
  rfl

theorem entries_eq_nil_iff {ls : List Text} (hvalid : ∀ line ∈ ls, parseLine line ≠ .invalid) :
    entries ls = [] ↔ ls.rdropWhile isComment = [] := by
  rw [List.rdropWhile_eq_nil_iff, entries, List.filterMap_eq_nil_iff]
  refine forall₂_congr fun line hline => ?_
  have hne := hvalid line hline
  rw [lineEntry, isComment]
  cases hparse : parseLine line with
  | comment => simp
  | invalid => exact absurd hparse hne
  | entry key value => simp

theorem entries_cons_of_comment {line : Text} (h : parseLine line = .comment) (ls : List Text) :
    entries (line :: ls) = entries ls := by
  simp [entries, lineEntry, h]

theorem entries_cons_of_entry {line key value : Text} (h : parseLine line = .entry key value)
    (ls : List Text) : entries (line :: ls) = (key, value) :: entries ls := by
  simp [entries, lineEntry, h]

/-- A comment with only comments behind it. -/
theorem rdropWhile_cons_of_comment {line : Text} {ls : List Text} (h : isComment line = true)
    (hls : ls.rdropWhile isComment = []) : (line :: ls).rdropWhile isComment = [] := by
  rw [List.rdropWhile_eq_nil_iff] at hls ⊢
  intro l hl
  rcases List.mem_cons.mp hl with rfl | hl
  · exact h
  · exact hls l hl

/-- **What is printed of lines that are all valid**: the lines up to the last entry. -/
theorem writeLines_layout {mData : Text → Option Text} {ls : List Text} {n : Nat}
    (hvalid : ∀ line ∈ ls, parseLine line ≠ .invalid)
    (hdata : ∀ e ∈ entries ls, mData e.1 = some e.2) :
    writeLines false mData ((entries ls).map Prod.fst) (commentsAt n ls) n =
      (ls.rdropWhile isComment).map printedLine := by
  induction ls generalizing n with
  | nil => rfl
  | cons line ls ih =>
    have hvalid' : ∀ l ∈ ls, parseLine l ≠ .invalid := fun l hl => hvalid l (List.mem_cons_of_mem line hl)
    cases hparse : parseLine line with
    | invalid => exact absurd hparse (hvalid line List.mem_cons_self)
    | comment =>
      have hcomment : isComment line = true := by simp [isComment, hparse]
      rw [entries_cons_of_comment hparse] at hdata ⊢
      have hrest := ih (n := n + 1) hvalid' hdata
      cases hes : entries ls with
      | nil =>
        -- only comments are left, and none of them is printed
        have hnil := (entries_eq_nil_iff hvalid').mp hes
        rw [rdropWhile_cons_of_comment hcomment hnil]
        rfl
      | cons e es =>
        have hne : ls.rdropWhile isComment ≠ [] := by
          intro hnil
          rw [(entries_eq_nil_iff hvalid').mpr hnil] at hes
          cases hes
        rw [hes] at hrest
        rw [commentsAt, hparse, List.map_cons, writeLines_due (Nat.le_refl _),
          rdropWhile_cons_of_ne_nil line hne, List.map_cons, printedLine_of_comment hparse]
        exact congrArg (line :: ·) hrest
    | entry key value =>
      have hcomment : isComment line = false := by simp [isComment, hparse]
      rw [entries_cons_of_entry hparse] at hdata ⊢
      have hvalue : (mData key).getD [] = value := by
        rw [hdata (key, value) List.mem_cons_self]
        rfl
      have hlater : ∀ c ∈ commentsAt (n + 1) ls, n + 1 < c.1 := fun c hc => (mem_commentsAt hc).1
      rw [commentsAt, hparse, List.map_cons, writeLines_entry hlater, hvalue,
        rdropWhile_cons_of_neg hcomment, List.map_cons, printedLine_of_entry hparse,
        ih hvalid' fun e he => hdata e (List.mem_cons_of_mem _ he)]

/-- What is printed ends with an entry, if at all. -/
theorem rdropWhile_writeLines {mData : Text → Option Text} {keys : List Text} {comments : List (Nat × Text)}
    {n : Nat} (hkeys : ∀ key ∈ keys, ValidKey key) (hvalues : ∀ key, StoredValue ((mData key).getD [])) :
    (writeLines false mData keys comments n).rdropWhile isComment = writeLines false mData keys comments n := by
  induction keys generalizing comments n with
  | nil => rfl
  | cons key keys ih =>
    have hentry : isComment (entryLine key ((mData key).getD [])) = false := by
      simp [isComment, parseLine_entryLine (hkeys key List.mem_cons_self) (hvalues key)]
    have hrest := @ih (writeComments (n + 1) comments).2.1 (writeComments (n + 1) comments).2.2
      fun k hk => hkeys k (List.mem_cons_of_mem key hk)
    have hsplit : writeLines false mData (key :: keys) comments n =
        (writeComments (n + 1) comments).1 ++ entryLine key ((mData key).getD []) ::
          writeLines false mData keys (writeComments (n + 1) comments).2.1
            (writeComments (n + 1) comments).2.2 := by
      rw [writeLines]
      simp
    have htail := rdropWhile_cons_of_neg
      (l := writeLines false mData keys (writeComments (n + 1) comments).2.1
        (writeComments (n + 1) comments).2.2) hentry
    rw [hrest] at htail
    rw [hsplit]
    induction (writeComments (n + 1) comments).1 with
    | nil => exact htail
    | cons l out ihout =>
      rw [List.cons_append, rdropWhile_cons_of_ne_nil l (by rw [ihout]; simp), ihout]

/-! ### Reading and writing back -/

/-- The objects that reading the text with its comments gives, from memory or from the backing file. -/
def Reads (text : Text) (ini : IniFile) : Prop :=
  ∃ old : IniFile, ini = old.readFromMemory text ∨
    ∃ dir, old.input dir = some text ∧ ini = (old.read true dir).2

theorem Reads.parsed {text : Text} {ini : IniFile} (h : Reads text ini) :
    ∃ old : IniFile, ini = old.clear.parseStream text true := by
  obtain ⟨old, rfl | ⟨dir, hinput, rfl⟩⟩ := h
  · exact ⟨old, rfl⟩
  · refine ⟨old, ?_⟩
    rw [IniFile.read, hinput]

theorem Reads.wellFormed {text : Text} {ini : IniFile} (h : Reads text ini) : ini.WellFormed := by
  obtain ⟨old, rfl⟩ := h.parsed
  exact (wellFormed_clear old).parseStream text true

/-- Every line is a blank line, a comment or an entry, and no two entries have the same key. -/
structure ProperText (text : Text) : Prop where
  valid : ∀ line ∈ lines newline text, parseLine line ≠ .invalid
  keys : (insertedKeys text).Nodup

/-- **What is written of a proper text**: its lines up to the last entry, in their order. -/
theorem print_of_proper {text : Text} (h : ProperText text) {ini : IniFile} (hread : Reads text ini) :
    ini.print false = unlines newline (((lines newline text).rdropWhile isComment).map printedLine) := by
  obtain ⟨old, rfl⟩ := hread.parsed
  rw [IniFile.print, IniFile.parseStream, parseLines_eq]
  have horder := emplaceAll_mOrderList old.clear h.keys fun _ _ => rfl
  have hprinted := writeLines_layout (n := 0) h.valid fun e he =>
    emplaceAll_mem old.clear h.keys he
  exact congrArg (unlines newline) ((congrArg (writeLines false _ · _ 0) horder).trans hprinted)

/-- What was printed is a proper text. -/
theorem properText_print {ini : IniFile} (h : ini.WellFormed) : ProperText (ini.print false) := by
  constructor
  · intro line hline
    rw [lines_print h] at hline
    rcases writeLines_lines hline with ⟨c, hc, rfl⟩ | ⟨key, hkey, rfl⟩
    · rw [(h.comments c hc).1]
      simp
    · rw [parseLine_entryLine (h.validKey hkey) (h.stored key)]
      simp
  · rw [insertedKeys, entries_print h, List.map_map]
    have hfst : (Prod.fst ∘ fun key => (key, (ini.mData key).getD [])) = id := rfl
    rw [hfst, List.map_id]
    exact h.nodup.filter _

/-- **The second pass changes nothing.** -/
theorem print_again {ini again : IniFile} (h : ini.WellFormed) (hread : Reads (ini.print false) again) :
    again.print false = ini.print false := by
  rw [print_of_proper (properText_print h) hread, lines_print h,
    rdropWhile_writeLines (fun key hkey => h.validKey hkey) h.stored]
  have hsame : (writeLines false ini.mData ini.mOrderList ini.mComments 0).map printedLine =
      writeLines false ini.mData ini.mOrderList ini.mComments 0 := by
    refine (List.map_congr_left fun line hline => ?_).trans (List.map_id _)
    rcases writeLines_lines hline with ⟨c, hc, rfl⟩ | ⟨key, hkey, rfl⟩
    · exact printedLine_of_comment (h.comments c hc).1
    · exact printedLine_of_entry (parseLine_entryLine (h.validKey hkey) (h.stored key))
  rw [hsame]
  rfl

/-- Reading and writing keeps the layout of the text. -/
def KeepsLayout (text : Text) : Prop :=
  ∀ ini, Reads text ini → ini.print false = unlines newline ((lines newline text).map printedLine)

/-- Reading and writing a second time writes what was written first. -/
def SettlesAtOnce (text : Text) : Prop :=
  ∀ ini again, Reads text ini → Reads (ini.print false) again → again.print false = ini.print false

theorem unlines_injective {ls ms : List Text} (hls : ∀ l ∈ ls, newline ∉ l) (hms : ∀ l ∈ ms, newline ∉ l)
    (h : unlines newline ls = unlines newline ms) : ls = ms := by
  rw [← lines_unlines hls, h, lines_unlines hms]

theorem newline_not_mem_printedLine {line : Text} (h : newline ∉ line) : newline ∉ printedLine line := by
  unfold printedLine
  split
  · rename_i hparse
    obtain ⟨hkey, hvalue⟩ := parseLine_valid hparse
    exact newline_not_mem_entryLine hkey hvalue
  · exact h

/-- No blank line or comment stands at the end. -/
theorem rdropWhile_eq_self_iff_last {ls : List Text} :
    ls.rdropWhile isComment = ls ↔ ∀ line, ls.getLast? = some line → parseLine line ≠ .comment := by
  rw [List.rdropWhile_eq_self_iff]
  constructor
  · intro h line hline
    obtain ⟨init, rfl⟩ := List.getLast?_eq_some_iff.mp hline
    simpa [isComment] using h (by simp)
  · intro h hne
    simpa [isComment] using h _ (List.getLast?_eq_some_getLast hne)

/-- **Comments and layout are kept** exactly for the texts in which no blank line or comment follows the
last entry. That a second pass changes nothing holds of every text. -/
theorem layout_kept_iff (text : Text) :
    ((ProperText text → KeepsLayout text) ∧ SettlesAtOnce text) ↔
      (ProperText text → ∀ line, (lines newline text).getLast? = some line → parseLine line ≠ .comment) := by
  have hsettles : SettlesAtOnce text := fun ini again hread hagain => print_again hread.wellFormed hagain
  rw [and_iff_left hsettles]
  refine forall_congr' fun hproper => ?_
  rw [← rdropWhile_eq_self_iff_last]
  constructor
  · intro hkeeps
    have hread : Reads text ((IniFile.new []).readFromMemory text) := ⟨_, .inl rfl⟩
    have hclean : ∀ ls : List Text, ls ⊆ lines newline text → ∀ l ∈ ls.map printedLine, newline ∉ l := by
      intro ls hls l hl
      obtain ⟨line, hline, rfl⟩ := List.mem_map.mp hl
      exact newline_not_mem_printedLine (not_mem_of_mem_lines (hls hline))
    have hinit := List.rdropWhile_prefix isComment (lines newline text)
    have hsame := unlines_injective (hclean _ hinit.subset) (hclean _ fun _ hl => hl)
      ((print_of_proper hproper hread).symm.trans (hkeeps _ hread))
    -- no line was dropped, since as many were printed
    have hlength := congrArg List.length hsame
    rw [List.length_map, List.length_map] at hlength
    exact hinit.eq_of_length hlength
  · intro hlast ini hread
    rw [print_of_proper hproper hread, hlast]

/-- An entry with a comment behind it: the comment is gone. -/
theorem last_comment_is_lost :
    ¬ (ProperText (['k', '=', 'v', '\n', '#', 'c', '\n'].map Char.toUInt8) →
        KeepsLayout (['k', '=', 'v', '\n', '#', 'c', '\n'].map Char.toUInt8)) := by
  intro h
  have hproper : ProperText (['k', '=', 'v', '\n', '#', 'c', '\n'].map Char.toUInt8) :=
    ⟨by decide, by decide⟩
  exact absurd (h hproper ((IniFile.new []).readFromMemory _) ⟨_, .inl rfl⟩) (by decide)

end Goldfish.Files
