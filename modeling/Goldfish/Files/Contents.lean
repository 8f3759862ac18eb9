import Goldfish.Files.Lines
import Mathlib.Tactic.Common

/-!
# Goldfish.Files.Contents

What reading and printing do to **a whole text**.

* `parseLines_eq`: the loop that reads inserts the entries of the lines in order
  (`emplaceAll`) and keeps the comments at the lines they will be printed at
  (`commentsAt`).
* `WellFormed` is the invariant of the object: the order list has the keys of the map
  once each, every entry is proper, and every comment is a line that reads as one.
* `writeLines_entries` and `writeLines_lines`: what is printed of such an object reads
  back as its entries in order, with comments in between.
-/

namespace Goldfish.Files

open Goldfish.Lib

/-! ### Entries and comments of a text -/

/-- The entry of a line that has one. -/
def lineEntry (line : Text) : Option (Text × Text) :=
  match parseLine line with
  | .entry key value => some (key, value)
  | _ => none

/-- The entries of some lines, in order, duplicates included. -/
def entries (ls : List Text) : List (Text × Text) := ls.filterMap lineEntry

/-- The comments of some lines that follow `n` lines of output. -/
def commentsAt (n : Nat) : List Text → List (Nat × Text)
  | [] => []
  | line :: ls =>
    match parseLine line with
    | .comment => (n + 1, line) :: commentsAt (n + 1) ls
    | .invalid => commentsAt n ls
    | .entry _ _ => commentsAt (n + 1) ls

/-- Inserts entries one after the other. -/
def IniFile.emplaceAll (ini : IniFile) (es : List (Text × Text)) : IniFile :=
  es.foldl (fun ini e => ini.emplace e.1 e.2) ini

@[simp] theorem emplaceAll_nil (ini : IniFile) : ini.emplaceAll [] = ini := rfl

@[simp] theorem emplaceAll_cons (ini : IniFile) (e : Text × Text) (es : List (Text × Text)) :
    ini.emplaceAll (e :: es) = (ini.emplace e.1 e.2).emplaceAll es := rfl

/-- Comments and entries do not get in each other's way. -/
theorem emplaceAll_comments (ini : IniFile) (comments : List (Nat × Text)) (es : List (Text × Text)) :
    { ini with mComments := comments }.emplaceAll es =
      { ini.emplaceAll es with mComments := comments } := by
  induction es generalizing ini with
  | nil => rfl
  | cons e es ih => exact ih (ini.emplace e.1 e.2)

/-- **What reading does**: the entries go to the map and the order list, the comments to their list. -/
theorem parseLines_eq (keepComments : Bool) (ls : List Text) (ini : IniFile) (n : Nat) :
    ini.parseLines keepComments n ls =
      { ini.emplaceAll (entries ls) with
        mComments := ini.mComments ++ if keepComments then commentsAt n ls else [] } := by
  induction ls generalizing ini n with
  | nil => cases keepComments <;> simp [IniFile.parseLines, entries, commentsAt]
  | cons line ls ih =>
    rw [IniFile.parseLines, commentsAt, entries, List.filterMap_cons, lineEntry]
    cases parseLine line with
    | comment =>
      dsimp only
      rw [ih]
      cases keepComments with
      | false => rfl
      | true =>
        rw [if_pos rfl, if_pos rfl, if_pos rfl, emplaceAll_comments, List.append_assoc]
        rfl
    | invalid => exact ih ini n
    | entry key value =>
      dsimp only
      rw [ih]
      rfl

/-! ### The invariant of the object -/

/-- What holds of every object. -/
structure IniFile.WellFormed (ini : IniFile) : Prop where
  nodup : ini.mOrderList.Nodup
  mem_iff : ∀ key, key ∈ ini.mOrderList ↔ (ini.mData key).isSome
  valid : ∀ key value, ini.mData key = some value → ValidKey key ∧ StoredValue value
  comments : ∀ c ∈ ini.mComments, parseLine c.2 = .comment ∧ newline ∉ c.2

theorem wellFormed_new (path : Text) : (IniFile.new path).WellFormed :=
  ⟨List.nodup_nil, by simp [IniFile.new], by simp [IniFile.new], by simp [IniFile.new]⟩

theorem wellFormed_clear (ini : IniFile) : ini.clear.WellFormed :=
  ⟨List.nodup_nil, by simp [IniFile.clear], by simp [IniFile.clear], by simp [IniFile.clear]⟩

section Emplace

variable {ini : IniFile} {key value : Text}

theorem emplace_mOrderList (h : ini.WellFormed) (key value : Text) :
    (ini.emplace key value).mOrderList =
      if key ∈ ini.mOrderList then ini.mOrderList else ini.mOrderList ++ [key] := by
  simp only [IniFile.emplace, h.mem_iff]

theorem IniFile.WellFormed.emplace (h : ini.WellFormed) (hkey : ValidKey key) (hvalue : StoredValue value) :
    (ini.emplace key value).WellFormed := by
  refine ⟨?_, ?_, ?_, h.comments⟩
  · rw [emplace_mOrderList h]
    split
    · exact h.nodup
    · rename_i hnew
      exact List.nodup_append.mpr ⟨h.nodup, List.nodup_singleton key, by
        intro a ha b hb hab
        rw [List.mem_singleton.mp hb] at hab
        exact hnew (hab ▸ ha)⟩
  · intro k
    rw [emplace_mOrderList h]
    by_cases hk : k = key
    · subst hk
      simp only [IniFile.emplace, Function.update_self, Option.isSome_some, iff_true]
      split <;> simp_all
    · simp only [IniFile.emplace, Function.update_of_ne hk, ← h.mem_iff]
      split <;> simp [hk]
  · intro k v hkv
    by_cases hk : k = key
    · subst hk
      simp only [IniFile.emplace, Function.update_self, Option.some.injEq] at hkv
      exact hkv ▸ ⟨hkey, hvalue⟩
    · simp only [IniFile.emplace, Function.update_of_ne hk] at hkv
      exact h.valid k v hkv

theorem IniFile.WellFormed.emplaceAll {es : List (Text × Text)} (h : ini.WellFormed)
    (hes : ∀ e ∈ es, ValidKey e.1 ∧ StoredValue e.2) : (ini.emplaceAll es).WellFormed := by
  induction es generalizing ini with
  | nil => exact h
  | cons e es ih =>
    obtain ⟨hkey, hvalue⟩ := hes e List.mem_cons_self
    exact ih (h.emplace hkey hvalue) fun e' he' => hes e' (List.mem_cons_of_mem e he')

/-- The order list after some insertions, beside the record of all of them. -/
theorem emplaceAll_firstOccurrences (log : List Text) {es : List (Text × Text)} (h : ini.WellFormed)
    (hes : ∀ e ∈ es, ValidKey e.1 ∧ StoredValue e.2) (hlog : ini.mOrderList = firstOccurrences log) :
    (ini.emplaceAll es).mOrderList = firstOccurrences (log ++ es.map Prod.fst) := by
  induction es generalizing ini log with
  | nil => simpa using hlog
  | cons e es ih =>
    obtain ⟨hkey, hvalue⟩ := hes e List.mem_cons_self
    have hnext : (ini.emplace e.1 e.2).mOrderList = firstOccurrences (log ++ [e.1]) := by
      rw [emplace_mOrderList h, firstOccurrences_concat, hlog]
      by_cases hmem : e.1 ∈ log <;> simp [hmem]
    rw [emplaceAll_cons, ih _ (h.emplace hkey hvalue) (fun e' he' => hes e' (List.mem_cons_of_mem e he')) hnext,
      List.append_assoc]
    rfl

/-- Entries whose keys are new and differ from one another. -/
theorem emplaceAll_mOrderList (ini : IniFile) {es : List (Text × Text)} (hnodup : (es.map Prod.fst).Nodup)
    (hnew : ∀ e ∈ es, ini.mData e.1 = none) :
    (ini.emplaceAll es).mOrderList = ini.mOrderList ++ es.map Prod.fst := by
  induction es generalizing ini with
  | nil => simp
  | cons e es ih =>
    rw [List.map_cons, List.nodup_cons] at hnodup
    rw [emplaceAll_cons, ih _ hnodup.2]
    · simp [IniFile.emplace, hnew e List.mem_cons_self]
    · intro e' he'
      have hne : e'.1 ≠ e.1 := fun heq => hnodup.1 (heq ▸ List.mem_map_of_mem he')
      simp only [IniFile.emplace, Function.update_of_ne hne]
      exact hnew e' (List.mem_cons_of_mem e he')

/-- Entries that give each key the value of one function. -/
theorem emplaceAll_mData {keys : List Text} (value : Text → Text) (key : Text) :
    (ini.emplaceAll (keys.map fun k => (k, value k))).mData key =
      if key ∈ keys then some (value key) else ini.mData key := by
  induction keys generalizing ini with
  | nil => simp
  | cons k keys ih =>
    rw [List.map_cons, emplaceAll_cons, ih]
    by_cases hmem : key ∈ keys
    · simp [hmem]
    · by_cases hk : key = k
      · simp [hk, IniFile.emplace]
      · simp [hmem, hk, IniFile.emplace]

end Emplace

/-- A key of no entry. -/
theorem emplaceAll_not_mem (ini : IniFile) {es : List (Text × Text)} {key : Text} (hkey : key ∉ es.map Prod.fst) :
    (ini.emplaceAll es).mData key = ini.mData key := by
  induction es generalizing ini with
  | nil => rfl
  | cons e es ih =>
    rw [List.map_cons, List.mem_cons, not_or] at hkey
    rw [emplaceAll_cons, ih _ hkey.2]
    exact Function.update_of_ne hkey.1 ..

/-- The value of an entry of a list whose keys differ. -/
theorem emplaceAll_mem (ini : IniFile) {es : List (Text × Text)} (hnodup : (es.map Prod.fst).Nodup)
    {e : Text × Text} (he : e ∈ es) : (ini.emplaceAll es).mData e.1 = some e.2 := by
  induction es generalizing ini with
  | nil => simp at he
  | cons e' es ih =>
    rw [List.map_cons, List.nodup_cons] at hnodup
    rcases List.mem_cons.mp he with rfl | he
    · rw [emplaceAll_cons, emplaceAll_not_mem _ hnodup.1]
      exact Function.update_self ..
    · exact ih _ hnodup.2 he

theorem mem_entries {ls : List Text} {e : Text × Text} (h : e ∈ entries ls) :
    ∃ line ∈ ls, parseLine line = .entry e.1 e.2 := by
  obtain ⟨line, hline, he⟩ := List.mem_filterMap.mp h
  refine ⟨line, hline, ?_⟩
  unfold lineEntry at he
  split at he
  · rename_i hparse
    rw [hparse, ← Option.some.inj he]
  · cases he

theorem entries_valid {ls : List Text} : ∀ e ∈ entries ls, ValidKey e.1 ∧ StoredValue e.2 := by
  intro e he
  obtain ⟨line, -, hparse⟩ := mem_entries he
  exact parseLine_valid hparse

theorem mem_commentsAt {ls : List Text} {n : Nat} {c : Nat × Text} (h : c ∈ commentsAt n ls) :
    n < c.1 ∧ parseLine c.2 = .comment ∧ c.2 ∈ ls := by
  induction ls generalizing n with
  | nil => simp [commentsAt] at h
  | cons line ls ih =>
    rw [commentsAt] at h
    split at h
    · rename_i hparse
      rcases List.mem_cons.mp h with rfl | h
      · exact ⟨Nat.lt_succ_self n, hparse, List.mem_cons_self⟩
      · obtain ⟨hlt, hcomment, hmem⟩ := ih h
        exact ⟨by omega, hcomment, List.mem_cons_of_mem line hmem⟩
    · obtain ⟨hlt, hcomment, hmem⟩ := ih h
      exact ⟨hlt, hcomment, List.mem_cons_of_mem line hmem⟩
    · obtain ⟨hlt, hcomment, hmem⟩ := ih h
      exact ⟨by omega, hcomment, List.mem_cons_of_mem line hmem⟩

theorem IniFile.WellFormed.parseStream {ini : IniFile} (h : ini.WellFormed) (data : Text)
    (keepComments : Bool) : (ini.parseStream data keepComments).WellFormed := by
  have hall : (ini.emplaceAll (entries (lines newline data))).WellFormed := h.emplaceAll entries_valid
  rw [IniFile.parseStream, parseLines_eq]
  refine ⟨hall.nodup, hall.mem_iff, hall.valid, ?_⟩
  intro c hc
  rcases List.mem_append.mp hc with hc | hc
  · exact h.comments c hc
  · split at hc
    · obtain ⟨-, hcomment, hmem⟩ := mem_commentsAt hc
      exact ⟨hcomment, not_mem_of_mem_lines hmem⟩
    · simp at hc

/-! ### What is printed -/

/-- The keys that are printed. -/
def keptKeys (discardEmpty : Bool) (mData : Text → Option Text) (keys : List Text) : List Text :=
  keys.filter fun key => !(discardEmpty && ((mData key).getD []).isEmpty)

theorem mem_writeComments {n : Nat} {comments : List (Nat × Text)} :
    (∀ line ∈ (writeComments n comments).1, ∃ c ∈ comments, c.2 = line) ∧
      ∀ c ∈ (writeComments n comments).2.1, c ∈ comments := by
  induction comments generalizing n with
  | nil => simp [writeComments]
  | cons comment comments ih =>
    rw [writeComments]
    split
    · refine ⟨?_, fun c hc => List.mem_cons_of_mem _ (ih.2 c hc)⟩
      intro line hline
      rcases List.mem_cons.mp hline with rfl | hline
      · exact ⟨comment, List.mem_cons_self, rfl⟩
      · obtain ⟨c, hc, hcl⟩ := ih.1 line hline
        exact ⟨c, List.mem_cons_of_mem _ hc, hcl⟩
    · exact ⟨by simp, fun c hc => hc⟩

/-- The lines that are printed are comments and lines of entries. -/
theorem writeLines_lines {discardEmpty : Bool} {mData : Text → Option Text} {keys : List Text}
    {comments : List (Nat × Text)} {n : Nat} {line : Text}
    (h : line ∈ writeLines discardEmpty mData keys comments n) :
    (∃ c ∈ comments, c.2 = line) ∨ ∃ key ∈ keys, line = entryLine key ((mData key).getD []) := by
  induction keys generalizing comments n with
  | nil => simp [writeLines] at h
  | cons key keys ih =>
    rw [writeLines] at h
    dsimp only at h
    rw [List.append_assoc, List.mem_append, List.mem_append] at h
    rcases h with h | h | h
    · exact .inl (mem_writeComments.1 line h)
    · split at h
      · simp at h
      · exact .inr ⟨key, List.mem_cons_self, List.mem_singleton.mp h⟩
    · rcases ih h with ⟨c, hc, hcl⟩ | ⟨k, hk, hkl⟩
      · exact .inl ⟨c, mem_writeComments.2 c hc, hcl⟩
      · exact .inr ⟨k, List.mem_cons_of_mem key hk, hkl⟩

theorem entries_append (ls ms : List Text) : entries (ls ++ ms) = entries ls ++ entries ms :=
  List.filterMap_append

theorem entries_comments {ls : List Text} (h : ∀ line ∈ ls, parseLine line = .comment) : entries ls = [] := by
  rw [entries, List.filterMap_eq_nil_iff]
  intro line hline
  rw [lineEntry, h line hline]

/-- **What is printed reads back**: the kept entries, in the order of the keys. -/
theorem writeLines_entries {discardEmpty : Bool} {mData : Text → Option Text} {keys : List Text}
    {comments : List (Nat × Text)} {n : Nat} (hkeys : ∀ key ∈ keys, ValidKey key)
    (hvalues : ∀ key, StoredValue ((mData key).getD []))
    (hcomments : ∀ c ∈ comments, parseLine c.2 = .comment) :
    entries (writeLines discardEmpty mData keys comments n) =
      (keptKeys discardEmpty mData keys).map fun key => (key, (mData key).getD []) := by
  induction keys generalizing comments n with
  | nil => rfl
  | cons key keys ih =>
    have hout : ∀ line ∈ (writeComments (n + 1) comments).1, parseLine line = .comment := by
      intro line hline
      obtain ⟨c, hc, hcl⟩ := mem_writeComments.1 line hline
      exact hcl ▸ hcomments c hc
    have hrest : ∀ c ∈ (writeComments (n + 1) comments).2.1, parseLine c.2 = .comment :=
      fun c hc => hcomments c (mem_writeComments.2 c hc)
    have hentry : lineEntry (entryLine key ((mData key).getD [])) = some (key, (mData key).getD []) := by
      rw [lineEntry, parseLine_entryLine (hkeys key List.mem_cons_self) (hvalues key)]
    rw [writeLines]
    dsimp only
    rw [entries_append, entries_append, entries_comments hout,
      ih (fun k hk => hkeys k (List.mem_cons_of_mem key hk)) hrest, keptKeys, keptKeys, List.filter_cons]
    cases hempty : discardEmpty && ((mData key).getD []).isEmpty with
    | true => simp [entries]
    | false => simp [entries, hentry]

end Goldfish.Files
