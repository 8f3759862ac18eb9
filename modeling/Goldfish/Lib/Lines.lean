import Mathlib.Data.List.Dedup
import Mathlib.Data.List.DropRight
import Mathlib.Data.List.TakeWhile

/-!
# Goldfish.Lib.Lines

**Texts as lines**, over arbitrary symbols and an arbitrary separator.

`lines` cuts a text behind every separator; what is left at the end is a line if it is
not empty. `unlines` puts a separator behind every line. Every list of lines without
separators survives the way out and back (`lines_unlines`), and what `lines` returns is
such a list (`not_mem_of_mem_lines`).

The second part is what scanning a line from the left needs: where a span of symbols
of one kind ends; `words` are what is left between such spans. The last one keeps the
first occurrences of a list's elements.
-/

namespace Goldfish.Lib

variable {α : Type}

/-! ### Cutting and joining -/

/-- The text of some lines. -/
def unlines (sep : α) (ls : List (List α)) : List α := ls.flatMap (· ++ [sep])

@[simp] theorem unlines_nil (sep : α) : unlines sep [] = [] := rfl

@[simp] theorem unlines_cons (sep : α) (l : List α) (ls : List (List α)) :
    unlines sep (l :: ls) = l ++ sep :: unlines sep ls := by
  simp [unlines]

theorem unlines_append (sep : α) (ls ms : List (List α)) :
    unlines sep (ls ++ ms) = unlines sep ls ++ unlines sep ms := List.flatMap_append

section Lines

variable [DecidableEq α] (sep : α)

/-- The lines of a text. -/
def lines : List α → List (List α)
  | [] => []
  | c :: cs =>
      if c = sep then [] :: lines cs
      else
        match lines cs with
        | [] => [[c]]
        | l :: ls => (c :: l) :: ls

@[simp] theorem lines_nil : lines sep [] = [] := rfl

variable {sep}

/-- The first line of a text. -/
theorem lines_append {l : List α} (h : sep ∉ l) (t : List α) :
    lines sep (l ++ sep :: t) = l :: lines sep t := by
  induction l with
  | nil => simp [lines]
  | cons c l ih =>
    have hc : c ≠ sep := fun heq => h (heq ▸ List.mem_cons_self)
    rw [List.cons_append, lines, if_neg hc, ih fun hmem => h (List.mem_cons_of_mem c hmem)]

/-- The last line of a text, which has no separator behind it. -/
theorem lines_of_not_mem {t : List α} (h : sep ∉ t) (hne : t ≠ []) : lines sep t = [t] := by
  induction t with
  | nil => exact absurd rfl hne
  | cons c t ih =>
    have hc : c ≠ sep := fun heq => h (heq ▸ List.mem_cons_self)
    rw [lines, if_neg hc]
    cases t with
    | nil => rfl
    | cons d t => rw [ih (fun hmem => h (List.mem_cons_of_mem c hmem)) (List.cons_ne_nil d t)]

theorem lines_unlines {ls : List (List α)} (h : ∀ l ∈ ls, sep ∉ l) : lines sep (unlines sep ls) = ls := by
  induction ls with
  | nil => rfl
  | cons l ls ih =>
    rw [unlines_cons, lines_append (h l List.mem_cons_self),
      ih fun m hm => h m (List.mem_cons_of_mem l hm)]

/-- A line of a text with one more symbol in front: one that was there before, an empty one, or a longer one. -/
theorem mem_lines_cons {c : α} {t l : List α} (h : l ∈ lines sep (c :: t)) :
    l = [] ∨ l ∈ lines sep t ∨ c ≠ sep ∧ ∃ m, (m = [] ∨ m ∈ lines sep t) ∧ l = c :: m := by
  rw [lines] at h
  split at h
  · exact (List.mem_cons.mp h).imp_right .inl
  · rename_i hc
    cases hls : lines sep t with
    | nil =>
      rw [hls, List.mem_singleton] at h
      exact .inr (.inr ⟨hc, [], .inl rfl, h⟩)
    | cons m ms =>
      rw [hls] at h
      rcases List.mem_cons.mp h with hl | hl
      · exact .inr (.inr ⟨hc, m, .inr List.mem_cons_self, hl⟩)
      · exact .inr (.inl (List.mem_cons_of_mem m hl))

theorem not_mem_of_mem_lines {t l : List α} (h : l ∈ lines sep t) : sep ∉ l := by
  induction t generalizing l with
  | nil => simp at h
  | cons c t ih =>
    rcases mem_lines_cons h with rfl | hl | ⟨hc, m, rfl | hm, rfl⟩
    · exact List.not_mem_nil
    · exact ih hl
    · exact List.not_mem_cons_of_ne_of_not_mem (Ne.symm hc) List.not_mem_nil
    · exact List.not_mem_cons_of_ne_of_not_mem (Ne.symm hc) (ih hm)

theorem subset_of_mem_lines {t l : List α} (h : l ∈ lines sep t) : l ⊆ t := by
  induction t generalizing l with
  | nil => simp at h
  | cons c t ih =>
    rcases mem_lines_cons h with rfl | hl | ⟨-, m, rfl | hm, rfl⟩
    · exact List.nil_subset _
    · exact List.subset_cons_of_subset c (ih hl)
    · exact List.cons_subset_cons c (List.nil_subset t)
    · exact List.cons_subset_cons c (ih hm)

end Lines

/-! ### Spans -/

section Spans

variable {p : α → Bool} {l : List α}

/-- A text that does not begin with a symbol of the kind. -/
def Starts (p : α → Bool) (l : List α) : Prop := ∀ a, l.head? = some a → p a = false

@[simp] theorem starts_nil : Starts p [] := by
  intro a h
  simp at h

@[simp] theorem starts_cons {a : α} : Starts p (a :: l) ↔ p a = false := by
  simp [Starts]

theorem Starts.dropWhile_eq (h : Starts p l) : l.dropWhile p = l := by
  cases l with
  | nil => rfl
  | cons a l => rw [List.dropWhile_cons_of_neg (by simp [starts_cons.mp h])]

theorem Starts.takeWhile_eq (h : Starts p l) : l.takeWhile p = [] := by
  cases l with
  | nil => rfl
  | cons a l => rw [List.takeWhile_cons_of_neg (by simp [starts_cons.mp h])]

theorem starts_dropWhile (p : α → Bool) (l : List α) : Starts p (l.dropWhile p) := by
  induction l with
  | nil => exact starts_nil
  | cons a l ih =>
    by_cases ha : p a = true
    · rwa [List.dropWhile_cons_of_pos ha]
    · rw [List.dropWhile_cons_of_neg ha, starts_cons]
      exact Bool.eq_false_iff.mpr ha

/-- A span that ends where the rest begins. -/
theorem takeWhile_append_starts {r : List α} (hl : ∀ a ∈ l, p a = true) (hr : Starts p r) :
    (l ++ r).takeWhile p = l := by
  rw [List.takeWhile_append_of_pos hl, hr.takeWhile_eq, List.append_nil]

theorem dropWhile_append_starts {r : List α} (hl : ∀ a ∈ l, p a = true) (hr : Starts p r) :
    (l ++ r).dropWhile p = r := by
  rw [List.dropWhile_append_of_pos hl, hr.dropWhile_eq]

/-- What is left in front when the symbols of a kind are dropped from the end of a text still does not
begin with one. -/
theorem Starts.rdropWhile {q : α → Bool} (h : Starts q l) : Starts q (l.rdropWhile p) := by
  intro a ha
  obtain ⟨t, ht⟩ := List.rdropWhile_prefix p l
  rw [List.head?_eq_some_iff] at ha
  obtain ⟨tail, htail⟩ := ha
  refine h a ?_
  rw [← ht, htail]
  rfl

theorem rdropWhile_cons_of_ne_nil (a : α) (h : l.rdropWhile p ≠ []) :
    (a :: l).rdropWhile p = a :: l.rdropWhile p := by
  unfold List.rdropWhile at h ⊢
  rw [List.reverse_cons, List.dropWhile_append, if_neg (by simpa using h), List.reverse_append]
  rfl

theorem rdropWhile_cons_of_neg {a : α} (h : p a = false) : (a :: l).rdropWhile p = a :: l.rdropWhile p := by
  by_cases hl : l.rdropWhile p = []
  · have hdrop : l.reverse.dropWhile p = [] := by simpa [List.rdropWhile] using hl
    rw [List.rdropWhile, List.reverse_cons, List.dropWhile_append, hdrop, hl]
    simp [h]
  · exact rdropWhile_cons_of_ne_nil a hl

end Spans

/-! ### Words -/

/-- The pieces of a text between symbols of a kind, without the empty ones. -/
def words (p : α → Bool) (l : List α) : List (List α) := (l.splitOnP p).filter (fun w => !w.isEmpty)

section Words

variable {p : α → Bool} {l : List α}

@[simp] theorem words_nil : words p [] = [] := rfl

theorem words_cons_of_pos {a : α} (h : p a = true) : words p (a :: l) = words p l := by
  rw [words, List.splitOnP_cons_eq_if_modifyHead, if_pos h]
  rfl

/-- Behind what separates the words, the first word begins. -/
theorem words_dropWhile (l : List α) : words p (l.dropWhile p) = words p l := by
  induction l with
  | nil => rfl
  | cons a l ih =>
    by_cases ha : p a = true
    · rw [List.dropWhile_cons_of_pos ha, ih, words_cons_of_pos ha]
    · rw [List.dropWhile_cons_of_neg ha]

/-- The first word of a text that begins with one. -/
theorem words_append {w : List α} (hne : w ≠ []) (hw : ∀ a ∈ w, p a = false) (r : List α)
    (hr : Starts (fun a => !p a) r) : words p (w ++ r) = w :: words p r := by
  have hkeep : ∀ ws : List (List α), (w :: ws).filter (fun w => !w.isEmpty) = w :: ws.filter (fun w => !w.isEmpty) :=
    fun ws => List.filter_cons_of_pos (by simpa using hne)
  cases r with
  | nil => rw [List.append_nil, words, List.splitOnP_eq_singleton hw, hkeep, List.filter_nil, words_nil]
  | cons a r =>
    have ha : p a = true := by simpa using hr
    rw [words, List.splitOnP_append_cons_of_forall_mem hw a ha, hkeep, words_cons_of_pos ha]
    rfl

/-- A text without a word in it. -/
theorem words_of_dropWhile_nil (h : l.dropWhile p = []) : words p l = [] := by
  rw [← words_dropWhile, h, words_nil]

/-- A text with a word in it. -/
theorem words_of_dropWhile_ne_nil (h : l.dropWhile p ≠ []) :
    words p l = (l.dropWhile p).takeWhile (fun a => !p a) :: words p ((l.dropWhile p).dropWhile fun a => !p a) := by
  obtain ⟨a, r, har⟩ := List.exists_cons_of_ne_nil h
  have ha : p a = false := starts_cons.mp (har ▸ starts_dropWhile p l)
  have hne : (l.dropWhile p).takeWhile (fun a => !p a) ≠ [] := by
    rw [har, List.takeWhile_cons_of_pos (by simpa using ha)]
    exact List.cons_ne_nil _ _
  have hword : ∀ a ∈ (l.dropWhile p).takeWhile (fun a => !p a), p a = false := by
    intro a hmem
    simpa using List.mem_takeWhile_imp hmem
  rw [← words_append hne hword _ (starts_dropWhile _ _), List.takeWhile_append_dropWhile, words_dropWhile]

/-- The first word begins where the first symbol is that does not separate words. -/
theorem head?_of_words {w : List α} {ws : List (List α)} (h : words p l = w :: ws) :
    w.head? = (l.dropWhile p).head? := by
  by_cases hnil : l.dropWhile p = []
  · rw [words_of_dropWhile_nil hnil] at h
    cases h
  · obtain ⟨a, r, har⟩ := List.exists_cons_of_ne_nil hnil
    have ha : p a = false := starts_cons.mp (har ▸ starts_dropWhile p l)
    rw [words_of_dropWhile_ne_nil hnil, List.cons.injEq] at h
    rw [← h.1, har, List.takeWhile_cons_of_pos (by simpa using ha)]
    rfl

theorem ne_nil_of_mem_words {w : List α} (h : w ∈ words p l) : w ≠ [] := by
  simpa using (List.mem_filter.mp h).2

theorem subset_of_mem_splitOnP {w : List α} (h : w ∈ l.splitOnP p) : w ⊆ l := by
  induction l generalizing w with
  | nil =>
    rw [List.splitOnP_nil, List.mem_singleton] at h
    exact h ▸ List.Subset.refl _
  | cons a l ih =>
    rw [List.splitOnP_cons_eq_if_modifyHead] at h
    split at h
    · rcases List.mem_cons.mp h with rfl | h
      · exact List.nil_subset _
      · exact List.subset_cons_of_subset a (ih h)
    · obtain ⟨v, vs, hvs⟩ := List.exists_cons_of_ne_nil (List.splitOnP_ne_nil p l)
      rw [hvs, List.modifyHead_cons] at h
      rcases List.mem_cons.mp h with rfl | h
      · exact List.cons_subset_cons a (ih (hvs ▸ List.mem_cons_self))
      · exact List.subset_cons_of_subset a (ih (hvs ▸ List.mem_cons_of_mem v h))

theorem subset_of_mem_words {w : List α} (h : w ∈ words p l) : w ⊆ l :=
  subset_of_mem_splitOnP (List.mem_filter.mp h).1

end Words

/-! ### First occurrences -/

/-- The elements of a list in the order of their first occurrence. -/
def firstOccurrences [DecidableEq α] (l : List α) : List α := l.reverse.dedup.reverse

section FirstOccurrences

variable [DecidableEq α]

@[simp] theorem firstOccurrences_nil : firstOccurrences ([] : List α) = [] := rfl

theorem firstOccurrences_concat (l : List α) (a : α) :
    firstOccurrences (l ++ [a]) = if a ∈ l then firstOccurrences l else firstOccurrences l ++ [a] := by
  rw [firstOccurrences, firstOccurrences, List.reverse_append, List.reverse_singleton, List.singleton_append,
    List.dedup_cons]
  simp only [List.mem_reverse]
  split
  · rfl
  · rw [List.reverse_cons]

@[simp] theorem mem_firstOccurrences {l : List α} {a : α} : a ∈ firstOccurrences l ↔ a ∈ l := by
  simp [firstOccurrences]

end FirstOccurrences

end Goldfish.Lib
