import Mathlib.Data.List.Basic

/-!
# Goldfish.Lib.Search

**Searching a word in a text**, over arbitrary symbols: `strstr` from a position on. What it
finds is the next occurrence (`strstr_eq_some_iff`), and it finds nothing if there is none
(`strstr_eq_none_iff`).
-/

namespace Goldfish.Lib

/-- The word is at this position of the text. -/
def OccursAt {α : Type} (text word : List α) (p : Nat) : Prop := p ≤ text.length ∧ word <+: text.drop p

/-- A word ends in the text. -/
theorem OccursAt.length_le {α : Type} {text word : List α} {p : Nat} (h : OccursAt text word p) :
    p + word.length ≤ text.length := by
  have hle := h.2.length_le
  rw [List.length_drop] at hle
  have hp := h.1
  omega

/-- One more symbol of the word. -/
theorem occursAt_concat_iff {α : Type} {text word : List α} {p : Nat} {a : α} :
    OccursAt text (word ++ [a]) p ↔ OccursAt text word p ∧ text[p + word.length]? = some a := by
  have hget : text[p + word.length]? = (text.drop p)[word.length]? := by rw [List.getElem?_drop]
  rw [hget]
  constructor
  · rintro ⟨hp, more, hmore⟩
    refine ⟨⟨hp, a :: more, ?_⟩, ?_⟩
    · rw [← hmore, List.append_assoc, List.singleton_append]
    · rw [← hmore, List.append_assoc, List.getElem?_append_right (Nat.le_refl _), Nat.sub_self]
      rfl
  · rintro ⟨⟨hp, more, hmore⟩, ha⟩
    rw [← hmore, List.getElem?_append_right (Nat.le_refl _), Nat.sub_self] at ha
    cases more with
    | nil => cases ha
    | cons b more =>
      obtain rfl : b = a := Option.some.inj ha
      exact ⟨hp, more, by rw [← hmore, List.append_assoc, List.singleton_append]⟩

variable {α : Type} [DecidableEq α]

instance (text word : List α) (p : Nat) : Decidable (OccursAt text word p) :=
  inferInstanceAs (Decidable (p ≤ text.length ∧ word <+: text.drop p))

/-- The first position from `start` on at which the word is. -/
def strstr (text word : List α) (start : Nat) : Option Nat :=
  (List.range' start (text.length + 1 - start)).find? fun p => OccursAt text word p

variable {text word : List α} {start p : Nat}

theorem strstr_eq_some_iff :
    strstr text word start = some p ↔
      start ≤ p ∧ OccursAt text word p ∧ ∀ q, start ≤ q → q < p → ¬ OccursAt text word q := by
  rw [strstr, List.find?_range'_eq_some, List.mem_range'_1, decide_eq_true_eq]
  constructor
  · rintro ⟨hat, ⟨hstart, -⟩, hbefore⟩
    exact ⟨hstart, hat, fun q hq hqp => by simpa using hbefore q hq hqp⟩
  · rintro ⟨hstart, hat, hbefore⟩
    have hle := hat.1
    exact ⟨hat, ⟨hstart, by omega⟩, fun q hq hqp => by simpa using hbefore q hq hqp⟩

theorem strstr_eq_none_iff : strstr text word start = none ↔ ∀ q, start ≤ q → ¬ OccursAt text word q := by
  rw [strstr, List.find?_range'_eq_none]
  constructor
  · intro h q hq hat
    have hle := hat.1
    exact absurd (h q hq (by omega)) (by simpa using hat)
  · intro h q hq _
    simpa using h q hq

end Goldfish.Lib
