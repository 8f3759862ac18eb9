import Mathlib.Data.List.Basic

/-!
# Goldfish.Lib.Repeats

**Counting repetitions**, over arbitrary elements: an element that is the `same` as the last
one is only counted, and any other one is reported with the number of repetitions in
front of it.

`copies` writes the repetitions out again. With those that have not been reported yet it
gives back the whole list, as seen by a function that respects `same` (`copies_repeats`).
-/

namespace Goldfish.Lib

variable {α β : Type}

/-- What is reported, and what is left: the last element and its repetitions. -/
def repeats (same : α → α → Bool) (last : α) (count : Nat) : List α → List (Nat × α) × α × Nat
  | [] => ([], last, count)
  | y :: ys =>
    if same last y then repeats same last (count + 1) ys
    else
      let rest := repeats same y 0 ys
      ((count, y) :: rest.1, rest.2)

/-- The elements that reports stand for: repetitions of the last one, and a new one. -/
def copies (last : β) : List (Nat × β) → List β
  | [] => []
  | (count, y) :: items => List.replicate count last ++ y :: copies y items

/-- **Nothing is lost.** -/
theorem copies_repeats {same : α → α → Bool} {f : α → β} (hsame : ∀ x y, same x y = true → f x = f y)
    (last : α) (count : Nat) (ys : List α) :
    copies (f last) ((repeats same last count ys).1.map fun item => (item.1, f item.2)) ++
        List.replicate (repeats same last count ys).2.2 (f (repeats same last count ys).2.1) =
      List.replicate count (f last) ++ ys.map f := by
  induction ys generalizing last count with
  | nil => rw [repeats, List.map_nil, copies, List.nil_append, List.map_nil, List.append_nil]
  | cons y ys ih =>
    rw [repeats]
    split
    · rename_i h
      rw [ih, List.replicate_succ', List.append_assoc, List.singleton_append, List.map_cons, hsame last y h]
    · rw [List.map_cons, copies, List.append_assoc, List.cons_append, ih, List.replicate_zero, List.nil_append,
        List.map_cons]

end Goldfish.Lib
