import Mathlib.Data.List.Basic

/-!
# Goldfish.Lib.Overwrite

**Writing over a part of a list**, with elements of any type. A list is cut where it is
written to (`overwrite_append`).
-/

namespace Goldfish.Lib

variable {α : Type}

/-- The elements from a place on are replaced by these. -/
def overwrite (l : List α) (place : Nat) (new : List α) : List α :=
  l.take place ++ (new ++ l.drop (place + new.length))

theorem overwrite_append {before old new behind : List α} (h : old.length = new.length) :
    overwrite (before ++ (old ++ behind)) before.length new = before ++ (new ++ behind) := by
  rw [overwrite, List.take_left, List.drop_append, Nat.add_sub_cancel_left,
    List.drop_eq_nil_of_le (Nat.le_add_right _ _), List.nil_append, List.drop_left' h]

/-- The same, where the place and the list are known to be those. -/
theorem overwrite_at (before old behind : List α) {l new : List α} {place : Nat} (hl : l = before ++ (old ++ behind))
    (hplace : place = before.length) (h : old.length = new.length) :
    overwrite l place new = before ++ (new ++ behind) := by
  rw [hl, hplace, overwrite_append h]

theorem modify_length_append (before : List α) (a : α) (behind : List α) (f : α → α) :
    (before ++ a :: behind).modify before.length f = before ++ f a :: behind := by
  induction before with
  | nil => rfl
  | cons b before ih => rw [List.cons_append, List.length_cons, List.modify_succ_cons, ih, List.cons_append]

end Goldfish.Lib
