import Mathlib.Data.List.Perm.Basic

/-!
# Goldfish.Lib.FirstMatch

**Searching a collection that has no order**, over arbitrary elements: the first match
of an enumeration, and what is read off it. It is the same for every enumeration exactly
if all matches agree (`sameInEveryOrder_find_iff`).
-/

namespace Goldfish.Lib

variable {α β : Type}

/-- A result that does not depend on the order in which a collection is enumerated. -/
def SameInEveryOrder (collection : List α) (result : List α → β) : Prop :=
  ∀ l₁ l₂, l₁.Perm collection → l₂.Perm collection → result l₁ = result l₂

variable {collection : List α} {p : α → Bool} {f : α → β}

theorem sameInEveryOrder_congr {r s : List α → β} (h : ∀ l : List α, l.Perm collection → r l = s l) :
    SameInEveryOrder collection r ↔ SameInEveryOrder collection s := by
  constructor
  · intro hr l₁ l₂ h₁ h₂
    rw [← h l₁ h₁, ← h l₂ h₂]
    exact hr l₁ l₂ h₁ h₂
  · intro hr l₁ l₂ h₁ h₂
    rw [h l₁ h₁, h l₂ h₂]
    exact hr l₁ l₂ h₁ h₂

/-- Every match is the first one of some enumeration. -/
theorem exists_order {a : α} (ha : a ∈ collection) (hp : p a = true) :
    ∃ l : List α, l.Perm collection ∧ l.find? p = some a := by
  obtain ⟨before, behind, rfl⟩ := List.append_of_mem ha
  exact ⟨a :: (before ++ behind), List.perm_middle.symm, List.find?_cons_of_pos hp⟩

/-- **The first match in any order**, and what is read off it if there is one. -/
theorem sameInEveryOrder_find_iff {γ : Type} {g : Option β → γ} (hg : ∀ x y, g (some x) = g (some y) → x = y) :
    SameInEveryOrder collection (fun l : List α => g ((l.find? p).map f)) ↔
      ∀ a ∈ collection, ∀ b ∈ collection, p a = true → p b = true → f a = f b := by
  constructor
  · intro h a ha b hb hpa hpb
    obtain ⟨l₁, h₁, hfind₁⟩ := exists_order ha hpa
    obtain ⟨l₂, h₂, hfind₂⟩ := exists_order hb hpb
    have hsame := h l₁ l₂ h₁ h₂
    dsimp only at hsame
    rw [hfind₁, hfind₂] at hsame
    exact hg _ _ hsame
  · intro h l₁ l₂ h₁ h₂
    refine congrArg g ?_
    have hmem : ∀ a, a ∈ l₁ ↔ a ∈ l₂ := fun a => (h₁.trans h₂.symm).mem_iff
    cases hfind₁ : l₁.find? p with
    | none =>
      have hnone : l₂.find? p = none := by
        rw [List.find?_eq_none] at hfind₁ ⊢
        exact fun b hb => hfind₁ b ((hmem b).mpr hb)
      rw [hnone]
    | some a =>
      have ha := List.mem_of_find?_eq_some hfind₁
      cases hfind₂ : l₂.find? p with
      | none => exact absurd (List.find?_some hfind₁) (List.find?_eq_none.mp hfind₂ a ((hmem a).mp ha))
      | some b =>
        exact congrArg some (h a (h₁.mem_iff.mp ha) b (h₂.mem_iff.mp (List.mem_of_find?_eq_some hfind₂))
          (List.find?_some hfind₁) (List.find?_some hfind₂))

/-- Whether there is a match does not depend on the order. -/
theorem isSome_find_of_perm {l : List α} (hl : l.Perm collection) :
    (l.find? p).isSome = collection.any p := by
  rw [List.isSome_find?, Bool.eq_iff_iff, List.any_eq_true, List.any_eq_true]
  simp only [hl.mem_iff]

end Goldfish.Lib
