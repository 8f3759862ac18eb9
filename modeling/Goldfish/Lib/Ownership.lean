import Mathlib.Data.List.Nodup
import Mathlib.Algebra.BigOperators.Group.Finset.Piecewise
import Mathlib.Data.Finset.Max
import Mathlib.Algebra.Order.BigOperators.Group.Finset
import Mathlib.Algebra.GroupWithZero.Nat

/-!
# Goldfish.Lib.Ownership

**Handing things out**, over arbitrary things, of which some are `free`.

`Takes free free' taken` says that a step takes some that were free, each of them once, and
leaves the others as they were. Steps are composed by `Takes.append`, and what a step took
may be given back (`Takes.giveBack`). `Allocates` is an allocator that meets a request as long
as there is room for it, and `Allocates.each` what follows for any number of requests.

`sum_eq_sum_set_sub` counts what is left where one of several gave some of what it had, and
`sum_le_sum_of_card_le` is the rule for taking the largest first: as many of any others are
not more.
-/

namespace Goldfish.Lib

variable {α : Type}

/-- A step takes these, and nothing else changes. -/
structure Takes (free free' : α → Prop) (taken : List α) : Prop where
  nodup : taken.Nodup
  wasFree : ∀ a ∈ taken, free a
  after : ∀ a, free' a ↔ free a ∧ a ∉ taken

namespace Takes

variable {free free' free'' : α → Prop} {taken taken' : List α} {a : α}

theorem nil : Takes free free [] := ⟨List.nodup_nil, nofun, fun _ => by simp⟩

/-- **One step after another.** -/
theorem append (h : Takes free free' taken) (h' : Takes free' free'' taken') :
    Takes free free'' (taken ++ taken') := by
  refine ⟨List.nodup_append'.mpr ⟨h.nodup, h'.nodup, fun a ha ha' => ?_⟩, fun a ha => ?_, fun a => ?_⟩
  · exact ((h.after a).mp (h'.wasFree a ha')).2 ha
  · rcases List.mem_append.mp ha with ha | ha
    · exact h.wasFree a ha
    · exact ((h.after a).mp (h'.wasFree a ha)).1
  · rw [h'.after, h.after, List.mem_append, not_or, and_assoc]

/-- The last thing is given back at once. -/
theorem giveBack (h : Takes free free' (taken ++ [a])) (hback : ∀ b, free'' b ↔ free' b ∨ b = a) :
    Takes free free'' taken := by
  obtain ⟨hnodup, -, hdisjoint⟩ := List.nodup_append'.mp h.nodup
  refine ⟨hnodup, fun b hb => h.wasFree b (List.mem_append_left _ hb), fun b => ?_⟩
  rw [hback, h.after, List.mem_append, List.mem_singleton, not_or]
  constructor
  · rintro (⟨hfree, hnot, -⟩ | rfl)
    · exact ⟨hfree, hnot⟩
    · exact ⟨h.wasFree b (by simp), fun hb => hdisjoint hb (by simp)⟩
  · intro ⟨hfree, hnot⟩
    by_cases hb : b = a
    · exact Or.inr hb
    · exact Or.inl ⟨hfree, hnot, hb⟩

/-- The order does not matter. -/
theorem perm (h : Takes free free' taken) (hperm : taken.Perm taken') : Takes free free' taken' :=
  ⟨hperm.nodup_iff.mp h.nodup, fun a ha => h.wasFree a (hperm.mem_iff.mpr ha), fun a => by rw [h.after, hperm.mem_iff]⟩

end Takes

/-! ### One request after another -/

section Requests

variable {σ ρ α : Type} {give : σ → ρ → Option (List α × σ)} {ok : σ → Prop} {free : σ → α → Prop} {room : σ → Nat}
  {size : ρ → Nat}

/-- What is given for each of some requests, if none of them is refused. -/
def giveEach (give : σ → ρ → Option (List α × σ)) : σ → List ρ → Option (List α × σ)
  | s, [] => some ([], s)
  | s, r :: rs =>
    (give s r).bind fun given => (giveEach give given.2 rs).map fun rest => (given.1 ++ rest.1, rest.2)

/-- A request is met as long as there is room for it, with things that were free. -/
structure Allocates (give : σ → ρ → Option (List α × σ)) (ok : σ → Prop) (free : σ → α → Prop) (room : σ → Nat)
    (size : ρ → Nat) : Prop where
  some_of_le : ∀ s r, ok s → size r ≤ room s → ∃ taken s', give s r = some (taken, s') ∧ ok s' ∧
    Takes (free s) (free s') taken ∧
    taken.length = size r ∧ room s = room s' + size r
  none_of_lt : ∀ s r, ok s → room s < size r → give s r = none

/-- **Requests, one after another**: nothing is given twice, and one is refused only if there is no room for all
of them. -/
theorem Allocates.each (h : Allocates give ok free room size) {s : σ} (hok : ok s) (rs : List ρ) :
    ((rs.map size).sum ≤ room s ∧ ∃ taken s', giveEach give s rs = some (taken, s') ∧ Takes (free s) (free s') taken ∧
      taken.length = (rs.map size).sum) ∨ (room s < (rs.map size).sum ∧ giveEach give s rs = none) := by
  induction rs generalizing s with
  | nil => exact Or.inl ⟨Nat.zero_le _, [], s, rfl, Takes.nil, rfl⟩
  | cons r rs ih =>
    rw [giveEach, List.map_cons, List.sum_cons]
    rcases Nat.lt_or_ge (room s) (size r) with hfull | hroom
    · rw [h.none_of_lt s r hok hfull]
      exact Or.inr ⟨by omega, rfl⟩
    · obtain ⟨taken, s₁, hgive, hok₁, htakes, hlength, htotal⟩ := h.some_of_le s r hok hroom
      rw [hgive, Option.bind_some]
      rcases ih hok₁ with ⟨hle, rest, s', hrest, htakes', hlength'⟩ | ⟨hlt, hrest⟩
      · rw [hrest, Option.map_some]
        refine Or.inl ⟨by omega, _, _, rfl, htakes.append htakes', ?_⟩
        rw [List.length_append, hlength, hlength']
      · rw [hrest]
        exact Or.inr ⟨by omega, rfl⟩

end Requests

/-! ### Sizes -/

/-- Taking from one of several. -/
theorem sum_eq_sum_set_sub {sizes : List Nat} {i size n : Nat} (h : sizes[i]? = some size) (hn : n ≤ size) :
    sizes.sum = (sizes.set i (size - n)).sum + n := by
  induction sizes generalizing i with
  | nil => cases h
  | cons s sizes ih =>
    cases i with
    | zero =>
      obtain rfl : s = size := Option.some.inj h
      rw [List.set_cons_zero, List.sum_cons, List.sum_cons]
      omega
    | succ i =>
      rw [List.set_cons_succ, List.sum_cons, List.sum_cons, ih h]
      omega

/-- The sum of a list, place by place. -/
theorem sum_eq_sum_range (sizes : List Nat) : sizes.sum = ∑ i ∈ Finset.range sizes.length, (sizes[i]?).getD 0 := by
  induction sizes with
  | nil => rfl
  | cons size sizes ih =>
    rw [List.sum_cons, ih, List.length_cons, Finset.sum_range_succ']
    simp [Nat.add_comm]

/-- **As many others are not more**, where each of the first is at least as large as each of the others. -/
theorem sum_le_sum_of_card_le [DecidableEq α] {size : α → Nat} {picked others : Finset α}
    (hcard : others.card ≤ picked.card) (hlarge : ∀ p ∈ picked, ∀ o ∈ others, o ∉ picked → size o ≤ size p) :
    ∑ o ∈ others, size o ≤ ∑ p ∈ picked, size p := by
  have hsplit : ∑ o ∈ others, size o = ∑ o ∈ others ∩ picked, size o + ∑ o ∈ others \ picked, size o :=
    (Finset.sum_inter_add_sum_sdiff others picked size).symm
  have hsplit' : ∑ p ∈ picked, size p = ∑ p ∈ picked ∩ others, size p + ∑ p ∈ picked \ others, size p :=
    (Finset.sum_inter_add_sum_sdiff picked others size).symm
  have hrest : (others \ picked).card ≤ (picked \ others).card := by
    have h₁ := Finset.card_sdiff_add_card_inter others picked
    have h₂ := Finset.card_sdiff_add_card_inter picked others
    rw [Finset.inter_comm] at h₂
    omega
  rw [hsplit, hsplit', Finset.inter_comm]
  refine Nat.add_le_add_left ?_ _
  rcases Finset.eq_empty_or_nonempty (picked \ others) with hempty | hne
  · rw [hempty, Finset.card_empty, Nat.le_zero, Finset.card_eq_zero] at hrest
    rw [hempty, hrest]
  · obtain ⟨least, hleast, hmin⟩ := Finset.exists_min_image (picked \ others) size hne
    calc ∑ o ∈ others \ picked, size o ≤ (others \ picked).card • size least := by
          refine Finset.sum_le_card_nsmul _ _ _ fun o ho => ?_
          obtain ⟨ho, hnot⟩ := Finset.mem_sdiff.mp ho
          exact hlarge least (Finset.mem_sdiff.mp hleast).1 o ho hnot
      _ ≤ (picked \ others).card • size least := Nat.mul_le_mul_right _ hrest
      _ ≤ ∑ p ∈ picked \ others, size p := Finset.card_nsmul_le_sum _ _ _ hmin

end Goldfish.Lib
