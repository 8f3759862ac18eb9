import Mathlib.Data.List.Basic
import Mathlib.Data.List.Nodup
import Mathlib.Order.Defs.Unbundled
import Mathlib.Order.RelClasses

/-!
# Goldfish.Lib.StdSet

**Ordered sets of keyed elements**, the shape of a C++ `std::set` whose
comparator looks at a key of the element only. A set is the list of its
elements in iteration order together with the proof that the keys strictly
increase along it, so two elements never share a key and a set out of order
cannot be built.

Elements may be updated in place as long as their key stays what it was
(`StdSet.map`): that is the `const_cast` idiom of code which keeps mutable
records in a `std::set` and declares the key fields `const`.
-/

namespace Goldfish.Lib

variable {α κ : Type} {key : α → κ} {r : κ → κ → Prop}

/-- A `std::set` of `α` ordered by `r` on the key of an element. `elems` is the
iteration order. -/
structure StdSet (key : α → κ) (r : κ → κ → Prop) where
  elems : List α
  sorted : elems.Pairwise fun a b => r (key a) (key b)

namespace StdSet

theorem ext {s t : StdSet key r} (h : s.elems = t.elems) : s = t := by
  obtain ⟨xs, hx⟩ := s
  obtain ⟨ys, hy⟩ := t
  obtain rfl : xs = ys := h
  rfl

instance : Membership α (StdSet key r) := ⟨fun s a => a ∈ s.elems⟩

theorem mem_def {a : α} {s : StdSet key r} : a ∈ s ↔ a ∈ s.elems := Iff.rfl

/-- The empty set. -/
def empty : StdSet key r := ⟨[], List.Pairwise.nil⟩

instance : EmptyCollection (StdSet key r) := ⟨empty⟩

@[simp] theorem elems_empty : (∅ : StdSet key r).elems = [] := rfl

@[simp] theorem not_mem_empty (a : α) : a ∉ (∅ : StdSet key r) := List.not_mem_nil

/-- `find`: the element with the given key. -/
def find? [DecidableEq κ] (s : StdSet key r) (k : κ) : Option α :=
  s.elems.find? fun a => key a = k

theorem find?_eq_none [DecidableEq κ] {s : StdSet key r} {k : κ} :
    s.find? k = none ↔ ∀ a ∈ s, key a ≠ k := by
  simp [find?, List.find?_eq_none, mem_def]

theorem mem_of_find? [DecidableEq κ] {s : StdSet key r} {k : κ} {a : α}
    (h : s.find? k = some a) : a ∈ s ∧ key a = k := by
  refine ⟨List.mem_of_find?_eq_some h, ?_⟩
  have := List.find?_some h
  simpa using this

/-- `erase` by key. -/
def erase [DecidableEq κ] (s : StdSet key r) (k : κ) : StdSet key r :=
  ⟨s.elems.filter fun a => key a ≠ k, s.sorted.filter _⟩

@[simp] theorem mem_erase [DecidableEq κ] {s : StdSet key r} {k : κ} {a : α} :
    a ∈ s.erase k ↔ a ∈ s ∧ key a ≠ k := by
  simp [erase, mem_def]

/-- In-place update of every element, keys unchanged. -/
def map (s : StdSet key r) (f : α → α) (hf : ∀ a, key (f a) = key a) : StdSet key r :=
  ⟨s.elems.map f, List.pairwise_map.mpr (s.sorted.imp fun {a b} h => by rwa [hf a, hf b])⟩

@[simp] theorem elems_map (s : StdSet key r) (f : α → α) (hf : ∀ a, key (f a) = key a) :
    (s.map f hf).elems = s.elems.map f := rfl

@[simp] theorem mem_map {s : StdSet key r} {f : α → α} {hf : ∀ a, key (f a) = key a} {b : α} :
    b ∈ s.map f hf ↔ ∃ a ∈ s, f a = b := by
  simp [mem_def]

/-! ### Insertion -/

/-- Ordered insertion into a list, before the first element with a larger key. -/
def insertList (key : α → κ) (r : κ → κ → Prop) [DecidableRel r] (a : α) : List α → List α
  | [] => [a]
  | b :: rest => if r (key a) (key b) then a :: b :: rest else b :: insertList key r a rest

theorem mem_insertList [DecidableRel r] {a b : α} :
    ∀ {l : List α}, b ∈ insertList key r a l ↔ b = a ∨ b ∈ l
  | [] => by simp [insertList]
  | c :: rest => by
      unfold insertList
      split
      · simp
      · simp only [List.mem_cons, mem_insertList (l := rest)]
        tauto

theorem perm_insertList [DecidableRel r] (a : α) :
    ∀ l : List α, (insertList key r a l).Perm (a :: l)
  | [] => .refl _
  | c :: rest => by
      unfold insertList
      split
      · exact .refl _
      · exact ((perm_insertList a rest).cons c).trans (.swap a c rest)

/-- Inserting a key that is not there keeps the list in order. -/
theorem sorted_insertList [DecidableRel r] [IsStrictTotalOrder κ r] {a : α} :
    ∀ {l : List α}, (l.Pairwise fun a b => r (key a) (key b)) → (∀ b ∈ l, key b ≠ key a) →
      (insertList key r a l).Pairwise fun a b => r (key a) (key b)
  | [], _, _ => by simp [insertList]
  | c :: rest, hs, hne => by
      obtain ⟨hc, hrest⟩ := List.pairwise_cons.mp hs
      unfold insertList
      split
      · next hac =>
        refine List.pairwise_cons.mpr ⟨?_, hs⟩
        intro b hb
        rcases List.mem_cons.mp hb with rfl | hb
        · exact hac
        · exact IsTrans.trans _ _ _ hac (hc b hb)
      · next hac =>
        -- `c` and `a` have different keys and `a` is not the smaller one
        have hca : r (key c) (key a) := by
          rcases trichotomous_of r (key c) (key a) with h | h | h
          · exact h
          · exact absurd h (hne c List.mem_cons_self)
          · exact absurd h hac
        refine List.pairwise_cons.mpr ⟨?_, sorted_insertList hrest fun b hb =>
          hne b (List.mem_cons_of_mem _ hb)⟩
        intro b hb
        rcases mem_insertList.mp hb with rfl | hb
        · exact hca
        · exact hc b hb

/-- A filter that drops the new element does not see the insertion. -/
theorem filter_insertList [DecidableRel r] {a : α} {p : α → Bool} (ha : p a = false) :
    ∀ l : List α, (insertList key r a l).filter p = l.filter p
  | [] => by simp [insertList, ha]
  | c :: rest => by
      unfold insertList
      split
      · rw [List.filter_cons_of_neg (by simp [ha])]
      · rw [List.filter_cons, List.filter_cons, filter_insertList ha rest]

/-- An element whose key comes after all others goes to the end. -/
theorem insertList_of_last [DecidableRel r] [IsStrictTotalOrder κ r] {a : α} :
    ∀ {l : List α}, (∀ b ∈ l, r (key b) (key a)) → insertList key r a l = l ++ [a]
  | [], _ => rfl
  | c :: rest, h => by
      have hac : ¬ r (key a) (key c) := asymm_of r (h c List.mem_cons_self)
      rw [insertList, if_neg hac, insertList_of_last fun b hb => h b (List.mem_cons_of_mem _ hb)]
      rfl

/-- `emplace`: the set with `a` added, `none` when its key is already taken. -/
def emplace [DecidableEq κ] [DecidableRel r] [IsStrictTotalOrder κ r]
    (s : StdSet key r) (a : α) : Option (StdSet key r) :=
  if h : s.find? (key a) = none then
    some ⟨insertList key r a s.elems, sorted_insertList s.sorted (find?_eq_none.mp h)⟩
  else none

/-- `insert`: the set stays as it is when the key is already taken. -/
def insert [DecidableEq κ] [DecidableRel r] [IsStrictTotalOrder κ r]
    (s : StdSet key r) (a : α) : StdSet key r :=
  (s.emplace a).getD s

section Emplace

variable [DecidableEq κ] [DecidableRel r] [IsStrictTotalOrder κ r]
variable {s t : StdSet key r} {a b : α}

theorem emplace_eq_some :
    s.emplace a = some t ↔ s.find? (key a) = none ∧ t.elems = insertList key r a s.elems := by
  unfold emplace
  split
  · next h =>
    constructor
    · rintro ⟨⟩
      exact ⟨h, rfl⟩
    · rintro ⟨-, ht⟩
      exact congrArg some (ext ht.symm)
  · next h => simp [h]

/-- Erasing what was just inserted. -/
theorem erase_emplace (h : s.emplace a = some t) : t.erase (key a) = s := by
  obtain ⟨hfree, helems⟩ := emplace_eq_some.mp h
  refine ext ?_
  change t.elems.filter (fun b => key b ≠ key a) = s.elems
  rw [helems, filter_insertList (p := fun b => key b ≠ key a) (by simp)]
  refine List.filter_eq_self.mpr fun b hb => ?_
  exact decide_eq_true (find?_eq_none.mp hfree b hb)

theorem emplace_eq_none : s.emplace a = none ↔ s.find? (key a) ≠ none := by
  unfold emplace
  split <;> simp_all

/-- Inserting the elements of a list in order, behind those that are there. -/
theorem elems_foldl_insert : ∀ {l : List α} {s : StdSet key r},
    ((s.elems ++ l).Pairwise fun a b => r (key a) (key b)) →
      (l.foldl insert s).elems = s.elems ++ l
  | [], s, _ => (List.append_nil _).symm
  | a :: l, s, hsorted => by
      have hlast : ∀ b ∈ s.elems, r (key b) (key a) := fun b hb =>
        (List.pairwise_append.mp hsorted).2.2 b hb a List.mem_cons_self
      have hfree : s.find? (key a) = none := by
        refine find?_eq_none.mpr fun b hb heq => ?_
        have := hlast b hb
        rw [heq] at this
        exact irrefl_of r _ this
      obtain ⟨t, ht⟩ : ∃ t, s.emplace a = some t :=
        Option.ne_none_iff_exists'.mp fun h => emplace_eq_none.mp h hfree
      have helems : t.elems = s.elems ++ [a] := by
        rw [(emplace_eq_some.mp ht).2, insertList_of_last hlast]
      have hinsert : s.insert a = t := by rw [insert, ht, Option.getD_some]
      rw [List.foldl_cons, hinsert, elems_foldl_insert (by simpa [helems] using hsorted), helems]
      simp

theorem mem_emplace (h : s.emplace a = some t) : b ∈ t ↔ b = a ∨ b ∈ s := by
  rw [mem_def, (emplace_eq_some.mp h).2, mem_insertList, mem_def]

theorem mem_insert (h : ∀ c ∈ s, key c = key a → c = a) : b ∈ s.insert a ↔ b = a ∨ b ∈ s := by
  unfold insert
  cases hins : s.emplace a with
  | some t => exact mem_emplace hins
  | none =>
      obtain ⟨c, hfind⟩ := Option.ne_none_iff_exists'.mp (emplace_eq_none.mp hins)
      obtain ⟨hc, hkey⟩ := mem_of_find? hfind
      obtain rfl := h c hc hkey
      exact ⟨Or.inr, fun hb => hb.elim (fun heq => heq ▸ hc) fun hb => hb⟩

end Emplace

/-! ### Keys identify elements -/

theorem nodup_keys [IsStrictTotalOrder κ r] (s : StdSet key r) : (s.elems.map key).Nodup := by
  refine List.pairwise_map.mpr (s.sorted.imp ?_)
  intro a b h heq
  rw [heq] at h
  exact irrefl_of r _ h

theorem nodup [IsStrictTotalOrder κ r] (s : StdSet key r) : s.elems.Nodup :=
  s.nodup_keys.of_map key

/-- Two elements with one key are one element. -/
theorem eq_of_key_eq [IsStrictTotalOrder κ r] {s : StdSet key r} {a b : α}
    (ha : a ∈ s) (hb : b ∈ s) (h : key a = key b) : a = b :=
  List.inj_on_of_nodup_map s.nodup_keys ha hb h

end StdSet

end Goldfish.Lib
