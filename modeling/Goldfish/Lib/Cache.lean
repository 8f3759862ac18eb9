import Mathlib.Data.List.Forall2

/-!
# Goldfish.Lib.Cache

**Caches a computation does not show**, over arbitrary keys, states and results.

`boundedInsert` adds a key to a set of at most `capacity` elements and makes room by
dropping an arbitrary one. A `Memo` keeps the keys a decision was made for, in two such
sets (`BoundedSet`). It is sound for a decision (`Memo.Sound`) if what it has is right, and
stays so whatever is dropped; a sound memo has no key in both sets.

`Gives I m Q` is the judgement on a computation over a state with a cache in it: from a
state with the invariant `I` the result satisfies `Q`, and the invariant holds again.
There is one rule for each construct.
-/

namespace Goldfish.Lib

variable {κ : Type} [DecidableEq κ]

/-- Leaves room for a key: from a full set, the one at `pick` (modulo the size) is removed. -/
def makeRoom (capacity pick : Nat) (set : List κ) : List κ :=
  if set.length ≥ capacity then set.eraseIdx (pick % set.length) else set

/-- Adds a key to a set that does not have it. -/
def emplace (x : κ) (set : List κ) : List κ := if x ∈ set then set else x :: set

/-- Adds a key and keeps the set within its capacity. -/
def boundedInsert (capacity pick : Nat) (x : κ) (set : List κ) : List κ :=
  emplace x (makeRoom capacity pick set)

section BoundedInsert

variable {capacity pick : Nat} {x y : κ} {set : List κ}

omit [DecidableEq κ] in
theorem mem_of_mem_makeRoom (h : y ∈ makeRoom capacity pick set) : y ∈ set := by
  unfold makeRoom at h
  split at h
  · exact List.mem_of_mem_eraseIdx h
  · exact h

omit [DecidableEq κ] in
theorem length_makeRoom_lt (hcapacity : 0 < capacity) (h : set.length ≤ capacity) :
    (makeRoom capacity pick set).length < capacity := by
  unfold makeRoom
  split
  · have hlt : pick % set.length < set.length := Nat.mod_lt _ (by omega)
    rw [List.length_eraseIdx_of_lt hlt]
    omega
  · omega

theorem mem_emplace : y ∈ emplace x set ↔ y = x ∨ y ∈ set := by
  unfold emplace
  split
  · constructor
    · exact .inr
    · rintro (rfl | hy) <;> assumption
  · exact List.mem_cons

theorem length_emplace_le : (emplace x set).length ≤ set.length + 1 := by
  unfold emplace
  split
  · exact Nat.le_succ _
  · exact Nat.le_refl _

omit [DecidableEq κ] in
theorem nodup_makeRoom (h : set.Nodup) : (makeRoom capacity pick set).Nodup := by
  unfold makeRoom
  split
  · exact h.sublist (List.eraseIdx_sublist set _)
  · exact h

theorem nodup_emplace (h : set.Nodup) : (emplace x set).Nodup := by
  unfold emplace
  split
  · exact h
  · exact List.nodup_cons.mpr ⟨‹_›, h⟩

/-- Nothing but the key is added. -/
theorem mem_of_mem_boundedInsert (h : y ∈ boundedInsert capacity pick x set) : y = x ∨ y ∈ set :=
  (mem_emplace.mp h).imp_right mem_of_mem_makeRoom

/-- The set stays within its capacity. -/
theorem length_boundedInsert_le (hcapacity : 0 < capacity) (h : set.length ≤ capacity) :
    (boundedInsert capacity pick x set).length ≤ capacity := by
  have hroom : (makeRoom capacity pick set).length < capacity := length_makeRoom_lt hcapacity h
  have hle : (boundedInsert capacity pick x set).length ≤ _ := length_emplace_le
  omega

theorem nodup_boundedInsert (h : set.Nodup) : (boundedInsert capacity pick x set).Nodup :=
  nodup_emplace (nodup_makeRoom h)

/-- A list that stands for a set of bounded size whose elements meet a condition. -/
structure BoundedSet (capacity : Nat) (p : κ → Prop) (set : List κ) : Prop where
  holds : ∀ x ∈ set, p x
  nodup : set.Nodup
  length_le : set.length ≤ capacity

omit [DecidableEq κ] in
theorem boundedSet_nil {p : κ → Prop} : BoundedSet capacity p [] :=
  ⟨by simp, List.nodup_nil, Nat.zero_le _⟩

theorem BoundedSet.insert {p : κ → Prop} (h : BoundedSet capacity p set) (hcapacity : 0 < capacity)
    (hx : p x) (pick : Nat) : BoundedSet capacity p (boundedInsert capacity pick x set) := by
  refine ⟨fun y hy => ?_, nodup_boundedInsert h.nodup, length_boundedInsert_le hcapacity h.length_le⟩
  rcases mem_of_mem_boundedInsert hy with rfl | hy
  · exact hx
  · exact h.holds y hy

end BoundedInsert

/-- The keys that were accepted and those that were rejected. -/
structure Memo (κ : Type) where
  accept : List κ
  reject : List κ

/-- What the memo has is right for the decision, and there is not too much of it. -/
structure Memo.Sound (capacity : Nat) (decision : κ → Bool) (memo : Memo κ) : Prop where
  accepted : BoundedSet capacity (decision · = true) memo.accept
  rejected : BoundedSet capacity (decision · = false) memo.reject

section Sound

variable {capacity : Nat} {decision : κ → Bool} {memo : Memo κ}

omit [DecidableEq κ] in
theorem Memo.sound_empty : Memo.Sound capacity decision ⟨[], []⟩ :=
  ⟨boundedSet_nil, boundedSet_nil⟩

omit [DecidableEq κ] in
/-- No key is both accepted and rejected. -/
theorem Memo.Sound.disjoint (h : memo.Sound capacity decision) (x : κ) :
    ¬ (x ∈ memo.accept ∧ x ∈ memo.reject) := by
  intro ⟨haccept, hreject⟩
  have htrue := h.accepted.holds x haccept
  rw [h.rejected.holds x hreject] at htrue
  exact Bool.false_ne_true htrue

/-- A key that was decided positively is recorded. -/
theorem Memo.Sound.insert_accept (h : memo.Sound capacity decision) (hcapacity : 0 < capacity) {x : κ}
    (hx : decision x = true) (pick : Nat) :
    Memo.Sound capacity decision ⟨boundedInsert capacity pick x memo.accept, memo.reject⟩ :=
  ⟨h.accepted.insert hcapacity hx pick, h.rejected⟩

/-- A key that was decided negatively is recorded. -/
theorem Memo.Sound.insert_reject (h : memo.Sound capacity decision) (hcapacity : 0 < capacity) {x : κ}
    (hx : decision x = false) (pick : Nat) :
    Memo.Sound capacity decision ⟨memo.accept, boundedInsert capacity pick x memo.reject⟩ :=
  ⟨h.accepted, h.rejected.insert hcapacity hx pick⟩

end Sound

/-! ### Computations over a cache -/

/-- The invariant is kept, and the postcondition holds of the result. -/
def Gives {σ α : Type} (I : σ → Prop) (m : StateM σ α) (Q : α → Prop) : Prop :=
  ∀ s, I s → Q (m.run s).1 ∧ I (m.run s).2

section Gives

variable {σ α β : Type} {I : σ → Prop} {Q : α → Prop}

theorem gives_pure {a : α} (h : Q a) : Gives I (pure a) Q :=
  fun _ hI => ⟨h, hI⟩

theorem gives_bind {m : StateM σ α} {f : α → StateM σ β} {S : β → Prop} (hm : Gives I m Q)
    (hf : ∀ a, Q a → Gives I (f a) S) : Gives I (m >>= f) S := by
  intro s hI
  obtain ⟨hQ, hI'⟩ := hm s hI
  exact hf (m.run s).1 hQ (m.run s).2 hI'

theorem gives_ite {c : Prop} [Decidable c] {m n : StateM σ α} (hm : c → Gives I m Q)
    (hn : ¬ c → Gives I n Q) : Gives I (if c then m else n) Q := by
  split
  · exact hm ‹_›
  · exact hn ‹_›

theorem Gives.mono {m : StateM σ α} {S : α → Prop} (h : Gives I m Q) (hQ : ∀ a, Q a → S a) :
    Gives I m S :=
  fun s hI => ⟨hQ _ (h s hI).1, (h s hI).2⟩

/-- One computation for each element, in their order. -/
theorem gives_mapM {γ : Type} {f : γ → StateM σ α} {P : γ → α → Prop} :
    ∀ {cs : List γ}, (∀ c ∈ cs, Gives I (f c) (P c)) → Gives I (cs.mapM f) (List.Forall₂ P cs)
  | [], _ => by
      rw [List.mapM_nil]
      exact gives_pure .nil
  | c :: cs, hf => by
      rw [List.mapM_cons]
      refine gives_bind (hf c List.mem_cons_self) fun a ha => ?_
      have htail : ∀ d ∈ cs, Gives I (f d) (P d) := fun d hd => hf d (List.mem_cons_of_mem c hd)
      exact gives_bind (gives_mapM htail) fun as has => gives_pure (.cons ha has)

/-- Computations that give the values of a function. -/
theorem gives_mapM_eq {γ : Type} {f : γ → StateM σ α} {g : γ → α} (hf : ∀ c, Gives I (f c) (· = g c))
    (cs : List γ) : Gives I (cs.mapM f) (· = cs.map g) := by
  refine (gives_mapM fun c _ => hf c).mono fun as has => ?_
  rw [← List.forall₂_eq_eq_eq, List.forall₂_map_right_iff]
  exact has.flip

end Gives

end Goldfish.Lib
