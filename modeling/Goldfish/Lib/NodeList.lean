import Mathlib.Data.List.Basic
import Mathlib.Data.List.Nodup

/-!
# Goldfish.Lib.NodeList

**Lists with stable iterators**, the shape of a C++ `std::list`: an element stays in
the node it was inserted with, and an iterator is the name of that node. A node that
is no longer in the list has no name there, and no later node gets its name, so an
iterator into another list, or one that has dangled, is told apart from a valid one
(`erase` then answers `none`).
-/

namespace Goldfish.Lib

variable {α : Type}

/-- A node: the name its iterators carry, and the element. -/
structure Node (α : Type) where
  id : Nat
  val : α
deriving DecidableEq, Repr

namespace NodeList

/-- `erase(it)`. -/
def erase (l : List (Node α)) (it : Nat) : Option (List (Node α)) :=
  if it ∈ l.map Node.id then some (l.filter fun n => n.id ≠ it) else none

/-- The nodes of the list have different names. -/
def Distinct (l : List (Node α)) : Prop := (l.map Node.id).Nodup

theorem Distinct.eq {l : List (Node α)} (hl : Distinct l) {m n : Node α} (hm : m ∈ l) (hn : n ∈ l)
    (h : m.id = n.id) : m = n :=
  List.inj_on_of_nodup_map hl hm hn h

/-- A node of the list leaves it, and no other one does. -/
theorem erase_of_mem {l : List (Node α)} (hl : Distinct l) {n : Node α} (hn : n ∈ l) :
    ∃ l', erase l n.id = some l' ∧ l'.Sublist l ∧ ∀ m, m ∈ l' ↔ m ∈ l ∧ m ≠ n := by
  refine ⟨l.filter fun m => m.id ≠ n.id, ?_, List.filter_sublist, fun m => ?_⟩
  · rw [erase, if_pos (List.mem_map_of_mem hn)]
  · rw [List.mem_filter, decide_eq_true_eq]
    refine and_congr_right fun hm => not_congr ⟨fun h => hl.eq hm hn h, fun h => h ▸ rfl⟩

end NodeList

/-- An element goes between those it comes after and those it comes before. -/
theorem pairwise_insert {R : α → α → Prop} {before after : List α} {a : α}
    (h : (before ++ after).Pairwise R) (hbefore : ∀ b ∈ before, R b a) (hafter : ∀ b ∈ after, R a b) :
    (before ++ a :: after).Pairwise R := by
  obtain ⟨hfirst, hlast, hacross⟩ := List.pairwise_append.mp h
  refine List.pairwise_append.mpr ⟨hfirst, List.pairwise_cons.mpr ⟨hafter, hlast⟩, fun b hb c hc => ?_⟩
  rcases List.mem_cons.mp hc with rfl | hc
  · exact hbefore b hb
  · exact hacross b hb c hc

end Goldfish.Lib
