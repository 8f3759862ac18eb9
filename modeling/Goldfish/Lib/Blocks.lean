import Goldfish.Lib.Loops

/-!
# Goldfish.Lib.Blocks

**Blocks of memory**, with cells of any type: an access by position, which fails outside
of the block.

A block is cut where it is accessed (`load_append`, `store_append`), so that a proof
about a cursor talks about what is before it and what is behind it. `stepOrFail` makes a
round of `Lib.Loops` of a step that may fail.
-/

namespace Goldfish.Lib

variable {α ε σ τ : Type}

/-- An access outside of the block. -/
inductive OutOfBlock where
  | outOfBlock
  deriving DecidableEq, Repr

/-- What is at a position. -/
def load (block : List α) (p : Nat) : Except OutOfBlock α :=
  match block[p]? with
  | some a => .ok a
  | none => .error .outOfBlock

/-- The block with another value at a position. -/
def store (block : List α) (p : Nat) (a : α) : Except OutOfBlock (List α) :=
  if p < block.length then .ok (block.set p a) else .error .outOfBlock

theorem load_append (before : List α) (a : α) (behind : List α) :
    load (before ++ a :: behind) before.length = .ok a := by
  simp [load]

theorem store_append (before : List α) (a : α) (behind : List α) (b : α) :
    store (before ++ a :: behind) before.length b = .ok (before ++ b :: behind) := by
  simp [store]

theorem load_at (before behind : List α) {block : List α} {a : α} {p : Nat}
    (hblock : block = before ++ a :: behind) (hp : p = before.length) : load block p = .ok a := by
  rw [hblock, hp, load_append]

theorem store_at (before behind : List α) {block : List α} {a : α} {p : Nat}
    (hblock : block = before ++ a :: behind) (hp : p = before.length) (b : α) :
    store block p b = .ok (before ++ b :: behind) := by
  rw [hblock, hp, store_append]

/-- A round of a loop that ends where a step fails. -/
def stepOrFail (next : σ → Except ε (τ ⊕ σ)) (s : σ) : Except ε τ ⊕ σ :=
  match next s with
  | .error e => .inl (.error e)
  | .ok (.inl a) => .inl (.ok a)
  | .ok (.inr s') => .inr s'

section Rounds

variable {next : σ → Except ε (τ ⊕ σ)} {s : σ} {a : τ} {b : Except ε τ}

theorem returns_of_next_done (h : next s = .ok (.inl a)) : Returns (iterate (stepOrFail next) s) b ↔ b = .ok a :=
  returns_done (by simp [stepOrFail, h])

theorem returns_of_next_step (s' : σ) (h : next s = .ok (.inr s')) :
    Returns (iterate (stepOrFail next) s) b ↔ Returns (iterate (stepOrFail next) s') b :=
  returns_step (by simp [stepOrFail, h])

end Rounds

end Goldfish.Lib
