import Mathlib.Data.Nat.Init
import Mathlib.Tactic.Common

/-!
# Goldfish.Lib.Loops

**Loops that may run forever**, over arbitrary states and results.

A round either leaves the loop with a result or goes on in another state; `iterate` runs
at most `fuel` rounds, and `Returns` says that some fuel is enough. A loop returns what
its first round leaves it with (`returns_done`), or what it returns from the next state
(`returns_step`). It returns something if every round brings a measure down
(`returns_of_measure`), nothing if an invariant keeps it going
(`not_returns_of_invariant`), and exactly what a specification says that no round changes
(`returns_iff_spec`). Calls that are `Stable` in the fuel can be made one after another
(`returns_bind`).
-/

namespace Goldfish.Lib

variable {σ α β : Type}

/-- A call that may run forever returns a value. -/
def Returns (call : (fuel : Nat) → Option α) (a : α) : Prop := ∃ fuel, call fuel = some a

/-- At most `fuel` rounds. -/
def iterate (round : σ → α ⊕ σ) : σ → (fuel : Nat) → Option α
  | _, 0 => none
  | s, fuel + 1 =>
    match round s with
    | .inl a => some a
    | .inr s' => iterate round s' fuel

/-! ### Calls one after another -/

/-- More fuel does not change what is returned. -/
def Stable (call : (fuel : Nat) → Option α) : Prop :=
  ∀ fuel fuel' a, call fuel = some a → fuel ≤ fuel' → call fuel' = some a

section Stable

variable {call : (fuel : Nat) → Option α} {next : α → (fuel : Nat) → Option β} {a b : α} {c : β}

theorem Stable.unique (h : Stable call) (ha : Returns call a) (hb : Returns call b) : a = b := by
  obtain ⟨fuel, ha⟩ := ha
  obtain ⟨fuel', hb⟩ := hb
  have ha' := h _ _ _ ha (Nat.le_max_left fuel fuel')
  have hb' := h _ _ _ hb (Nat.le_max_right fuel fuel')
  exact Option.some.inj (ha'.symm.trans hb')

theorem stable_some (a : α) : Stable fun _ => some a :=
  fun _ _ _ h _ => h

theorem Stable.bind (h : Stable call) (hnext : ∀ a, Stable (next a)) :
    Stable fun fuel => (call fuel).bind fun a => next a fuel := by
  intro fuel fuel' c hc hle
  obtain ⟨a, ha, hc⟩ := Option.bind_eq_some_iff.mp hc
  exact Option.bind_eq_some_iff.mpr ⟨a, h _ _ _ ha hle, hnext a _ _ _ hc hle⟩

theorem Stable.map (h : Stable call) (f : α → β) : Stable fun fuel => (call fuel).map f := by
  intro fuel fuel' c hc hle
  obtain ⟨a, ha, rfl⟩ := Option.map_eq_some_iff.mp hc
  exact Option.map_eq_some_iff.mpr ⟨a, h _ _ _ ha hle, rfl⟩

theorem returns_some : Returns (fun _ => some a) b ↔ b = a :=
  ⟨fun ⟨_, h⟩ => (Option.some.inj h).symm, fun h => ⟨0, h ▸ rfl⟩⟩

theorem returns_map {f : α → β} : Returns (fun fuel => (call fuel).map f) c ↔ ∃ a, Returns call a ∧ f a = c := by
  constructor
  · intro ⟨fuel, h⟩
    obtain ⟨a, ha, hc⟩ := Option.map_eq_some_iff.mp h
    exact ⟨a, ⟨fuel, ha⟩, hc⟩
  · intro ⟨a, ⟨fuel, ha⟩, hc⟩
    exact ⟨fuel, Option.map_eq_some_iff.mpr ⟨a, ha, hc⟩⟩

/-- One call and then another. -/
theorem returns_bind (h : Stable call) (hnext : ∀ a, Stable (next a)) :
    Returns (fun fuel => (call fuel).bind fun a => next a fuel) c ↔ ∃ a, Returns call a ∧ Returns (next a) c := by
  constructor
  · intro ⟨fuel, hc⟩
    obtain ⟨a, ha, hc⟩ := Option.bind_eq_some_iff.mp hc
    exact ⟨a, ⟨fuel, ha⟩, fuel, hc⟩
  · intro ⟨a, ⟨fuel, ha⟩, fuel', hc⟩
    refine ⟨max fuel fuel', Option.bind_eq_some_iff.mpr ⟨a, ?_, ?_⟩⟩
    · exact h _ _ _ ha (Nat.le_max_left _ _)
    · exact hnext a _ _ _ hc (Nat.le_max_right _ _)

end Stable

/-! ### Rounds -/

variable {round : σ → α ⊕ σ} {s s' : σ} {a b : α}

theorem iterate_succ (round : σ → α ⊕ σ) (s : σ) (fuel : Nat) :
    iterate round s (fuel + 1) = (round s).elim some fun s' => iterate round s' fuel := by
  rw [iterate]
  cases round s <;> rfl

theorem iterate_done (h : round s = .inl a) (fuel : Nat) : iterate round s (fuel + 1) = some a := by
  rw [iterate_succ, h, Sum.elim_inl]

theorem iterate_step (h : round s = .inr s') (fuel : Nat) :
    iterate round s (fuel + 1) = iterate round s' fuel := by
  rw [iterate_succ, h, Sum.elim_inr]

theorem stable_iterate : Stable (iterate round s) := by
  intro fuel fuel' a h hle
  induction fuel generalizing s fuel' with
  | zero => cases h
  | succ fuel ih =>
    obtain ⟨fuel', rfl⟩ : ∃ n, fuel' = n + 1 := ⟨fuel' - 1, by omega⟩
    cases hround : round s with
    | inl a' =>
      rw [iterate_done hround] at h ⊢
      exact h
    | inr s' =>
      rw [iterate_step hround] at h ⊢
      exact ih fuel' h (Nat.le_of_succ_le_succ hle)

theorem returns_done (h : round s = .inl a) : Returns (iterate round s) b ↔ b = a := by
  constructor
  · intro ⟨fuel, hb⟩
    cases fuel with
    | zero => cases hb
    | succ fuel =>
      rw [iterate_done h] at hb
      exact (Option.some.inj hb).symm
  · intro hb
    exact ⟨1, hb ▸ iterate_done h 0⟩

theorem returns_step (h : round s = .inr s') :
    Returns (iterate round s) b ↔ Returns (iterate round s') b := by
  constructor
  · intro ⟨fuel, hb⟩
    cases fuel with
    | zero => cases hb
    | succ fuel =>
      rw [iterate_step h] at hb
      exact ⟨fuel, hb⟩
  · intro ⟨fuel, hb⟩
    exact ⟨fuel + 1, (iterate_step h fuel).trans hb⟩

/-- A loop returns at most one value. -/
theorem returns_unique (ha : Returns (iterate round s) a) (hb : Returns (iterate round s) b) : a = b :=
  stable_iterate.unique ha hb

/-- **Termination.** -/
theorem returns_of_measure (measure : σ → Nat) (hstep : ∀ s s', round s = .inr s' → measure s' < measure s)
    (s : σ) : ∃ a, Returns (iterate round s) a := by
  induction hn : measure s using Nat.strong_induction_on generalizing s with
  | _ n ih =>
    cases hround : round s with
    | inl a => exact ⟨a, (returns_done hround).mpr rfl⟩
    | inr s' =>
      obtain ⟨a, ha⟩ := ih (measure s') (hn ▸ hstep s s' hround) s' rfl
      exact ⟨a, (returns_step hround).mpr ha⟩

/-- **Running forever.** -/
theorem not_returns_of_invariant {I : σ → Prop} (hstep : ∀ s, I s → ∃ s', round s = .inr s' ∧ I s')
    (hs : I s) : ¬ Returns (iterate round s) a := by
  intro ⟨fuel, ha⟩
  induction fuel generalizing s with
  | zero => cases ha
  | succ fuel ih =>
    obtain ⟨s', hround, hs'⟩ := hstep s hs
    rw [iterate_step hround] at ha
    exact ih hs' ha

/-- **Total correctness.** What is specified for a state is what the loop is left with, and no round changes
it. -/
theorem returns_iff_spec {I : σ → Prop} (spec : σ → α) (measure : σ → Nat)
    (hdone : ∀ s a, I s → round s = .inl a → a = spec s)
    (hstep : ∀ s s', I s → round s = .inr s' → I s' ∧ spec s' = spec s ∧ measure s' < measure s) (hs : I s) :
    Returns (iterate round s) b ↔ b = spec s := by
  induction hn : measure s using Nat.strong_induction_on generalizing s with
  | _ n ih =>
    cases hround : round s with
    | inl a => rw [returns_done hround, hdone s a hs hround]
    | inr s' =>
      obtain ⟨hs', hspec, hless⟩ := hstep s s' hs hround
      rw [returns_step hround, ih (measure s') (hn ▸ hless) hs' rfl, hspec]

end Goldfish.Lib
