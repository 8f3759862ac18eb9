import Goldfish.Lib.Trace
import Mathlib.Logic.Function.Basic

/-!
# Goldfish.Lib.Interleaving

**Threads over a shared state**, over arbitrary threads, states and actions.

What one thread does is given as atomic steps on the shared state and on what this
thread remembers (`atom`); a step of the whole is a step of one of the threads, so a
list of steps is an interleaving. `step_eq_ok` inverts such a step.

`Holds G A` is an assertion about the whole: `G` of the shared state, and `A i` of
the shared state and the memory of each thread `i`. It survives a step if the thread
that steps re-establishes `G` and its own assertion and interferes with no other
(`Holds.step`), and then it holds throughout every run (`Holds.run`, `Holds.run_all`).
-/

namespace Goldfish.Lib

/-- A shared state, and the memory of each thread. -/
structure Threads (ι σ τ : Type) where
  shared : σ
  locals : ι → τ

namespace Threads

variable {ι σ τ α ε : Type} [DecidableEq ι] {atom : ι → σ → τ → α → Except ε (σ × τ)}

/-- One atomic step of one thread. -/
def step (atom : ι → σ → τ → α → Except ε (σ × τ)) (c : Threads ι σ τ) (act : ι × α) :
    Except ε (Threads ι σ τ) :=
  (fun after => ⟨after.1, Function.update c.locals act.1 after.2⟩) <$>
    atom act.1 c.shared (c.locals act.1) act.2

theorem step_eq_ok {c c' : Threads ι σ τ} {i : ι} {a : α} :
    step atom c (i, a) = .ok c' ↔ ∃ s l, atom i c.shared (c.locals i) a = .ok (s, l) ∧
      c' = ⟨s, Function.update c.locals i l⟩ := by
  simp only [step, map_eq_ok, Prod.exists]
  constructor
  · rintro ⟨s, l, hatom, rfl⟩
    exact ⟨s, l, hatom, rfl⟩
  · rintro ⟨s, l, hatom, rfl⟩
    exact ⟨s, l, hatom, rfl⟩

/-! ### Assertions -/

/-- An assertion about the shared state, and one for each thread. -/
structure Holds (G : σ → Prop) (A : ι → σ → τ → Prop) (c : Threads ι σ τ) : Prop where
  shared : G c.shared
  locals : ∀ i, A i c.shared (c.locals i)

variable {G : σ → Prop} {A : ι → σ → τ → Prop} {c c' : Threads ι σ τ}

/-- The thread that steps keeps its assertion, and no other thread notices. -/
theorem Holds.step {i : ι} {a : α} (h : Holds G A c) (hstep : Threads.step atom c (i, a) = .ok c')
    (hown : ∀ s l, atom i c.shared (c.locals i) a = .ok (s, l) → G s ∧ A i s l)
    (hothers : ∀ s l, atom i c.shared (c.locals i) a = .ok (s, l) → ∀ j, j ≠ i →
      A j c.shared (c.locals j) → A j s (c.locals j)) : Holds G A c' := by
  obtain ⟨s, l, hatom, rfl⟩ := step_eq_ok.mp hstep
  obtain ⟨hshared, hlocal⟩ := hown s l hatom
  refine ⟨hshared, fun j => ?_⟩
  by_cases hj : j = i
  · rw [hj]
    simpa using hlocal
  · dsimp only
    rw [Function.update_of_ne hj]
    exact hothers s l hatom j hj (h.locals j)

/-- **Non-interference.** Assertions that survive every step which meets a condition hold at the end of
every run whose steps all meet it. -/
theorem Holds.run {ok : Threads ι σ τ → ι × α → Prop}
    (hown : ∀ c i a s l, Holds G A c → ok c (i, a) → atom i c.shared (c.locals i) a = .ok (s, l) →
      G s ∧ A i s l)
    (hothers : ∀ c i a s l, Holds G A c → ok c (i, a) → atom i c.shared (c.locals i) a = .ok (s, l) →
      ∀ j, j ≠ i → A j c.shared (c.locals j) → A j s (c.locals j))
    {acts : List (ι × α)} (h : Holds G A c) (hok : Along (Threads.step atom) ok c acts)
    (hrun : acts.foldlM (Threads.step atom) c = .ok c') : Holds G A c' := by
  refine hok.invariant ?_ h hrun
  rintro d ⟨i, a⟩ d' hd hdok hstep
  exact hd.step hstep (fun s l => hown d i a s l hd hdok) fun s l => hothers d i a s l hd hdok

/-- Assertions that survive every step hold at the end of every run. -/
theorem Holds.run_all
    (hown : ∀ c i a s l, Holds G A c → atom i c.shared (c.locals i) a = .ok (s, l) → G s ∧ A i s l)
    (hothers : ∀ c i a s l, Holds G A c → atom i c.shared (c.locals i) a = .ok (s, l) →
      ∀ j, j ≠ i → A j c.shared (c.locals j) → A j s (c.locals j))
    {acts : List (ι × α)} (h : Holds G A c) (hrun : acts.foldlM (Threads.step atom) c = .ok c') :
    Holds G A c' :=
  h.run (fun c i a s l hc _ => hown c i a s l hc) (fun c i a s l hc _ => hothers c i a s l hc)
    (along_of_forall fun _ _ => trivial : Along (Threads.step atom) (fun _ _ => True) c acts) hrun

end Threads

end Goldfish.Lib
