import Mathlib.Data.List.Chain

/-!
# Goldfish.Lib.Runs

**Cutting a list into runs**, over arbitrary elements: an element is taken into the run in
front of it as long as it `joins` all of that run, and begins the next one otherwise.

Nothing is lost (`flatten_runs`); every part of the list is a run (`isRun_of_mem_runs`), and
no run could take the first element of the next one (`isChain_runs`).
-/

namespace Goldfish.Lib

variable {α : Type} (joins : List α → α → Bool)

/-- The runs, the first of which has begun. -/
def runsFrom (run : List α) : List α → List (List α)
  | [] => [run]
  | x :: xs => if joins run x then runsFrom (run ++ [x]) xs else run :: runsFrom [x] xs

/-- The runs of a list: neighbours that are joined are in one. -/
def runs : List α → List (List α)
  | [] => []
  | x :: xs => runsFrom joins [x] xs

/-- Every element of the list has joined those in front of it. -/
inductive IsRun : List α → Prop where
  | single (x : α) : IsRun [x]
  | concat {run : List α} {x : α} (h : IsRun run) (hx : joins run x = true) : IsRun (run ++ [x])

/-- A run has been left, as the first element behind it does not join it. -/
def Left (run next : List α) : Prop := ∀ x ∈ next.head?, joins run x = false

variable {joins} {run xs : List α} {x : α}

theorem flatten_runsFrom (run xs : List α) : (runsFrom joins run xs).flatten = run ++ xs := by
  induction xs generalizing run with
  | nil => rw [runsFrom, List.flatten_singleton, List.append_nil]
  | cons x xs ih =>
    rw [runsFrom]
    split
    · rw [ih, List.append_assoc, List.singleton_append]
    · rw [List.flatten_cons, ih, List.singleton_append]

/-- The first run begins with what is there. -/
theorem head_runsFrom (joins : List α → α → Bool) (run xs : List α) :
    ∃ more, (runsFrom joins run xs).head? = some (run ++ more) := by
  induction xs generalizing run with
  | nil => exact ⟨[], by rw [runsFrom, List.head?_cons, List.append_nil]⟩
  | cons x xs ih =>
    rw [runsFrom]
    split
    · obtain ⟨more, hmore⟩ := ih (run ++ [x])
      exact ⟨x :: more, by rw [hmore, List.append_assoc, List.singleton_append]⟩
    · exact ⟨[], by rw [List.head?_cons, List.append_nil]⟩

theorem isRun_of_mem_runsFrom (h : IsRun joins run) : ∀ r ∈ runsFrom joins run xs, IsRun joins r := by
  induction xs generalizing run with
  | nil =>
    intro r hr
    rwa [List.mem_singleton.mp hr]
  | cons x xs ih =>
    rw [runsFrom]
    split
    · exact ih (h.concat ‹_›)
    · intro r hr
      rcases List.mem_cons.mp hr with rfl | hr
      · exact h
      · exact ih (IsRun.single x) r hr

theorem isChain_runsFrom (run xs : List α) : (runsFrom joins run xs).IsChain (Left joins) := by
  induction xs generalizing run with
  | nil => exact List.isChain_singleton run
  | cons x xs ih =>
    rw [runsFrom]
    split
    · exact ih (run ++ [x])
    · rename_i hx
      refine List.isChain_cons.mpr ⟨fun next hnext y hy => ?_, ih [x]⟩
      obtain ⟨more, hmore⟩ := head_runsFrom joins [x] xs
      rw [hmore] at hnext
      obtain rfl : [x] ++ more = next := Option.some.inj hnext
      obtain rfl : x = y := Option.some.inj hy
      exact Bool.eq_false_iff.mpr hx

/-- **Nothing is lost and nothing repeated.** -/
theorem flatten_runs (joins : List α → α → Bool) (xs : List α) : (runs joins xs).flatten = xs := by
  cases xs with
  | nil => rfl
  | cons x xs => exact flatten_runsFrom [x] xs

theorem isRun_of_mem_runs : ∀ r ∈ runs joins xs, IsRun joins r := by
  cases xs with
  | nil => exact fun r hr => absurd hr List.not_mem_nil
  | cons x xs => exact isRun_of_mem_runsFrom (IsRun.single x)

/-- **Runs are as long as they can be.** -/
theorem isChain_runs (xs : List α) : (runs joins xs).IsChain (Left joins) := by
  cases xs with
  | nil => exact List.isChain_nil
  | cons x xs => exact isChain_runsFrom [x] xs

end Goldfish.Lib
