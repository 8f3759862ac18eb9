import Mathlib.Data.List.Basic

/-!
# Goldfish.Lib.Framing

**Self-delimiting frames** in a stream, over arbitrary symbols and payloads.

A `Framing` tells whether a stream begins with a whole frame. What it says of a stream
does not change when more of the stream arrives (`next_append`), so cutting a stream
into frames as far as possible (`frames`, `rest`) can be done in instalments
(`frames_append`, `rest_append`). That is the rule a parser that keeps the unfinished
part in a buffer is held against.
-/

namespace Goldfish.Lib

/-- A way to recognise the frame a stream begins with. -/
structure Framing (α β : Type) where
  /-- The payload of the first frame and what follows it, when the frame is complete. -/
  next : List α → Option (β × List α)
  /-- A frame is some symbols at the front, and is recognised from them alone. -/
  next_split : ∀ {s b r}, next s = some (b, r) → ∃ c, c ≠ [] ∧ s = c ++ r ∧ next c = some (b, [])
  next_append : ∀ {s b r} (t : List α), next s = some (b, r) → next (s ++ t) = some (b, r ++ t)

namespace Framing

variable {α β : Type} (F : Framing α β)

variable {F} in
theorem next_length {s r : List α} {b : β} (h : F.next s = some (b, r)) : r.length < s.length := by
  obtain ⟨c, hne, rfl, -⟩ := F.next_split h
  have := List.length_pos_of_ne_nil hne
  rw [List.length_append]
  omega

/-- The payloads of the whole frames of a stream, and the incomplete rest. -/
def deframe (s : List α) : List β × List α :=
  match _h : F.next s with
  | none => ([], s)
  | some (b, r) =>
      let out := deframe r
      (b :: out.1, out.2)
termination_by s.length
decreasing_by exact next_length _h

/-- The payloads of the whole frames of a stream. -/
def frames (s : List α) : List β := (F.deframe s).1

/-- What is left of a stream behind its whole frames. -/
def rest (s : List α) : List α := (F.deframe s).2

/-- No whole frame has arrived. -/
def Incomplete (s : List α) : Prop := F.next s = none

variable {F}

theorem deframe_of_incomplete {s : List α} (h : F.Incomplete s) : F.deframe s = ([], s) := by
  unfold deframe
  split
  · rfl
  · rename_i heq
    rw [Incomplete, heq] at h
    cases h

theorem deframe_of_next {s r : List α} {b : β} (h : F.next s = some (b, r)) :
    F.deframe s = (b :: F.frames r, F.rest r) := by
  rw [deframe]
  split
  · rename_i heq
    rw [h] at heq
    cases heq
  · rename_i b' r' heq
    rw [h] at heq
    cases heq
    rfl

theorem frames_of_incomplete {s : List α} (h : F.Incomplete s) : F.frames s = [] := by
  rw [frames, deframe_of_incomplete h]

theorem rest_of_incomplete {s : List α} (h : F.Incomplete s) : F.rest s = s := by
  rw [rest, deframe_of_incomplete h]

theorem frames_of_next {s r : List α} {b : β} (h : F.next s = some (b, r)) :
    F.frames s = b :: F.frames r := by
  rw [frames, deframe_of_next h]

theorem rest_of_next {s r : List α} {b : β} (h : F.next s = some (b, r)) :
    F.rest s = F.rest r := by
  rw [rest, deframe_of_next h]

/-- Induction along the frames of a stream. -/
theorem induction_on {P : List α → Prop} (incomplete : ∀ s, F.Incomplete s → P s)
    (next : ∀ s b r, F.next s = some (b, r) → P r → P s) (s : List α) : P s := by
  induction hn : s.length using Nat.strongRecOn generalizing s with
  | _ n ih =>
    cases h : F.next s with
    | none => exact incomplete s h
    | some br =>
      have hlt := next_length h
      exact next s br.1 br.2 h (ih br.2.length (hn ▸ hlt) br.2 rfl)

theorem rest_incomplete (s : List α) : F.Incomplete (F.rest s) := by
  induction s using F.induction_on with
  | incomplete s h => rwa [rest_of_incomplete h]
  | next s b r h ih => rwa [rest_of_next h]

/-- More of the stream continues behind what was left. -/
theorem frames_append (s t : List α) :
    F.frames (s ++ t) = F.frames s ++ F.frames (F.rest s ++ t) := by
  induction s using F.induction_on with
  | incomplete s h => rw [frames_of_incomplete h, rest_of_incomplete h, List.nil_append]
  | next s b r h ih =>
    rw [frames_of_next (F.next_append t h), frames_of_next h, rest_of_next h, ih, List.cons_append]

theorem rest_append (s t : List α) : F.rest (s ++ t) = F.rest (F.rest s ++ t) := by
  induction s using F.induction_on with
  | incomplete s h => rw [rest_of_incomplete h]
  | next s b r h ih => rw [rest_of_next (F.next_append t h), rest_of_next h, ih]

theorem incomplete_nil : F.Incomplete [] := by
  cases h : F.next [] with
  | none => exact h
  | some br => exact absurd (next_length h) (Nat.not_lt_zero _)

/-- Nothing follows the last whole frame. -/
def Whole (F : Framing α β) (s : List α) : Prop := F.rest s = []

theorem frames_append_of_whole {s : List α} (h : F.Whole s) (t : List α) :
    F.frames (s ++ t) = F.frames s ++ F.frames t := by
  rw [frames_append, show F.rest s = [] from h, List.nil_append]

theorem rest_append_of_whole {s : List α} (h : F.Whole s) (t : List α) :
    F.rest (s ++ t) = F.rest t := by
  rw [rest_append, show F.rest s = [] from h, List.nil_append]

/-- A stream is its whole frames and then its rest. -/
theorem exists_whole (s : List α) : ∃ pre, F.Whole pre ∧ s = pre ++ F.rest s := by
  induction s using F.induction_on with
  | incomplete s h =>
    exact ⟨[], rest_of_incomplete incomplete_nil, (rest_of_incomplete h).symm⟩
  | next s b r h ih =>
    obtain ⟨pre, hwhole, hr⟩ := ih
    obtain ⟨c, -, hs, hc⟩ := F.next_split h
    refine ⟨c ++ pre, ?_, ?_⟩
    · have happ := rest_of_next (F.next_append pre hc)
      rw [List.nil_append] at happ
      exact happ.trans hwhole
    · rw [rest_of_next h, List.append_assoc, ← hr]
      exact hs

theorem rest_suffix (s : List α) : F.rest s <:+ s := by
  obtain ⟨pre, -, hs⟩ := exists_whole (F := F) s
  exact ⟨pre, hs.symm⟩

end Framing

end Goldfish.Lib
