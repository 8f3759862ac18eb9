import Goldfish.Files.IniFile
import Goldfish.Lib.Loops
import Mathlib.Data.Int.Order.Basic
import Mathlib.Data.List.DropRight
import Mathlib.Algebra.BigOperators.Group.List.Basic
import Mathlib.Algebra.Order.Ring.Int

/-!
# Goldfish.Files.PathParent

**`path_parent`** (`path.cpp`) walks a path from its end to its start and counts the
levels that are left.

* `Climb` has what is before `end` and the levels; one `round` reads the separators and the
  component before `end`.
* `normalForm` and `NormalForm.parent` say what the result is to be.
* `tally` counts what a list of components takes from the levels. It decides how a walk
  ends (`Read`).
-/

namespace Goldfish.Files

open Goldfish.Lib

namespace PathParent

/-! ### The function -/

/-- `ispathsep`, where there is one separator. -/
def ispathsep (c : UInt8) : Bool := c = '/'.toUInt8

/-- A piece that stands for the directory itself. -/
def dot : Text := ['.'.toUInt8]

/-- A piece that stands for its parent. -/
def dotdot : Text := ['.'.toUInt8, '.'.toUInt8]

/-- The largest `int`. -/
def INT_MAX : Int := 2147483647

/-- An `int` that gets too large. -/
inductive Overflow where
  | signedOverflow
  deriving DecidableEq, Repr

/-- The variables of the loop. -/
structure Climb where
  /-- What is before `end`. -/
  front : Text
  levels : Int

/-- The body of the loop, and what is behind it. -/
def Climb.round (s : Climb) : Except Overflow (Option Text) ⊕ Climb :=
  if 0 < s.levels then
    let trimmed := s.front.rdropWhile ispathsep
    let name := trimmed.rtakeWhile fun c => !ispathsep c
    let before := trimmed.rdropWhile fun c => !ispathsep c
    if before = [] then .inl (.ok (if name = dot ∧ s.levels = 1 then some dotdot else none))
    else if name = dot then .inr { s with front := before.dropLast }
    else if name = dotdot then
      if s.levels < INT_MAX then .inr ⟨before.dropLast, s.levels + 1⟩ else .inl (.error .signedOverflow)
    else .inr ⟨before.dropLast, s.levels - 1⟩
  else .inl (.ok (some s.front))

/-- `malloc` is taken to succeed. -/
def path_parent (path : Text) (levels : Int) (fuel : Nat) : Option (Except Overflow (Option Text)) :=
  iterate Climb.round ⟨path, levels⟩ fuel

/-! ### What it is to compute -/

/-- What stands between the separators. -/
def pieces (path : Text) : List Text := path.splitOnP ispathsep

/-- One more component, on a stack of components. -/
def push (stack : List Text) (c : Text) : List Text :=
  if c = [] ∨ c = dot then stack
  else if c = dotdot then
    match stack with
    | [] => [dotdot]
    | top :: rest => if top = dotdot then dotdot :: top :: rest else rest
  else c :: stack

/-- A path without the pieces that change nothing. -/
structure NormalForm where
  absolute : Bool
  components : List Text
  deriving DecidableEq, Repr

/-- The normal form of a path. -/
def normalForm (path : Text) : NormalForm := ⟨path.head? = some '/'.toUInt8, ((pieces path).foldl push []).reverse⟩

/-- The last components are removed; a relative path that has run out of them gets a `..` instead. -/
def NormalForm.parent (n : NormalForm) (levels : Nat) : NormalForm :=
  ⟨n.absolute, n.components.take (n.components.length - levels) ++
    if n.absolute = false ∧ n.components.length < levels then [dotdot] else []⟩

/-! ### Components -/

/-- A component that is a name. -/
def IsName (c : Text) : Prop := c ≠ [] ∧ c ≠ dot ∧ c ≠ dotdot

/-- What a component takes from the levels. -/
def weight (c : Text) : Int := if c = [] ∨ c = dot then 0 else if c = dotdot then -1 else 1

/-- How far down the pieces lead. -/
def tally (components : List Text) : Int := (components.map weight).sum

@[simp] theorem tally_nil : tally [] = 0 := rfl

@[simp] theorem tally_cons (c : Text) (s : List Text) : tally (c :: s) = weight c + tally s := rfl

@[simp] theorem weight_nil : weight [] = 0 := rfl

theorem tally_append (s t : List Text) : tally (s ++ t) = tally s + tally t := by
  simp [tally]

theorem tally_replicate_nil (k : Nat) : tally (List.replicate k []) = 0 := by
  induction k with
  | zero => rfl
  | succ k ih => rw [List.replicate_succ, tally_cons, weight_nil, ih, zero_add]

theorem pieces_cons (f g : Text) : pieces (f ++ '/'.toUInt8 :: g) = pieces f ++ pieces g :=
  List.splitOnP_append_cons f g (by decide)

theorem pieces_name {name : Text} (h : ∀ c ∈ name, ispathsep c = false) : pieces name = [name] :=
  List.splitOnP_eq_singleton h

theorem pieces_separators (f : Text) (k : Nat) :
    pieces (f ++ List.replicate k '/'.toUInt8) = pieces f ++ List.replicate k [] := by
  induction k with
  | zero => simp
  | succ k ih =>
    rw [List.replicate_succ', ← List.append_assoc, pieces_cons, ih, List.replicate_succ', List.append_assoc]
    rfl

theorem eq_replicate_of_ispathsep {l : Text} (h : ∀ c ∈ l, ispathsep c = true) :
    l = List.replicate l.length '/'.toUInt8 :=
  List.eq_replicate_of_mem fun c hc => of_decide_eq_true (h c hc)

/-- What a round reads: the separators at the end, and a component before them. -/
theorem front_cases (front : Text) :
    ∃ k name, (∀ c ∈ name, ispathsep c = false) ∧
      (front.rdropWhile ispathsep).rtakeWhile (fun c => !ispathsep c) = name ∧
      ((front.rdropWhile ispathsep).rdropWhile (fun c => !ispathsep c) = [] ∧
          front = name ++ List.replicate k '/'.toUInt8 ∨
        ∃ f, (front.rdropWhile ispathsep).rdropWhile (fun c => !ispathsep c) = f ++ ['/'.toUInt8] ∧ name ≠ [] ∧
          front = f ++ '/'.toUInt8 :: (name ++ List.replicate k '/'.toUInt8)) := by
  have hseps := eq_replicate_of_ispathsep (l := front.rtakeWhile ispathsep) fun c hc => List.mem_rtakeWhile_imp hc
  have hfront : front.rdropWhile ispathsep ++ List.replicate (front.rtakeWhile ispathsep).length '/'.toUInt8 =
      front := by
    rw [← hseps, List.rdropWhile_append_rtakeWhile]
  have hlast := List.rdropWhile_last_not ispathsep front
  generalize (front.rtakeWhile ispathsep).length = k at hfront
  generalize front.rdropWhile ispathsep = trimmed at hfront hlast ⊢
  refine ⟨k, _, fun c hc => by simpa using List.mem_rtakeWhile_imp hc, rfl, ?_⟩
  have htrimmed : trimmed.rdropWhile (fun c => !ispathsep c) ++ trimmed.rtakeWhile (fun c => !ispathsep c) = trimmed :=
    List.rdropWhile_append_rtakeWhile
  have hlast' := List.rdropWhile_last_not (fun c => !ispathsep c) trimmed
  generalize trimmed.rdropWhile (fun c => !ispathsep c) = before at htrimmed hlast' ⊢
  generalize trimmed.rtakeWhile (fun c => !ispathsep c) = name at htrimmed ⊢
  subst htrimmed
  by_cases hbefore : before = []
  · subst hbefore
    exact .inl ⟨rfl, by simpa using hfront.symm⟩
  · have hsep : before.getLast hbefore = '/'.toUInt8 := by
      have h := hlast' hbefore
      simpa [ispathsep] using h
    have hf : before.dropLast ++ ['/'.toUInt8] = before := by
      rw [← hsep, List.dropLast_append_getLast]
    refine .inr ⟨before.dropLast, hf.symm, ?_, ?_⟩
    · rintro rfl
      have h := hlast (by simpa using hbefore)
      simp [hsep, ispathsep] at h
    · rw [← hfront]
      conv_lhs => rw [← hf]
      simp

/-- A path that begins with a separator. -/
theorem absolute_of_pieces {path : Text} {s : List Text} (h : pieces path = [] :: s) (hs : s ≠ []) :
    ∃ rest, path = '/'.toUInt8 :: rest ∧ pieces rest = s := by
  cases path with
  | nil =>
    obtain ⟨-, rfl⟩ := List.cons.inj h
    exact absurd rfl hs
  | cons c rest =>
    rw [pieces, List.splitOnP_cons_eq_if_modifyHead] at h
    split at h
    · rename_i hc
      exact ⟨rest, by rw [of_decide_eq_true hc], (List.cons.inj h).2⟩
    · obtain ⟨q, qs, hq⟩ := List.exists_cons_of_ne_nil (List.splitOnP_ne_nil ispathsep rest)
      rw [hq, List.modifyHead_cons] at h
      cases (List.cons.inj h).1

/-! ### How a walk goes -/

/-- What a walk has read, in front of which `front` is left. -/
structure Read (path front : Text) (s : List Text) (levels : Int) : Prop where
  pieces_path : pieces path = pieces front ++ s
  front_prefix : front <+: path
  tally_le : tally s ≤ levels
  /-- Before each component some levels were left. -/
  goesOn : ∀ c t, c :: t <:+ s → tally t < levels
  fits : ∀ t, dotdot :: t <:+ s → levels - tally t < INT_MAX

/-- How a walk ends. -/
inductive Ends (path : Text) (levels : Int) : Except Overflow (Option Text) → Prop where
  | parent {r s} (h : Read path r s levels) (htally : tally s = levels) : Ends path levels (.ok (some r))
  | above {s} (hpath : pieces path = dot :: s) (hgoesOn : ∀ t, t <:+ s → tally t < levels)
      (htally : tally s + 1 = levels) (hfits : ∀ t, dotdot :: t <:+ s → levels - tally t < INT_MAX) :
      Ends path levels (.ok (some dotdot))
  | noParent {name s} (hpath : pieces path = name :: s) (hgoesOn : ∀ t, t <:+ s → tally t < levels)
      (hfits : ∀ t, dotdot :: t <:+ s → levels - tally t < INT_MAX) : Ends path levels (.ok none)
  | overflow (front s) (hpath : pieces path = front ++ dotdot :: s) (hfront : front ≠ [])
      (hgoesOn : ∀ t, t <:+ s → tally t < levels) (hlarge : INT_MAX ≤ levels - tally s) :
      Ends path levels (.error .signedOverflow)

theorem weight_dot : weight dot = 0 := by decide

theorem weight_dotdot : weight dotdot = -1 := by decide

theorem weight_name {c : Text} (h : IsName c) : weight c = 1 := by
  simp [weight, h.1, h.2.1, h.2.2]

section Walks

variable {path front : Text} {s t : List Text} {levels : Int}

theorem tally_separators (k : Nat) (s : List Text) : tally (List.replicate k [] ++ s) = tally s := by
  rw [tally_append, tally_replicate_nil, zero_add]

theorem Read.lt_of_suffix (h : Read path front s levels) (hleft : tally s < levels) (ht : t <:+ s) :
    tally t < levels := by
  obtain ⟨u, rfl⟩ := ht
  rcases List.eq_nil_or_concat u with rfl | ⟨u, c, rfl⟩
  · exact hleft
  · exact h.goesOn c t ⟨u, by simp⟩

/-- Separators in front of what has been read change nothing. -/
theorem Read.lt_of_separators (h : Read path front s levels) (hleft : tally s < levels) (k : Nat)
    (ht : t <:+ List.replicate k [] ++ s) : tally t < levels := by
  induction k with
  | zero => exact h.lt_of_suffix hleft ht
  | succ k ih =>
    rw [List.replicate_succ, List.cons_append, List.suffix_cons_iff] at ht
    rcases ht with rfl | ht
    · rw [tally_cons, weight_nil, zero_add, tally_separators]
      exact hleft
    · exact ih ht

theorem dotdot_suffix_separators {k : Nat} (ht : dotdot :: t <:+ List.replicate k [] ++ s) : dotdot :: t <:+ s := by
  induction k with
  | zero => exact ht
  | succ k ih =>
    rw [List.replicate_succ, List.cons_append, List.suffix_cons_iff] at ht
    rcases ht with heq | ht
    · cases (List.cons.inj heq).1
    · exact ih ht

theorem pieces_front {f name : Text} {k : Nat} (hname : ∀ c ∈ name, ispathsep c = false) :
    pieces (f ++ '/'.toUInt8 :: (name ++ List.replicate k '/'.toUInt8)) =
      pieces f ++ name :: List.replicate k [] := by
  rw [pieces_cons, pieces_separators, pieces_name hname]
  rfl

/-- A component is read. -/
theorem Read.step {f name : Text} {k : Nat}
    (h : Read path (f ++ '/'.toUInt8 :: (name ++ List.replicate k '/'.toUInt8)) s levels)
    (hname : ∀ c ∈ name, ispathsep c = false) (hleft : tally s < levels)
    (hfits : name = dotdot → levels - tally s < INT_MAX) :
    Read path f (name :: (List.replicate k [] ++ s)) levels where
  pieces_path := by rw [h.pieces_path, pieces_front hname, List.append_assoc, List.cons_append]
  front_prefix := (List.prefix_append f _).trans h.front_prefix
  tally_le := by
    have hweight : weight name ≤ 1 := by
      unfold weight
      split
      · decide
      · split <;> decide
    rw [tally_cons, tally_separators]
    omega
  goesOn c t ht := by
    rw [List.suffix_cons_iff] at ht
    rcases ht with heq | ht
    · obtain ⟨-, rfl⟩ := List.cons.inj heq
      exact h.lt_of_separators hleft k (List.suffix_refl _)
    · exact h.lt_of_separators hleft k ((List.suffix_cons c t).trans ht)
  fits t ht := by
    rw [List.suffix_cons_iff] at ht
    rcases ht with heq | ht
    · obtain ⟨rfl, rfl⟩ := List.cons.inj heq
      rw [tally_separators]
      exact hfits rfl
    · exact h.fits t (dotdot_suffix_separators ht)

/-- The first component of the path. -/
theorem round_first {name : Text} (hleft : 0 < levels)
    (hbefore : (front.rdropWhile ispathsep).rdropWhile (fun c => !ispathsep c) = [])
    (htake : (front.rdropWhile ispathsep).rtakeWhile (fun c => !ispathsep c) = name) :
    Climb.round ⟨front, levels⟩ = .inl (.ok (if name = dot ∧ levels = 1 then some dotdot else none)) := by
  rw [Climb.round, if_pos hleft]
  dsimp only
  rw [hbefore, htake, if_pos rfl]

/-- A component behind another one. -/
theorem round_next {f name : Text} (hleft : 0 < levels) (hne : name ≠ [])
    (hbefore : (front.rdropWhile ispathsep).rdropWhile (fun c => !ispathsep c) = f ++ ['/'.toUInt8])
    (htake : (front.rdropWhile ispathsep).rtakeWhile (fun c => !ispathsep c) = name) :
    Climb.round ⟨front, levels⟩ =
      if name = dotdot ∧ INT_MAX ≤ levels then .inl (.error .signedOverflow)
      else .inr ⟨f, levels - weight name⟩ := by
  rw [Climb.round, if_pos hleft]
  dsimp only
  rw [hbefore, htake, if_neg (by simp), List.dropLast_concat]
  by_cases hdot : name = dot
  · rw [if_pos hdot, hdot, weight_dot, if_neg (fun h => absurd h.1 (by decide)), sub_zero]
  rw [if_neg hdot]
  by_cases hdotdot : name = dotdot
  · rw [if_pos hdotdot, hdotdot, weight_dotdot]
    by_cases hlarge : INT_MAX ≤ levels
    · rw [if_neg (not_lt.mpr hlarge), if_pos ⟨rfl, hlarge⟩]
    · rw [if_pos (not_le.mp hlarge), if_neg (fun h => hlarge h.2), sub_neg_eq_add]
  · rw [if_neg hdotdot, if_neg (fun h => hdotdot h.1), weight_name ⟨hne, hdot, hdotdot⟩]

/-- **How a walk ends.** -/
theorem walk_ends (h : Read path front s levels) :
    ∃ result, Returns (iterate Climb.round ⟨front, levels - tally s⟩) result ∧ Ends path levels result := by
  induction hn : front.length using Nat.strong_induction_on generalizing front s with
  | _ n ih =>
    subst hn
    by_cases hleft : tally s < levels
    · obtain ⟨k, name, hname, htake, ⟨hbefore, rfl⟩ | ⟨f, hbefore, hne, rfl⟩⟩ := front_cases front
      · have hpath : pieces path = name :: (List.replicate k [] ++ s) := by
          rw [h.pieces_path, pieces_separators, pieces_name hname, List.append_assoc, List.singleton_append]
        have hfits : ∀ t, dotdot :: t <:+ List.replicate k [] ++ s → levels - tally t < INT_MAX :=
          fun t ht => h.fits t (dotdot_suffix_separators ht)
        have hround := round_first (by omega : 0 < levels - tally s) hbefore htake
        refine ⟨_, (returns_done hround).mpr rfl, ?_⟩
        split
        · rename_i hdot
          rw [hdot.1] at hpath
          refine .above hpath (fun t ht => h.lt_of_separators hleft k ht) ?_ hfits
          rw [tally_separators]
          omega
        · exact .noParent hpath (fun t ht => h.lt_of_separators hleft k ht) hfits
      · have hround := round_next (by omega : 0 < levels - tally s) hne hbefore htake
        by_cases hover : name = dotdot ∧ INT_MAX ≤ levels - tally s
        · rw [if_pos hover] at hround
          refine ⟨_, (returns_done hround).mpr rfl, ?_⟩
          obtain ⟨rfl, hlarge⟩ := hover
          refine .overflow (pieces f) (List.replicate k [] ++ s) ?_ (List.splitOnP_ne_nil _ f)
            (fun t ht => h.lt_of_separators hleft k ht) ?_
          · rw [h.pieces_path, pieces_front hname, List.append_assoc, List.cons_append]
          · rw [tally_separators]
            exact hlarge
        · rw [if_neg hover] at hround
          have hstep := h.step hname hleft fun heq => by
            by_contra hlarge
            exact hover ⟨heq, not_lt.mp hlarge⟩
          obtain ⟨result, hresult, hends⟩ := ih f.length (by simp) hstep rfl
          refine ⟨result, (returns_step hround).mpr ?_, hends⟩
          rw [tally_cons, tally_separators] at hresult
          rwa [sub_sub, add_comm (tally s)]
    · have htally : tally s = levels := le_antisymm h.tally_le (not_lt.mp hleft)
      refine ⟨_, (returns_done ?_).mpr rfl, .parent h htally⟩
      rw [Climb.round, if_neg (by dsimp only; omega)]

/-- **The loop ends** for every path. -/
theorem path_parent_ends (path : Text) (h : 1 ≤ levels) :
    ∃ result, Returns (path_parent path levels) result ∧ Ends path levels result := by
  have hread : Read path path [] levels := by
    refine ⟨(List.append_nil _).symm, List.prefix_refl _, by rw [tally_nil]; omega, fun c t ht => ?_, fun t ht => ?_⟩
    · cases List.suffix_nil.mp ht
    · cases List.suffix_nil.mp ht
  have hends := walk_ends hread
  rwa [tally_nil, sub_zero] at hends

/-! ### Normal forms -/

theorem push_nothing {c : Text} (h : c = [] ∨ c = dot) (stack : List Text) : push stack c = stack := by
  unfold push
  rw [if_pos h]

theorem push_name {c : Text} (h : IsName c) (stack : List Text) : push stack c = c :: stack := by
  unfold push
  rw [if_neg (by simp [h.1, h.2.1]), if_neg h.2.2]

theorem push_dotdot {top : Text} (h : IsName top) (stack : List Text) : push (top :: stack) dotdot = stack := by
  unfold push
  rw [if_neg (by decide), if_pos rfl]
  exact if_neg h.2.2

/-- What is read puts names on a stack: as many as it takes from the levels. -/
theorem foldl_push {d : Nat} (hd : d ≤ 1) (hgoesOn : ∀ c t, c :: t <:+ s → tally t < levels)
    (names rest : List Text) (hnames : ∀ c ∈ names, IsName c) (hlen : (names.length + d : Int) = levels - tally s) :
    ∃ names', (∀ c ∈ names', IsName c) ∧ (names'.length + d : Int) = levels ∧
      s.foldl push (names ++ rest) = names' ++ rest := by
  induction s generalizing names with
  | nil => exact ⟨names, hnames, by simpa using hlen, rfl⟩
  | cons c s ih =>
    have hleft : tally s < levels := hgoesOn c s (List.suffix_refl _)
    have ih := ih fun c' t ht => hgoesOn c' t (ht.trans (List.suffix_cons c s))
    rw [tally_cons] at hlen
    rw [List.foldl_cons]
    by_cases hnothing : c = [] ∨ c = dot
    · rw [push_nothing hnothing]
      rw [weight, if_pos hnothing, zero_add] at hlen
      exact ih names hnames hlen
    by_cases hdotdot : c = dotdot
    · rw [hdotdot, weight_dotdot] at hlen
      cases names with
      | nil =>
        simp only [List.length_nil] at hlen
        omega
      | cons top names =>
        obtain ⟨htop, hnames⟩ := List.forall_mem_cons.mp hnames
        rw [hdotdot, List.cons_append, push_dotdot htop]
        refine ih names hnames ?_
        rw [List.length_cons] at hlen
        omega
    · have hname : IsName c := ⟨fun h => hnothing (.inl h), fun h => hnothing (.inr h), hdotdot⟩
      rw [weight_name hname] at hlen
      rw [push_name hname]
      refine ih (c :: names) (List.forall_mem_cons.mpr ⟨hname, hnames⟩) ?_
      rw [List.length_cons]
      omega

/-- What is left of the path has the components that are left. -/
theorem normalForm_front (h : Read path front s levels) (htally : tally s = levels)
    (habsolute : front.head? = path.head?) : normalForm front = (normalForm path).parent levels.toNat := by
  obtain ⟨names, -, hlen, hpush⟩ := foldl_push (Nat.zero_le 1) h.goesOn [] ((pieces front).foldl push [])
    (by simp) (by simp [htally])
  have hcomponents : (normalForm path).components = (normalForm front).components ++ names.reverse := by
    simp only [normalForm]
    rw [h.pieces_path, List.foldl_append]
    rw [List.nil_append] at hpush
    rw [hpush, List.reverse_append]
  have hnames : names.reverse.length = levels.toNat := by
    rw [List.length_reverse]
    omega
  rw [NormalForm.parent, hcomponents, List.length_append, hnames, Nat.add_sub_cancel, List.take_left,
    if_neg (by omega), List.append_nil, normalForm, normalForm, habsolute]

/-- The path is what is above the start. -/
theorem normalForm_above (hpath : pieces path = dot :: s) (hgoesOn : ∀ t, t <:+ s → tally t < levels)
    (htally : tally s + 1 = levels) : normalForm dotdot = (normalForm path).parent levels.toNat := by
  obtain ⟨names, -, hlen, hpush⟩ := foldl_push (Nat.le_refl 1)
    (fun c t ht => hgoesOn t ((List.suffix_cons c t).trans ht)) [] [] (by simp) (by simp; omega)
  have hcomponents : (normalForm path).components.length + 1 = levels.toNat := by
    have hdot : push [] dot = [] := by decide
    simp only [normalForm]
    rw [hpath, List.foldl_cons, hdot]
    rw [List.append_nil] at hpush
    rw [hpush, List.append_nil, List.length_reverse]
    omega
  have habsolute : (normalForm path).absolute = false := by
    cases path with
    | nil => rfl
    | cons c rest =>
      simp only [normalForm, List.head?_cons]
      refine decide_eq_false fun hc => ?_
      obtain rfl := Option.some.inj hc
      rw [pieces, List.splitOnP_cons_eq_if_modifyHead, if_pos (by decide)] at hpath
      cases (List.cons.inj hpath).1
  rw [NormalForm.parent, if_pos ⟨habsolute, by omega⟩, habsolute, Nat.sub_eq_zero_of_le (by omega), List.take_zero]
  decide

end Walks

/-! ### The parent of a path -/

/-- What `path_parent` returns is right. -/
def ParentRight (path : Text) (levels : Int) : Prop :=
  ∃ result, Returns (path_parent path levels) (.ok result) ∧
    ∀ r, result = some r → normalForm r = (normalForm path).parent levels.toNat

/-- The levels are used up by the component that is directly behind the one separator at the start. -/
def UnderRoot (path : Text) (levels : Int) : Prop :=
  ∃ rest, path = '/'.toUInt8 :: rest ∧ tally (pieces rest) = levels ∧
    ∀ c t, c :: t <:+ pieces rest → tally t < levels

/-- The levels do not fit an `int` at some `..`. -/
def Overflows (path : Text) (levels : Int) : Prop :=
  ∃ front s, pieces path = front ++ dotdot :: s ∧ front ≠ [] ∧ (∀ t, t <:+ s → tally t < levels) ∧
    INT_MAX ≤ levels - tally s

section Conditions

variable {path : Text} {name : Text} {s : List Text} {levels : Int}

theorem pieces_root (rest : Text) : pieces ('/'.toUInt8 :: rest) = [] :: pieces rest :=
  pieces_cons [] rest

/-- No `..` behind the first component is too many. -/
theorem not_overflows (hpath : pieces path = name :: s)
    (hfits : ∀ t, dotdot :: t <:+ s → levels - tally t < INT_MAX) : ¬ Overflows path levels := by
  rintro ⟨front, t, hfront, hne, -, hlarge⟩
  obtain ⟨c, front, rfl⟩ := List.exists_cons_of_ne_nil hne
  rw [hpath, List.cons_append] at hfront
  have hfits := hfits t ⟨front, (List.cons.inj hfront).2.symm⟩
  omega

theorem neg_length_le_tally (s : List Text) : -(s.length : Int) ≤ tally s := by
  induction s with
  | nil => exact le_refl _
  | cons c s ih =>
    have hweight : -1 ≤ weight c := by
      unfold weight
      split
      · decide
      · split <;> decide
    rw [tally_cons, List.length_cons]
    omega

/-- Only a path with very many components is too much. -/
theorem not_overflows_of_length (h : (pieces path).length + levels ≤ INT_MAX) : ¬ Overflows path levels := by
  rintro ⟨front, t, hfront, -, -, hlarge⟩
  have htally := neg_length_le_tally t
  have hlen := congrArg List.length hfront
  rw [List.length_append, List.length_cons] at hlen
  omega

theorem Read.not_overflows {front : Text} (h : Read path front s levels) (htally : tally s = levels) :
    ¬ Overflows path levels := by
  rintro ⟨front', t, hfront, -, hgoesOn, hlarge⟩
  have hs : s <:+ pieces path := ⟨_, h.pieces_path.symm⟩
  have ht : dotdot :: t <:+ pieces path := ⟨front', hfront.symm⟩
  rcases List.suffix_or_suffix_of_suffix ht hs with hsuffix | hsuffix
  · have hfits := h.fits t hsuffix
    omega
  · rcases List.suffix_cons_iff.mp hsuffix with heq | hsuffix
    · have hfits := h.fits t (heq ▸ List.suffix_refl _)
      omega
    · exact absurd htally (ne_of_lt (hgoesOn s hsuffix))

/-- What is left of the path begins as the path does, if there is something left. -/
theorem Read.head?_eq {front : Text} (h : Read path front s levels) (hne : front ≠ []) :
    front.head? = path.head? := by
  obtain ⟨behind, hbehind⟩ := h.front_prefix
  obtain ⟨c, front, rfl⟩ := List.exists_cons_of_ne_nil hne
  rw [← hbehind]
  rfl

/-- Something is left of the path. -/
theorem Read.not_underRoot {front : Text} (h : Read path front s levels) (htally : tally s = levels)
    (hne : front ≠ []) : ¬ UnderRoot path levels := by
  rintro ⟨rest, rfl, -, hgoesOn⟩
  have hhead := h.head?_eq hne
  obtain ⟨c, front, rfl⟩ := List.exists_cons_of_ne_nil hne
  obtain rfl := Option.some.inj hhead
  have hpath := h.pieces_path
  rw [pieces_root, pieces_root, List.cons_append] at hpath
  have hrest := (List.cons.inj hpath).2
  rcases List.eq_nil_or_concat (pieces front) with hnil | ⟨before, c, hconcat⟩
  · exact List.splitOnP_ne_nil _ _ hnil
  · have hlt := hgoesOn c s ⟨before, by rw [hrest, hconcat]; simp⟩
    omega

end Conditions

/-- **The parent of a path** is right exactly if the walk does not use up the levels directly under the root, and
no count leaves the range of `int`. -/
theorem parentRight_iff (path : Text) (levels : Int) (h : 1 ≤ levels) :
    ParentRight path levels ↔ ¬ UnderRoot path levels ∧ ¬ Overflows path levels := by
  obtain ⟨result, hresult, hends⟩ := path_parent_ends path h
  have hunique : ∀ r, Returns (path_parent path levels) r → r = result := fun r hr => returns_unique hr hresult
  cases hends with
  | @parent r s hread htally =>
    by_cases hr : r = []
    · subst hr
      -- nothing is left of a path that begins with a separator
      obtain ⟨rest, rfl, rfl⟩ := absolute_of_pieces hread.pieces_path fun hs => by
        rw [show s = [] from hs, tally_nil] at htally
        omega
      refine iff_of_false ?_ fun hnot => hnot.1 ⟨rest, rfl, htally, hread.goesOn⟩
      rintro ⟨result, hreturns, hright⟩
      have hform := hright [] (Except.ok.inj (hunique _ hreturns))
      have habsolute := congrArg NormalForm.absolute hform
      cases habsolute
    · refine iff_of_true ⟨_, hresult, ?_⟩ ⟨hread.not_underRoot htally hr, hread.not_overflows htally⟩
      intro r' hr'
      rw [← Option.some.inj hr']
      exact normalForm_front hread htally (hread.head?_eq hr)
  | above hpath hgoesOn htally hfits =>
    refine iff_of_true ⟨_, hresult, ?_⟩ ⟨?_, not_overflows hpath hfits⟩
    · intro r hr
      rw [← Option.some.inj hr]
      exact normalForm_above hpath hgoesOn htally
    · rintro ⟨rest, rfl, -, -⟩
      rw [pieces_root] at hpath
      cases (List.cons.inj hpath).1
  | noParent hpath hgoesOn hfits =>
    refine iff_of_true ⟨_, hresult, fun r hr => by cases hr⟩ ⟨?_, not_overflows hpath hfits⟩
    rintro ⟨rest, rfl, htally, -⟩
    rw [pieces_root] at hpath
    obtain ⟨-, rfl⟩ := List.cons.inj hpath
    exact absurd htally (ne_of_lt (hgoesOn _ (List.suffix_refl _)))
  | overflow front s hpath hfront hgoesOn hlarge =>
    refine iff_of_false ?_ fun hnot => hnot.2 ⟨front, s, hpath, hfront, hgoesOn, hlarge⟩
    rintro ⟨result, hreturns, -⟩
    cases hunique _ hreturns

/-- A relative path with a `..` in it. -/
def relativePath : Text := "sdk/./tools/../emulator/lib64//".toList.map Char.toUInt8

theorem relative_path_right : ParentRight relativePath 2 := by
  refine (parentRight_iff relativePath 2 (by decide)).mpr ⟨?_, not_overflows_of_length (by decide)⟩
  rintro ⟨rest, hrest, -, -⟩
  have hhead : 's'.toUInt8 = '/'.toUInt8 := (List.cons.inj hrest).1
  exact absurd hhead (by decide)

/-- What is above a directory under the root is no path. -/
theorem parent_under_root : ¬ ParentRight ("/a".toList.map Char.toUInt8) 1 := by
  rintro ⟨result, hreturns, hright⟩
  have hempty : Returns (path_parent ("/a".toList.map Char.toUInt8) 1) (.ok (some [])) := ⟨2, rfl⟩
  have hform := hright [] (Except.ok.inj (returns_unique hreturns hempty))
  cases congrArg NormalForm.absolute hform

end PathParent

end Goldfish.Files
