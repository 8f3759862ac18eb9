import Goldfish.Lib.CStrings
import Goldfish.Lib.Search

/-!
# Goldfish.Cmdline.TokenValue

Parameters of the form `name=value` in a string, with spaces between them (`get_token_value`
and `get_token_value_alloc` in `misc.cpp`).

The search goes from one occurrence of the name to the next, until one is at the beginning of
a token and has a `=` behind it (`search_spec`). The first such position is in the first
token with this name (`lookup_iff`). Lengths are narrowed to `int`, which is why the name and
the value must not be longer than that (`token_value_spec`).
-/

namespace Goldfish.Cmdline

open Goldfish.Lib

/-- A text of parameters. -/
abbrev Params := List UInt8

/-- What stands between the parameters. -/
def space : UInt8 := ' '.toUInt8

/-- What stands between a token and its value. -/
def equalsSign : UInt8 := '='.toUInt8

/-- What the code must not do. -/
inductive Fault where
  | outOfBounds
  | overflow
  deriving DecidableEq, Repr

/-- `(int)n`. -/
def narrow (n : Int) : Int := n.bmod 4294967296

/-- The largest `int`. -/
def INT_MAX : Int := 2147483647

/-- A character of a string, or the NUL behind it. -/
def readAt (text : Params) (i : Int) : Except Fault UInt8 :=
  if i < 0 then .error .outOfBounds
  else
    match charAt text i.toNat with
    | none => .error .outOfBounds
    | some c => .ok c

/-- The occurrence is at the beginning of a name, and `=` is behind it. -/
def isToken (params : Params) (len : Int) (par_start : Nat) : Except Fault Bool := do
  let begins ← if par_start = 0 then pure true else (· == space) <$> readAt params (par_start - 1 : Int)
  if begins then (· == equalsSign) <$> readAt params (par_start + len) else pure false

theorem strstr_lt {params name : Params} {par_start p : Nat} (h : strstr params name (par_start + 1) = some p) :
    params.length + 1 - p < params.length + 1 - par_start := by
  obtain ⟨hle, hat, -⟩ := strstr_eq_some_iff.mp h
  have hp := hat.1
  omega

/-- The loop: `par_start` is an occurrence of the name. -/
def search (params name : Params) (len : Int) (par_start : Nat) : Except Fault (Option Nat) :=
  if (params.length - par_start : Int) < len then .ok none
  else
    match isToken params len par_start with
    | .error fault => .error fault
    | .ok true => .ok (some par_start)
    | .ok false =>
      if params.length < par_start + 1 then .error .outOfBounds
      else
        match _h : strstr params name (par_start + 1) with
        | none => .ok none
        | some p => search params name len p
termination_by params.length + 1 - par_start
decreasing_by exact strstr_lt _h

/-- What is between a position and the next space, or the end. -/
def upToSpace (params : Params) (p : Nat) : Params := (params.drop p).takeWhile (· != space)

/-- The value that begins at `par_start` is copied, if it fits. -/
def copyValue (params : Params) (par_start : Int) (value : Params) (val_size : Int) : Except Fault (Int × Params) :=
  if par_start < 0 ∨ params.length < par_start then .error .outOfBounds
  else
    let text := upToSpace params par_start.toNat
    let len := narrow text.length
    if INT_MAX < len + 1 then .error .overflow
    else if len + 1 ≤ val_size then
      -- a negative length is a huge one for memcpy
      if len < 0 ∨ value.length < len + 1 then .error .outOfBounds
      else .ok (0, text.take len.toNat ++ 0 :: value.drop (len.toNat + 1))
    else .ok (len + 1, value)

/-- What is returned, and what is in the buffer. -/
def get_token_value (params name value : Params) (val_size : Int) : Except Fault (Int × Params) :=
  let len := narrow name.length
  match strstr params name 0 with
  | none => .ok (-1, value)
  | some par_start =>
    match search params name len par_start with
    | .error fault => .error fault
    | .ok none => .ok (-1, value)
    | .ok (some par_start) =>
      if INT_MAX < len + 1 then .error .overflow else copyValue params (par_start + (len + 1)) value val_size

/-- `malloc` gives a block with anything in it, or `NULL`. The result is what is returned, and what `*value`
points at. -/
def get_token_value_alloc (malloc : Int → Option Params) (params name : Params) (tmp : UInt8) :
    Except Fault (Int × Option Params) :=
  match get_token_value params name [tmp] 0 with
  | .error fault => .error fault
  | .ok (val_size, _) =>
    if val_size < 0 then .ok (val_size, none)
    else
      match malloc val_size with
      | none => .ok (-2, none)
      | some block =>
        match get_token_value params name block val_size with
        | .error fault => .error fault
        | .ok (res, block) => if res = 0 then .ok (res, some block) else .ok (res, none)

/-! ### Tokens -/

/-- The value in a token of the form `name=value`. -/
def tokenValue (name token : Params) : Option Params :=
  if name ++ [equalsSign] <+: token then some (token.drop (name.length + 1)) else none

/-- The value in the first such token, with single spaces between the tokens. -/
def lookup (params name : Params) : Option Params := (params.splitOn space).findSome? (tokenValue name)

/-- A token with this name begins at this position. -/
def TokenAt (params name : Params) (p : Nat) : Prop :=
  (p = 0 ∨ ∃ q, p = q + 1 ∧ params[q]? = some space) ∧ OccursAt params (name ++ [equalsSign]) p

/-- The first token with the name. -/
structure FirstTokenAt (params name : Params) (p : Nat) : Prop where
  token : TokenAt params name p
  first : ∀ q, q < p → ¬ TokenAt params name q

section Tokens

variable {params name token rest : Params} {p : Nat}

theorem not_mem_name (hspace : space ∉ name) : space ∉ name ++ [equalsSign] := by
  rw [List.mem_append, not_or]
  exact ⟨hspace, by decide⟩

/-- What has no space in it occurs in a token if it occurs in front of a space. -/
theorem prefix_token_iff {word : Params} (hword : space ∉ word) :
    word <+: token ++ space :: rest ↔ word <+: token := by
  constructor
  · intro h
    rcases List.prefix_or_prefix_of_prefix h (List.prefix_append token (space :: rest)) with hle | hle
    · exact hle
    · obtain ⟨more, rfl⟩ := hle
      obtain ⟨behind, hbehind⟩ := h
      rw [List.append_assoc, List.append_cancel_left_eq] at hbehind
      cases more with
      | nil => exact ⟨[], by rw [List.append_nil, List.append_nil]⟩
      | cons c more =>
        obtain ⟨rfl, -⟩ := List.cons.inj hbehind
        exact absurd (List.mem_append_right token List.mem_cons_self) hword
  · intro h
    exact h.trans (List.prefix_append _ _)

/-- What is behind the first space. -/
theorem drop_behind (token rest : Params) (n : Nat) :
    (token ++ space :: rest).drop (token.length + 1 + n) = rest.drop n := by
  rw [Nat.add_assoc, List.drop_length_add_append, Nat.add_comm 1 n, List.drop_succ_cons]

/-- A text without spaces is one token. -/
theorem tokenAt_single (hspace : space ∉ token) :
    TokenAt token name p ↔ p = 0 ∧ name ++ [equalsSign] <+: token := by
  constructor
  · rintro ⟨hp | ⟨q, -, hq⟩, hoccurs⟩
    · rw [hp] at hoccurs
      exact ⟨hp, hoccurs.2⟩
    · exact absurd (List.mem_of_getElem? hq) hspace
  · rintro ⟨rfl, h⟩
    exact ⟨.inl rfl, Nat.zero_le _, h⟩

/-- The tokens of a text are the first one and those behind the first space. -/
theorem tokenAt_cons (hname : space ∉ name) (hspace : space ∉ token) :
    TokenAt (token ++ space :: rest) name p ↔
      p = 0 ∧ name ++ [equalsSign] <+: token ∨ ∃ q, p = token.length + 1 + q ∧ TokenAt rest name q := by
  have hget : ∀ q, (token ++ space :: rest)[token.length + 1 + q]? = rest[q]? := by
    intro q
    rw [Nat.add_assoc, List.getElem?_append_right (Nat.le_add_right _ _), Nat.add_sub_cancel_left, Nat.add_comm 1 q]
    rfl
  constructor
  · rintro ⟨hp | ⟨q, rfl, hq⟩, hle, hat⟩
    · rw [hp] at hat
      exact .inl ⟨hp, (prefix_token_iff (not_mem_name hname)).mp hat⟩
    · -- the space in front is the first one or one of the rest
      right
      rw [List.length_append, List.length_cons] at hle
      rcases Nat.lt_trichotomy q token.length with hlt | heq | hgt
      · rw [List.getElem?_append_left hlt] at hq
        exact absurd (List.mem_of_getElem? hq) hspace
      · refine ⟨0, by omega, .inl rfl, Nat.zero_le _, ?_⟩
        rwa [heq, ← Nat.add_zero (token.length + 1), drop_behind] at hat
      · obtain ⟨k, rfl⟩ : ∃ k, q = token.length + 1 + k := ⟨q - (token.length + 1), by omega⟩
        refine ⟨k + 1, rfl, .inr ⟨k, rfl, hget k ▸ hq⟩, by omega, ?_⟩
        rwa [← drop_behind token]
  · rintro (⟨rfl, h⟩ | ⟨q, rfl, hbegins, hle, hat⟩)
    · exact ⟨.inl rfl, Nat.zero_le _, (prefix_token_iff (not_mem_name hname)).mpr h⟩
    · refine ⟨.inr ?_, ?_, by rwa [drop_behind]⟩
      · rcases hbegins with rfl | ⟨k, rfl, hk⟩
        · refine ⟨token.length, rfl, ?_⟩
          rw [List.getElem?_append_right (Nat.le_refl _), Nat.sub_self]
          rfl
        · exact ⟨token.length + 1 + k, rfl, (hget k).trans hk⟩
      · rw [List.length_append, List.length_cons]
        omega

theorem upToSpace_append (hspace : space ∉ token) {n : Nat} (hn : n ≤ token.length) :
    upToSpace (token ++ space :: rest) n = token.drop n := by
  rw [upToSpace, List.drop_append_of_le_length hn]
  refine takeWhile_append_starts (fun c hc => ?_) (starts_cons.mpr (by decide))
  exact bne_iff_ne.mpr fun heq => hspace (heq ▸ List.mem_of_mem_drop hc)

theorem upToSpace_behind (n : Nat) :
    upToSpace (token ++ space :: rest) (token.length + 1 + n) = upToSpace rest n := by
  rw [upToSpace, drop_behind, upToSpace]

theorem upToSpace_single (hspace : space ∉ token) (n : Nat) : upToSpace token n = token.drop n :=
  List.takeWhile_eq_self_iff.mpr fun _ hc =>
    bne_iff_ne.mpr fun heq => hspace (heq ▸ List.mem_of_mem_drop hc)

/-- **The first token with the name** is at the first position where a token with the name begins. -/
theorem lookup_cases (hname : space ∉ name) (params : Params) :
    (lookup params name = none ∧ ∀ p, ¬ TokenAt params name p) ∨
      ∃ p, FirstTokenAt params name p ∧ lookup params name = some (upToSpace params (p + (name.length + 1))) := by
  induction hn : params.length using Nat.strong_induction_on generalizing params with
  | _ n ih =>
  by_cases hspace : space ∈ params
  · obtain ⟨token, rest, rfl, htoken⟩ := List.eq_append_cons_of_mem hspace
    have hsplit : (token ++ space :: rest).splitOn space = token :: rest.splitOn space :=
      List.splitOn_append_cons_self_of_not_mem htoken rest
    by_cases hhere : name ++ [equalsSign] <+: token
    · have hvalue : tokenValue name token = some (token.drop (name.length + 1)) := if_pos hhere
      have hlength : name.length + 1 ≤ token.length := by
        have hle := hhere.length_le
        rwa [List.length_append] at hle
      refine .inr ⟨0, ⟨(tokenAt_cons hname htoken).mpr (.inl ⟨rfl, hhere⟩), nofun⟩, ?_⟩
      rw [lookup, hsplit, List.findSome?_cons, hvalue, Nat.zero_add, upToSpace_append htoken hlength]
    · have hskip : lookup (token ++ space :: rest) name = lookup rest name := by
        have hvalue : tokenValue name token = none := if_neg hhere
        rw [lookup, hsplit, List.findSome?_cons, hvalue, lookup]
      rw [hskip]
      have hshorter : rest.length < n := by
        rw [← hn, List.length_append, List.length_cons]
        omega
      rcases ih rest.length hshorter rest rfl with ⟨hnone, hno⟩ | ⟨p, ⟨hat, hfirst⟩, hsome⟩
      · refine .inl ⟨hnone, fun p hp => ?_⟩
        rcases (tokenAt_cons hname htoken).mp hp with ⟨-, h⟩ | ⟨q, -, hq⟩
        · exact hhere h
        · exact hno q hq
      · refine .inr ⟨token.length + 1 + p, ⟨(tokenAt_cons hname htoken).mpr (.inr ⟨p, rfl, hat⟩), ?_⟩, ?_⟩
        · intro q hq hq'
          rcases (tokenAt_cons hname htoken).mp hq' with ⟨-, h⟩ | ⟨r, rfl, hr⟩
          · exact hhere h
          · exact hfirst r (by omega) hr
        · rw [hsome, Nat.add_assoc _ p, upToSpace_behind]
  · have hsplit : params.splitOn space = [params] := List.splitOn_eq_singleton hspace
    by_cases hhere : name ++ [equalsSign] <+: params
    · have hvalue : tokenValue name params = some (params.drop (name.length + 1)) := if_pos hhere
      refine .inr ⟨0, ⟨(tokenAt_single hspace).mpr ⟨rfl, hhere⟩, nofun⟩, ?_⟩
      rw [lookup, hsplit, List.findSome?_cons, hvalue, Nat.zero_add, upToSpace_single hspace]
    · have hvalue : tokenValue name params = none := if_neg hhere
      refine .inl ⟨?_, fun p hp => hhere ((tokenAt_single hspace).mp hp).2⟩
      rw [lookup, hsplit, List.findSome?_cons, hvalue, List.findSome?_nil]

end Tokens

/-! ### The search -/

section Search

variable {params name : Params} {p : Nat}

theorem readAt_of_lt (hp : p < params.length) : readAt params p = .ok params[p] := by
  rw [readAt, if_neg (by omega), Int.toNat_natCast, charAt_of_lt hp]

theorem readAt_length : readAt params params.length = .ok 0 := by
  rw [readAt, if_neg (by omega), Int.toNat_natCast, charAt_length]

/-- A character is read up to the NUL, which is none of the text. -/
theorem readAt_beq (hp : p ≤ params.length) {c : UInt8} (hc : c ≠ 0) :
    ∃ b : Bool, (· == c) <$> readAt params p = .ok b ∧ (b = true ↔ params[p]? = some c) := by
  rcases Nat.lt_or_eq_of_le hp with hlt | rfl
  · refine ⟨params[p] == c, by rw [readAt_of_lt hlt]; rfl, ?_⟩
    rw [List.getElem?_eq_getElem hlt, Option.some_inj, beq_iff_eq]
  · refine ⟨0 == c, by rw [readAt_length]; rfl, ?_⟩
    rw [List.getElem?_eq_none (Nat.le_refl _), beq_iff_eq]
    exact iff_of_false (Ne.symm hc) (by simp)

/-- **What the loop tests** is whether a token with the name begins. -/
theorem isToken_spec (hat : OccursAt params name p) :
    ∃ b : Bool, isToken params name.length p = .ok b ∧ (b = true ↔ TokenAt params name p) := by
  have hend := hat.length_le
  obtain ⟨b, hread, hb⟩ := readAt_beq hend (c := equalsSign) (by decide)
  have hcast : ((p + name.length : Nat) : Int) = (p : Int) + name.length := by omega
  rw [hcast] at hread
  have htoken : TokenAt params name p ↔ (p = 0 ∨ ∃ q, p = q + 1 ∧ params[q]? = some space) ∧ b = true := by
    rw [TokenAt, occursAt_concat_iff, hb]
    exact and_congr_right fun _ => and_iff_right hat
  cases p with
  | zero =>
    refine ⟨b, hread, ?_⟩
    rw [htoken]
    exact (and_iff_right (.inl rfl)).symm
  | succ q =>
    obtain ⟨begins, hbegins, hiff⟩ := readAt_beq (c := space) (show q ≤ params.length by omega) (by decide)
    have hbefore : ((q + 1 : Nat) - 1 : Int) = q := by omega
    have hspace : (q + 1 = 0 ∨ ∃ r, q + 1 = r + 1 ∧ params[r]? = some space) ↔ begins = true := by
      rw [hiff]
      constructor
      · rintro (h | ⟨r, hr, h⟩)
        · cases h
        · rwa [Nat.succ.inj hr]
      · exact fun h => .inr ⟨q, rfl, h⟩
    rw [htoken, hspace]
    unfold isToken
    rw [if_neg (Nat.succ_ne_zero q), hbefore, hbegins]
    cases begins with
    | true => exact ⟨b, hread, (and_iff_right rfl).symm⟩
    | false => exact ⟨false, rfl, by simp⟩

theorem TokenAt.occursAt (h : TokenAt params name p) : OccursAt params name p := (occursAt_concat_iff.mp h.2).1

/-- **The search** finds the next token with the name, if there is one. -/
theorem search_spec (hne : name ≠ []) (hat : OccursAt params name p) :
    (search params name name.length p = .ok none ∧ ∀ q, p ≤ q → ¬ TokenAt params name q) ∨
      ∃ q, search params name name.length p = .ok (some q) ∧ TokenAt params name q ∧
        ∀ r, p ≤ r → r < q → ¬ TokenAt params name r := by
  induction hn : params.length - p using Nat.strong_induction_on generalizing p with
  | _ n ih =>
  have hend := hat.length_le
  have hpos := List.length_pos_of_ne_nil hne
  obtain ⟨b, htoken, hb⟩ := isToken_spec hat
  rw [search, if_neg (by omega), htoken]
  cases b with
  | true => exact .inr ⟨p, rfl, hb.mp rfl, fun r hpr hr => absurd hr (by omega)⟩
  | false =>
    have hno : ¬ TokenAt params name p := fun h => Bool.false_ne_true (hb.mpr h)
    dsimp only
    rw [if_neg (by omega)]
    split
    · rename_i hnone
      refine .inl ⟨rfl, fun q hq hq' => ?_⟩
      rcases Nat.eq_or_lt_of_le hq with rfl | hlt
      · exact hno hq'
      · exact strstr_eq_none_iff.mp hnone q hlt hq'.occursAt
    · -- between two occurrences no token with the name begins
      rename_i q hsome
      obtain ⟨hlt, hat', hbetween⟩ := strstr_eq_some_iff.mp hsome
      have hskip : ∀ r, p ≤ r → r < q → ¬ TokenAt params name r := by
        intro r hr hrq hr'
        rcases Nat.eq_or_lt_of_le hr with rfl | hlt
        · exact hno hr'
        · exact hbetween r hlt hrq hr'.occursAt
      have hle := hat'.1
      rcases ih (params.length - q) (by omega) hat' rfl with ⟨hsearch, hrest⟩ | ⟨k, hsearch, hk, hrest⟩
      · refine .inl ⟨hsearch, fun r hr => ?_⟩
        rcases Nat.lt_or_ge r q with hrq | hrq
        · exact hskip r hr hrq
        · exact hrest r hrq
      · refine .inr ⟨k, hsearch, hk, fun r hr hrk => ?_⟩
        rcases Nat.lt_or_ge r q with hrq | hrq
        · exact hskip r hr hrq
        · exact hrest r hrq hrk

end Search

/-! ### What is returned -/

theorem narrow_of_le {n : Nat} (h : (n : Int) ≤ INT_MAX) : narrow n = n := by
  rw [INT_MAX] at h
  exact Int.bmod_eq_of_le (by omega) (by omega)

section Values

variable {params name : Params}

/-- No token has the name. -/
theorem get_token_value_of_none (hspace : space ∉ name) (hne : name ≠ []) (hshort : (name.length : Int) < INT_MAX)
    (h : lookup params name = none) (value : Params) (val_size : Int) :
    get_token_value params name value val_size = .ok (-1, value) := by
  have hno : ∀ p, ¬ TokenAt params name p := by
    rcases lookup_cases hspace params with ⟨-, hno⟩ | ⟨p, -, hsome⟩
    · exact hno
    · cases h.symm.trans hsome
  unfold get_token_value
  dsimp only
  cases hfound : strstr params name 0 with
  | none => rfl
  | some p =>
    obtain ⟨-, hat, -⟩ := strstr_eq_some_iff.mp hfound
    rw [narrow_of_le (by omega)]
    rcases search_spec hne hat with ⟨hsearch, -⟩ | ⟨q, -, hq, -⟩
    · dsimp only
      rw [hsearch]
    · exact absurd hq (hno q)

/-- The value behind the first token with the name is copied. -/
theorem get_token_value_of_some (hspace : space ∉ name) (hne : name ≠ []) (hshort : (name.length : Int) < INT_MAX)
    {v : Params} (h : lookup params name = some v) (value : Params) (val_size : Int) :
    ∃ p : Nat, p ≤ params.length ∧ v = upToSpace params p ∧
      get_token_value params name value val_size = copyValue params p value val_size := by
  obtain ⟨p, ⟨hp, hfirst⟩, hv⟩ : ∃ p, FirstTokenAt params name p ∧ v = upToSpace params (p + (name.length + 1)) := by
    rcases lookup_cases hspace params with ⟨hnone, -⟩ | ⟨p, hp, hsome⟩
    · cases h.symm.trans hnone
    · exact ⟨p, hp, Option.some.inj (h.symm.trans hsome)⟩
  have hend := hp.2.length_le
  rw [List.length_append, List.length_singleton] at hend
  refine ⟨p + (name.length + 1), hend, hv, ?_⟩
  unfold get_token_value
  dsimp only
  cases hfound : strstr params name 0 with
  | none => exact absurd hp.occursAt (strstr_eq_none_iff.mp hfound p (Nat.zero_le p))
  | some p₀ =>
    obtain ⟨-, hat, hbefore⟩ := strstr_eq_some_iff.mp hfound
    have hle : p₀ ≤ p := by
      by_contra hlt
      exact hbefore p (Nat.zero_le p) (by omega) hp.occursAt
    rw [narrow_of_le (by omega)]
    have hsearch : search params name name.length p₀ = .ok (some p) := by
      rcases search_spec hne hat with ⟨-, hno⟩ | ⟨q, hsearch, hq, hno⟩
      · exact absurd hp (hno p hle)
      · -- both are the first one
        have hpq : q = p := by
          rcases Nat.lt_trichotomy q p with hlt | heq | hgt
          · exact absurd hq (hfirst q hlt)
          · exact heq
          · exact absurd hp (hno p hle hgt)
        rw [hsearch, hpq]
    dsimp only
    rw [hsearch]
    dsimp only
    rw [if_neg (by omega)]
    rfl

/-- A value with a length that an `int` can hold. -/
theorem copyValue_of_short {p : Nat} (hp : p ≤ params.length) (hshort : ((upToSpace params p).length : Int) < INT_MAX)
    {value : Params} {val_size : Int} (hsize : val_size ≤ value.length) :
    copyValue params p value val_size =
      if ((upToSpace params p).length : Int) + 1 ≤ val_size then
        .ok (0, upToSpace params p ++ 0 :: value.drop ((upToSpace params p).length + 1))
      else .ok ((upToSpace params p).length + 1, value) := by
  unfold copyValue
  dsimp only
  rw [if_neg (by omega), Int.toNat_natCast, narrow_of_le (by omega), if_neg (by omega)]
  split
  · rw [if_neg (by omega), Int.toNat_natCast, List.take_length]
  · rfl

theorem get_token_value_alloc_of_none {tmp : UInt8} {value : Params}
    (h : get_token_value params name [tmp] 0 = .ok (-1, value)) (malloc : Int → Option Params) :
    get_token_value_alloc malloc params name tmp = .ok (-1, none) := by
  rw [get_token_value_alloc, h]
  rfl

/-- The size that is asked for first is the size of the block, if there is one. -/
theorem get_token_value_alloc_of_some {malloc : Int → Option Params} {tmp : UInt8} {v : Params}
    (hmalloc : ∀ n block, malloc n = some block → (block.length : Int) = n)
    (hget : ∀ (value : Params) (val_size : Int), val_size ≤ value.length → get_token_value params name value val_size =
      if (v.length : Int) + 1 ≤ val_size then .ok (0, v ++ 0 :: value.drop (v.length + 1))
      else .ok (v.length + 1, value)) :
    get_token_value_alloc malloc params name tmp =
      .ok (match malloc (v.length + 1) with | none => (-2, none) | some _ => (0, some (v ++ [0]))) := by
  have hsize := hget [tmp] 0 (by simp)
  rw [if_neg (by omega)] at hsize
  rw [get_token_value_alloc, hsize]
  dsimp only
  rw [if_neg (by omega)]
  cases hblock : malloc (v.length + 1) with
  | none => rfl
  | some block =>
    have hlength := hmalloc _ block hblock
    have hcopy := hget block (v.length + 1) (by omega)
    rw [if_pos (by omega)] at hcopy
    have hdrop : block.drop (v.length + 1) = [] := List.drop_eq_nil_of_le (by omega)
    dsimp only
    rw [hcopy, hdrop]
    rfl

end Values

/-- **Looking up a token** is what the functions do, for names and values with lengths that an `int` can hold:
nothing is found if no token has the name; else the value of the first one is copied if it fits, and its size
returned if not. Nothing outside of the string is read. -/
theorem token_value_spec (params name : Params) (hne : name ≠ []) (hspace : space ∉ name)
    (hshort : (name.length : Int) < INT_MAX) :
    (lookup params name = none →
      (∀ value val_size, get_token_value params name value val_size = .ok (-1, value)) ∧
        ∀ malloc tmp, get_token_value_alloc malloc params name tmp = .ok (-1, none)) ∧
    ∀ v, lookup params name = some v → (v.length : Int) < INT_MAX →
      (∀ (value : Params) (val_size : Int), val_size ≤ value.length →
        ((v.length : Int) + 1 ≤ val_size →
          get_token_value params name value val_size = .ok (0, v ++ 0 :: value.drop (v.length + 1))) ∧
        (val_size < (v.length : Int) + 1 →
          get_token_value params name value val_size = .ok (v.length + 1, value))) ∧
      ∀ (malloc : Int → Option Params) tmp, (∀ n block, malloc n = some block → (block.length : Int) = n) →
        get_token_value_alloc malloc params name tmp =
          .ok (match malloc (v.length + 1) with | none => (-2, none) | some _ => (0, some (v ++ [0]))) := by
  constructor
  · intro hnone
    have hget := get_token_value_of_none hspace hne hshort hnone
    exact ⟨hget, fun malloc tmp => get_token_value_alloc_of_none (hget [tmp] 0) malloc⟩
  · intro v hsome hvalue
    have hget : ∀ (value : Params) (val_size : Int), val_size ≤ value.length →
        get_token_value params name value val_size =
          if (v.length : Int) + 1 ≤ val_size then .ok (0, v ++ 0 :: value.drop (v.length + 1))
          else .ok (v.length + 1, value) := by
      intro value val_size hsize
      obtain ⟨p, hp, rfl, hcopy⟩ := get_token_value_of_some hspace hne hshort hsome value val_size
      rw [hcopy, copyValue_of_short hp hvalue hsize]
    refine ⟨fun value val_size hsize => ?_, fun malloc tmp hmalloc => get_token_value_alloc_of_some hmalloc hget⟩
    rw [hget value val_size hsize]
    exact ⟨fun hfits => if_pos hfits, fun hlarge => if_neg (by omega)⟩

/-- Names within names and within values. -/
theorem token_value_last : literal "b" ≠ [] ∧ space ∉ literal "b" ∧ ((literal "b").length : Int) < INT_MAX ∧
    lookup (literal "ab=1 c=b=2 b=34 b=5") (literal "b") = some (literal "34") ∧
    get_token_value (literal "ab=1 c=b=2 b=34 b=5") (literal "b") (literal "....") 4 = .ok (0, literal "34\x00.") ∧
    get_token_value (literal "ab=1 c=b=2 b=34 b=5") (literal "b") (literal "..") 2 = .ok (3, literal "..") := by
  have hfound : lookup (literal "ab=1 c=b=2 b=34 b=5") (literal "b") = some (literal "34") := by decide
  have hspec := (token_value_spec (literal "ab=1 c=b=2 b=34 b=5") (literal "b") (by decide) (by decide)
    (by decide)).2 _ hfound (by decide)
  exact ⟨by decide, by decide, by decide, hfound, (hspec.1 (literal "....") 4 (by decide)).1 (by decide),
    (hspec.1 (literal "..") 2 (by decide)).2 (by decide)⟩

/-! ### Lengths that an `int` cannot hold -/

theorem lookup_single {name v : Params} (hname : space ∉ name) (hv : space ∉ v) :
    lookup (name ++ equalsSign :: v) name = some v := by
  have hspace : space ∉ name ++ equalsSign :: v := by
    rw [List.mem_append, List.mem_cons, not_or, not_or]
    exact ⟨hname, by decide, hv⟩
  have hhere : name ++ [equalsSign] <+: name ++ equalsSign :: v :=
    ⟨v, by rw [List.append_assoc, List.singleton_append]⟩
  have hvalue : tokenValue name (name ++ equalsSign :: v) = some v := by
    rw [tokenValue, if_pos hhere, List.drop_length_add_append]
    rfl
  rw [lookup, List.splitOn_eq_singleton hspace, List.findSome?_cons, hvalue]

/-- A name of one and the same letter is nowhere else in front of its `=`. -/
theorem strstr_letters {n : Nat} (hn : 2 ≤ n) {letter : UInt8} (hletter : letter ≠ equalsSign) (v : UInt8) :
    strstr (List.replicate n letter ++ [equalsSign, v]) (List.replicate n letter) 1 = none := by
  rw [strstr_eq_none_iff]
  intro q hq hat
  have hend := hat.length_le
  rw [List.length_append, List.length_replicate, List.length_cons, List.length_singleton] at hend
  obtain ⟨more, hmore⟩ := hat.2
  -- the letter of the name that would have to be the equals sign
  have hsame := congrArg (·[n - q]?) hmore
  have hindex : q + (n - q) = n := by omega
  rw [List.getElem?_drop, hindex, List.getElem?_append_left (by rw [List.length_replicate]; omega),
    List.getElem?_replicate_of_lt (by omega), List.getElem?_append_right (by rw [List.length_replicate]),
    List.length_replicate, Nat.sub_self] at hsame
  exact hletter (Option.some.inj hsame)

/-- A value of 2^32 characters is copied as if it were empty. -/
theorem long_value {name v : Params} (hne : name ≠ []) (hname : space ∉ name)
    (hshort : (name.length : Int) < INT_MAX) (hv : space ∉ v) (hlong : v.length = 4294967296) :
    get_token_value (name ++ equalsSign :: v) name [46] 1 = .ok (0, [0]) := by
  obtain ⟨p, hp, hvalue, hcopy⟩ := get_token_value_of_some hname hne hshort (lookup_single hname hv) [46] 1
  have hzero : narrow (4294967296 : Nat) = 0 := by decide
  rw [hcopy]
  unfold copyValue
  dsimp only
  rw [if_neg (by omega), Int.toNat_natCast, ← hvalue, hlong, hzero]
  rfl

/-- A name of `n` letters is not found if its length is taken for 1. -/
theorem long_name {n : Nat} (hn : 2 ≤ n) (hlong : narrow n = 1) {letter : UInt8} (hletter : letter ≠ equalsSign)
    (v : UInt8) (value : Params) (val_size : Int) :
    get_token_value (List.replicate n letter ++ [equalsSign, v]) (List.replicate n letter) value val_size =
      .ok (-1, value) := by
  have hfirst : strstr (List.replicate n letter ++ [equalsSign, v]) (List.replicate n letter) 0 = some 0 := by
    rw [strstr_eq_some_iff]
    exact ⟨Nat.le_refl 0, ⟨Nat.zero_le _, List.prefix_append _ _⟩, fun q _ hq => absurd hq (Nat.not_lt_zero q)⟩
  have hlength : (List.replicate n letter ++ [equalsSign, v]).length = n + 2 := by
    rw [List.length_append, List.length_replicate]
    rfl
  have hread : readAt (List.replicate n letter ++ [equalsSign, v]) 1 = .ok letter := by
    have hlt : 1 < (List.replicate n letter ++ [equalsSign, v]).length := by omega
    have h := readAt_of_lt hlt
    rwa [List.getElem_append_left (by rw [List.length_replicate]; omega), List.getElem_replicate] at h
  have htoken : isToken (List.replicate n letter ++ [equalsSign, v]) 1 0 = .ok false := by
    unfold isToken
    rw [if_pos rfl]
    have hzero : ((0 : Nat) : Int) + 1 = 1 := rfl
    rw [hzero, hread]
    exact congrArg Except.ok (beq_eq_false_iff_ne.mpr hletter)
  have hsearch : search (List.replicate n letter ++ [equalsSign, v]) (List.replicate n letter) 1 0 = .ok none := by
    rw [search, if_neg (by rw [hlength]; omega), htoken]
    dsimp only
    rw [if_neg (by omega)]
    split
    · rfl
    · rename_i p hp
      exact absurd (hp.symm.trans (strstr_letters hn hletter v)) (by simp)
  unfold get_token_value
  rw [List.length_replicate, hlong, hfirst]
  dsimp only
  rw [hsearch]

/-- The length of a value of 2^32 characters is taken for 0, and that of a name of 2^32 + 1 characters for 1. -/
theorem long_lengths :
    (lookup (literal "a" ++ equalsSign :: List.replicate 4294967296 120) (literal "a") =
        some (List.replicate 4294967296 120) ∧
      get_token_value (literal "a" ++ equalsSign :: List.replicate 4294967296 120) (literal "a") [46] 1 =
        .ok (0, [0])) ∧
    lookup (List.replicate 4294967297 97 ++ [equalsSign, 120]) (List.replicate 4294967297 97) = some [120] ∧
      get_token_value (List.replicate 4294967297 97 ++ [equalsSign, 120]) (List.replicate 4294967297 97) [46, 46] 2 =
        .ok (-1, [46, 46]) := by
  have hvalue : space ∉ List.replicate 4294967296 (120 : UInt8) := fun h =>
    absurd (List.eq_of_mem_replicate h) (by decide)
  have hname : space ∉ List.replicate 4294967297 (97 : UInt8) := fun h =>
    absurd (List.eq_of_mem_replicate h) (by decide)
  refine ⟨⟨lookup_single (by decide) hvalue, ?_⟩, lookup_single hname (by decide), ?_⟩
  · exact long_value (by decide) (by decide) (by decide) hvalue List.length_replicate
  · exact long_name (by decide) (by decide) (by decide) 120 [46, 46] 2

end Goldfish.Cmdline
