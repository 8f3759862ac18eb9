import Goldfish.Files.IniFile

/-!
# Goldfish.Files.EnvSubst

Reading a string out of a configuration file (`getString`): environment variables are
substituted in the value (`envSubst`).

`env` is `envGet` of the system. A value is what every environment reads it as exactly if
it has at most one percent sign (`envSubst_eq_self_iff`): a second one closes a name or
makes an escape, and then the empty environment gives a shorter text.
-/

namespace Goldfish.Files

/-- What a variable stands between. -/
def percent : UInt8 := '%'.toUInt8

/-- The loop of `envSubst`. Without a `var`, `curr` points at `res`. -/
def envSubstLoop (env : Text → Text) : Text → (res : Text) → (var : Option Text) → Text
  | [], res, none => res
  -- the full text of a piece that is not closed
  | [], res, some var => res ++ percent :: var
  | ch :: fix, res, some var =>
    if ch ≠ percent then envSubstLoop env fix res (some (var ++ [ch]))
    else envSubstLoop env fix (res ++ env var) none
  | [ch], res, none => if ch ≠ percent then res ++ [ch] else res ++ [percent]
  | ch :: next :: fix, res, none =>
    if ch ≠ percent then envSubstLoop env (next :: fix) (res ++ [ch]) none
    else if next = percent then envSubstLoop env fix (res ++ [ch]) none
    else envSubstLoop env (next :: fix) res (some [])

/-- `envSubst`. -/
def envSubst (env : Text → Text) (fix : Text) : Text := envSubstLoop env fix [] none

/-- The map is searched for a C string. -/
def IniFile.hasKey (ini : IniFile) (key : Text) : Bool := (ini.mData (cString key)).isSome

/-- `getString`: the value, or the default one, with its variables replaced. -/
def IniFile.getString (ini : IniFile) (env : Text → Text) (key defaultValue : Text) : Text :=
  envSubst env ((ini.mData key).getD defaultValue)

/-! ### What is substituted -/

section Loop

variable (env : Text → Text)

attribute [local simp] envSubstLoop

/-- In a name without a percent sign. -/
theorem envSubstLoop_var {fix : Text} (h : percent ∉ fix) (res var : Text) :
    envSubstLoop env fix res (some var) = res ++ percent :: (var ++ fix) := by
  induction fix generalizing var with
  | nil => simp
  | cons ch fix ih =>
    rw [List.mem_cons, not_or] at h
    rw [envSubstLoop, if_pos (Ne.symm h.1), ih h.2]
    simp

/-- In a name, up to the percent sign that closes it. -/
theorem envSubstLoop_close {plain : Text} (h : percent ∉ plain) (fix res var : Text) :
    envSubstLoop env (plain ++ percent :: fix) res (some var) =
      envSubstLoop env fix (res ++ env (var ++ plain)) none := by
  induction plain generalizing var with
  | nil => simp
  | cons ch plain ih =>
    rw [List.mem_cons, not_or] at h
    rw [List.cons_append, envSubstLoop, if_pos (Ne.symm h.1), ih h.2]
    simp

/-- Outside of names, up to the first percent sign. -/
theorem envSubstLoop_plain {plain : Text} (h : percent ∉ plain) (fix res : Text) :
    envSubstLoop env (plain ++ fix) res none = envSubstLoop env fix (res ++ plain) none := by
  induction plain generalizing res with
  | nil => simp
  | cons ch plain ih =>
    rw [List.mem_cons, not_or] at h
    have hstep : envSubstLoop env (ch :: (plain ++ fix)) res none =
        envSubstLoop env (plain ++ fix) (res ++ [ch]) none := by
      cases plain ++ fix with
      | nil => simp [Ne.symm h.1]
      | cons next rest => rw [envSubstLoop, if_pos (Ne.symm h.1)]
    rw [List.cons_append, hstep, ih h.2]
    simp

theorem envSubst_of_not_mem {fix : Text} (h : percent ∉ fix) : envSubst env fix = fix := by
  have := envSubstLoop_plain env h [] []
  simpa [envSubst, envSubstLoop] using this

/-- One percent sign opens a name that is never closed. -/
theorem envSubst_of_one {before after : Text} (hbefore : percent ∉ before) (hafter : percent ∉ after) :
    envSubst env (before ++ percent :: after) = before ++ percent :: after := by
  rw [envSubst, envSubstLoop_plain env hbefore, List.nil_append]
  cases after with
  | nil => simp
  | cons next after =>
    have hnext : next ≠ percent := fun heq => hafter (heq ▸ List.mem_cons_self)
    rw [envSubstLoop, if_neg (by simp), if_neg hnext, envSubstLoop_var env hafter]
    simp

end Loop

/-- An environment without any variable adds nothing. -/
theorem length_envSubstLoop_le (fix res : Text) (var : Option Text) :
    (envSubstLoop (fun _ => []) fix res var).length ≤
      res.length + fix.length + (var.elim 0 fun var => var.length + 1) := by
  induction fix, res, var using envSubstLoop.induct (fun _ => []) with
  | case1 res => simp [envSubstLoop]
  | case2 res var => simp [envSubstLoop]
  | case3 ch fix res var hch ih =>
    rw [envSubstLoop, if_pos hch]
    refine ih.trans ?_
    simp
    omega
  | case4 ch fix res var hch ih =>
    rw [envSubstLoop, if_neg hch]
    refine ih.trans ?_
    simp
    omega
  | case5 ch res hch => simp [envSubstLoop, hch]
  | case6 ch res hch => simp [envSubstLoop, hch]
  | case7 ch next fix res hch ih =>
    rw [envSubstLoop, if_pos hch]
    refine ih.trans ?_
    simp
    omega
  | case8 ch fix res hch ih =>
    rw [envSubstLoop, if_neg hch, if_pos rfl]
    refine ih.trans ?_
    simp
    omega
  | case9 ch next fix res hch hnext ih =>
    rw [envSubstLoop, if_neg hch, if_neg hnext]
    refine ih.trans ?_
    simp only [List.length_cons, List.length_nil, Option.elim_some, Option.elim_none]
    omega

/-- Two percent signs are an escape or close a name, and either makes the text shorter. -/
theorem length_envSubst_lt {fix : Text} (h : 1 < fix.count percent) :
    (envSubst (fun _ => []) fix).length < fix.length := by
  have hmem : percent ∈ fix := List.count_pos_iff.mp (by omega)
  obtain ⟨before, after, rfl, hbefore⟩ := List.eq_append_cons_of_mem hmem
  have hafter : percent ∈ after := by
    rw [List.count_append, List.count_cons_self, List.count_eq_zero_of_not_mem hbefore] at h
    exact List.count_pos_iff.mp (by omega)
  rw [envSubst, envSubstLoop_plain _ hbefore, List.nil_append]
  cases after with
  | nil => simp at hafter
  | cons next after =>
    by_cases hnext : next = percent
    · rw [envSubstLoop, if_neg (by simp), if_pos hnext]
      have := length_envSubstLoop_le after (before ++ [percent]) none
      simp only [List.length_append, List.length_cons, List.length_nil, Option.elim_none] at this ⊢
      omega
    · rw [envSubstLoop, if_neg (by simp), if_neg hnext]
      obtain ⟨name, rest, heq, hname⟩ := List.eq_append_cons_of_mem hafter
      rw [heq, envSubstLoop_close _ hname]
      have := length_envSubstLoop_le rest (before ++ []) none
      simp only [List.length_append, List.length_nil, Option.elim_none, List.length_cons] at this ⊢
      omega

theorem length_envSubst_le (fix : Text) : (envSubst (fun _ => []) fix).length ≤ fix.length := by
  simpa [envSubst] using length_envSubstLoop_le fix [] none

theorem envSubst_eq_self {fix : Text} (h : fix.count percent ≤ 1) (env : Text → Text) :
    envSubst env fix = fix := by
  by_cases hmem : percent ∈ fix
  · obtain ⟨before, after, rfl, hbefore⟩ := List.eq_append_cons_of_mem hmem
    refine envSubst_of_one env hbefore fun hafter => ?_
    rw [List.count_append, List.count_cons_self] at h
    have := List.count_pos_iff.mpr hafter
    omega
  · exact envSubst_of_not_mem env hmem

/-- **What no environment changes.** -/
theorem envSubst_eq_self_iff (fix : Text) : (∀ env, envSubst env fix = fix) ↔ fix.count percent ≤ 1 := by
  constructor
  · intro h
    by_contra hcount
    have := length_envSubst_lt (Nat.lt_of_not_le hcount)
    rw [h] at this
    exact Nat.lt_irrefl _ this
  · exact envSubst_eq_self

end Goldfish.Files
