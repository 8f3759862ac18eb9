import Goldfish.Security.AllowList

/-!
# Goldfish.Security.Caching

**The caches of an access list do not show** (`cache_transparent`): whatever was asked
before, and whichever paths were dropped to make room, an answer is the one the rules
give.

`Kept` is the invariant: the caches of every group and subject are a sound memo of what
the rules say there.
-/

namespace Goldfish.Security

open Goldfish.Lib

/-! ### What the rules say -/

/-- Some expression of the group and subject matches the path. -/
def decision (re : RE2) (secure : SecurityMap) (color : AllowGroup) (sub path : String) : Bool :=
  match secure color sub with
  | none => false
  | some access => access.any (re.FullMatch path)

/-- The rules of a list; `DisableAccess` has none. -/
def AllowList.securityMap (list : AllowList) : SecurityMap :=
  match list.rules with
  | none => fun _ _ => none
  | some rules => rules.mSecurityMap

/-- The three questions. -/
inductive Query where
  | requiresAuthentication (path : String)
  | isAllowed (sub path : String)
  | isProtected (sub path : String)

/-- The answer of the list, which may change its caches. -/
def Query.answer (re : RE2) : Query → StateM AllowList Bool
  | requiresAuthentication path => AllowList.requiresAuthentication re path
  | isAllowed sub path => AllowList.isAllowed re sub path
  | isProtected sub path => AllowList.isProtected re sub path

/-- The answer of the rules alone. -/
def Query.uncached (re : RE2) (secure : SecurityMap) : Query → Bool
  | requiresAuthentication path => !decision re secure .None UNPROTECTED path
  | isAllowed sub path => decision re secure .Green sub path
  | isProtected sub path => decision re secure .Yellow sub path

/-! ### The invariant -/

/-- The caches of one group and subject. -/
def CachingAllowList.memo (list : CachingAllowList) (color : AllowGroup) (sub : String) : Memo String :=
  ⟨list.mAcceptCache color sub, list.mRejectionCache color sub⟩

/-- The rules stay, and the caches hold no wrong answer. -/
structure CachingAllowList.Kept (re : RE2) (secure : SecurityMap) (list : CachingAllowList) : Prop where
  rules : list.mSecurityMap = secure
  sound : ∀ color sub, (list.memo color sub).Sound MAX_URI_CACHE (decision re secure color sub)

/-- The same of a list, which may have no rules. -/
def AllowList.Kept (re : RE2) (secure : SecurityMap) (list : AllowList) : Prop :=
  match list.rules with
  | none => secure = fun _ _ => none
  | some rules => rules.Kept re secure

section Kept

variable {re : RE2} {secure : SecurityMap}

namespace CachingAllowList

theorem insert_self (cache : AllowCache) (rand : Nat → Nat) (color : AllowGroup) (sub path : String) :
    insert cache rand color sub path color sub =
      boundedInsert MAX_URI_CACHE (rand 0) path (cache color sub) := by
  simp [insert, assign]

theorem insert_other (cache : AllowCache) (rand : Nat → Nat) {color c : AllowGroup} {sub s : String}
    (h : ¬ (c = color ∧ s = sub)) (path : String) :
    insert cache rand color sub path c s = cache c s := by
  simp [insert, assign, h]

theorem Kept.insertAccept {list : CachingAllowList} (h : list.Kept re secure) {color : AllowGroup}
    {sub path : String} (hpath : decision re secure color sub path = true) :
    (list.insertAccept color sub path).Kept re secure := by
  refine ⟨h.rules, fun c s => ?_⟩
  show Memo.Sound _ _ ⟨insert list.mAcceptCache list.rand color sub path c s, list.mRejectionCache c s⟩
  by_cases hcs : c = color ∧ s = sub
  · obtain ⟨rfl, rfl⟩ := hcs
    rw [insert_self]
    exact (h.sound c s).insert_accept (by decide) hpath _
  · rw [insert_other _ _ hcs]
    exact h.sound c s

theorem Kept.insertRejection {list : CachingAllowList} (h : list.Kept re secure) {color : AllowGroup}
    {sub path : String} (hpath : decision re secure color sub path = false) :
    (list.insertRejection color sub path).Kept re secure := by
  refine ⟨h.rules, fun c s => ?_⟩
  show Memo.Sound _ _ ⟨list.mAcceptCache c s, insert list.mRejectionCache list.rand color sub path c s⟩
  by_cases hcs : c = color ∧ s = sub
  · obtain ⟨rfl, rfl⟩ := hcs
    rw [insert_self]
    exact (h.sound c s).insert_reject (by decide) hpath _
  · rw [insert_other _ _ hcs]
    exact h.sound c s

/-- Whether it comes from a cache or from the rules, the answer is that of the rules. -/
theorem isAllowedIn_gives (color : AllowGroup) (sub path : String) :
    Gives (Kept re secure) (isAllowedIn re color sub path) (· = decision re secure color sub path) := by
  intro list h
  show ((isAllowedIn re color sub path list).1 = _ ∧ (isAllowedIn re color sub path list).2.Kept re secure)
  cases haccess : secure color sub with
  | none =>
    have hdecision : decision re secure color sub path = false := by simp [decision, haccess]
    simp only [isAllowedIn, h.rules, haccess]
    exact ⟨hdecision.symm, h⟩
  | some access =>
    have hdecision : decision re secure color sub path = access.any (re.FullMatch path) := by
      simp [decision, haccess]
    simp only [isAllowedIn, h.rules, haccess]
    split
    · exact ⟨((h.sound color sub).rejected.holds path ‹_›).symm, h⟩
    · split
      · exact ⟨((h.sound color sub).accepted.holds path ‹_›).symm, h⟩
      · split
        · have hpath := hdecision.trans ‹_›
          exact ⟨hpath.symm, h.insertAccept hpath⟩
        · have hpath := hdecision.trans (Bool.not_eq_true _ ▸ ‹¬ access.any (re.FullMatch path) = true›)
          exact ⟨hpath.symm, h.insertRejection hpath⟩

theorem requiresAuthentication_gives (path : String) :
    Gives (Kept re secure) (requiresAuthentication re path)
      (· = !decision re secure .None UNPROTECTED path) :=
  gives_bind (isAllowedIn_gives .None UNPROTECTED path) fun _ h => gives_pure (congrArg (!·) h)

end CachingAllowList

namespace AllowList

theorem Kept.setSource {list : AllowList} (h : list.Kept re secure) (src : String) :
    (list.setSource src).Kept re secure := h

/-- A virtual call that `DisableAccess` answers as its rules, of which there are none, would. -/
theorem dispatch_gives {disabled answer : Bool} {method : StateM CachingAllowList Bool}
    (hmethod : Gives (CachingAllowList.Kept re secure) method (· = answer))
    (hdisabled : (secure = fun _ _ => none) → disabled = answer) :
    Gives (Kept re secure) (dispatch disabled method) (· = answer) := by
  intro list h
  show (dispatch disabled method list).1 = answer ∧ (dispatch disabled method list).2.Kept re secure
  unfold dispatch
  cases hrules : list.rules with
  | none =>
    unfold Kept at h ⊢
    rw [hrules] at h
    simp only [hrules]
    exact ⟨hdisabled h, h⟩
  | some rules =>
    unfold Kept at h ⊢
    rw [hrules] at h
    exact hmethod rules h

theorem requiresAuthentication_gives (path : String) :
    Gives (Kept re secure) (requiresAuthentication re path)
      (· = !decision re secure .None UNPROTECTED path) := by
  refine dispatch_gives (CachingAllowList.requiresAuthentication_gives path) ?_
  rintro rfl
  rfl

theorem isAllowed_gives (sub path : String) :
    Gives (Kept re secure) (isAllowed re sub path) (· = decision re secure .Green sub path) := by
  refine dispatch_gives (CachingAllowList.isAllowedIn_gives .Green sub path) ?_
  rintro rfl
  rfl

theorem isProtected_gives (sub path : String) :
    Gives (Kept re secure) (isProtected re sub path) (· = decision re secure .Yellow sub path) := by
  refine dispatch_gives (CachingAllowList.isAllowedIn_gives .Yellow sub path) ?_
  rintro rfl
  rfl

theorem isRed_gives (sub path : String) :
    Gives (Kept re secure) (isRed re sub path)
      (· = (!decision re secure .Green sub path && !decision re secure .Yellow sub path)) := by
  refine gives_bind (isAllowed_gives sub path) fun allowed hallowed => gives_ite (fun h => ?_) fun h => ?_
  · exact gives_pure (by simp [← hallowed, h])
  · refine gives_bind (isProtected_gives sub path) fun _ hprotected => gives_pure ?_
    simp [← hallowed, h, hprotected]

end AllowList

/-- A query is answered as if there were no cache. -/
theorem Query.answer_gives (query : Query) :
    Gives (AllowList.Kept re secure) (query.answer re) (· = query.uncached re secure) := by
  cases query with
  | requiresAuthentication path => exact AllowList.requiresAuthentication_gives path
  | isAllowed sub path => exact AllowList.isAllowed_gives sub path
  | isProtected sub path => exact AllowList.isProtected_gives sub path

end Kept

/-! ### A list of literals -/

/-- RE2 on patterns without special characters. -/
def literal : RE2 := ⟨fun _ => true, fun text pattern => text == pattern⟩

/-- A file with an unprotected, an allowed and a protected path. -/
def sample : Json :=
  .object [
    ("unprotected", .array [.string "/health"]),
    ("allowlist", .array [.object [("iss", .string "studio"), ("allowed", .array [.string "/echo"]),
      ("protected", .array [.string "/boot"])]])]

/-- The rules of this file. -/
def sampleMap : SecurityMap :=
  assign (assign (assign (fun _ _ => none) .None UNPROTECTED (some ["/health"])) .Green "studio" (some ["/echo"]))
    .Yellow "studio" (some ["/boot"])

theorem parse_sample (rand : Nat → Nat) : parseJsonObject literal rand (some sample) =
    .ok ⟨"", some ⟨sampleMap, fun _ _ => [], fun _ _ => [], rand⟩⟩ := by
  rfl

/-! ### Every history -/

/-- The caches of a list that was just read are empty. -/
theorem parseJsonObject_kept {re : RE2} {rand : Nat → Nat} {document : Option Json} {list : AllowList}
    (h : parseJsonObject re rand document = .ok list) : list.Kept re list.securityMap := by
  cases document with
  | none =>
    simp only [parseJsonObject, pure_eq_ok] at h
    subst h
    rfl
  | some document =>
    simp only [parseJsonObject, bind_eq_ok, pure_eq_ok] at h
    obtain ⟨secure, -, rfl⟩ := h
    exact ⟨rfl, fun _ _ => Memo.sound_empty⟩

/-- **The caches are transparent.** After any queries, and whatever paths were evicted on the way, the
answers are those of the rules, no path is in both caches of a group and subject, and none of them has
more than `MAX_URI_CACHE` paths. -/
theorem cache_transparent (re : RE2) (rand : Nat → Nat) (document : Option Json) (list : AllowList)
    (hlist : parseJsonObject re rand document = .ok list) (queries : List Query) :
    ((queries.mapM (Query.answer re)).run list).1 = queries.map (Query.uncached re list.securityMap) ∧
      ∀ rules, ((queries.mapM (Query.answer re)).run list).2.rules = some rules → ∀ color sub,
        (∀ path, ¬ (path ∈ rules.mAcceptCache color sub ∧ path ∈ rules.mRejectionCache color sub)) ∧
          (rules.mAcceptCache color sub).length ≤ MAX_URI_CACHE ∧
          (rules.mRejectionCache color sub).length ≤ MAX_URI_CACHE := by
  obtain ⟨hanswers, hkept⟩ :=
    gives_mapM_eq (fun query => query.answer_gives) queries list (parseJsonObject_kept hlist)
  refine ⟨hanswers, fun rules hrules color sub => ?_⟩
  unfold AllowList.Kept at hkept
  rw [hrules] at hkept
  have hsound := hkept.sound color sub
  exact ⟨hsound.disjoint, hsound.accepted.length_le, hsound.rejected.length_le⟩

theorem sample_cached : (([Query.isAllowed "studio" "/echo", .isAllowed "studio" "/echo",
      .isAllowed "studio" "/boot", .isProtected "studio" "/boot", .requiresAuthentication "/health"].mapM
        (Query.answer literal)).run ⟨"", some ⟨sampleMap, fun _ _ => [], fun _ _ => [], id⟩⟩).1 =
    [true, true, false, true, false] :=
  (cache_transparent literal id (some sample) _ (parse_sample id) _).1.trans (by decide)

end Goldfish.Security
