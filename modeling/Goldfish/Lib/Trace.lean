import Mathlib.Data.List.Basic
import Mathlib.Data.List.Induction
import Mathlib.Logic.Relation

/-!
# Goldfish.Lib.Trace

Rules for reasoning about **runs**, over arbitrary states, actions and events:

* `bind_eq_ok` and `bind_eq_error` peel one step off a computation that may fail;
* `foldlM_invariant` lifts a property one step preserves to every run of a
  failing step function, `star_invariant` does the same for a step relation;
* `Along step ok s acts` restricts a run to actions that are allowed in the state
  they meet, with the same rule (`Along.invariant`), one for the absence of
  failures (`Along.progress`), one for conditions that imply each other under an invariant
  (`Along.imp`, `along_iff_along`), one for a property of the results of a run
  (`forall_results_iff_along`, with `forall_prefix_iff_along`, `forall_reached_iff_along` and
  `forall_states_iff_along` for the states it reaches) and one for a run beside the same run
  with some of its actions left out (`Along.filter_related`);
* `Hist R log` says that every event of a log was admissible (`R`) after the
  events before it. A log only grows at its end, so an ordering property of a
  whole run is one obligation for each new event (`hist_append`, `hist_cons`),
  an invariant that an event can break is kept exactly by the histories without
  such an event (`forall_initial_iff_hist`), and two conditions that agree under an
  invariant hold of the same histories (`hist_iff_hist`).
-/

namespace Goldfish.Lib

variable {ε σ α β : Type}

/-! ### Computations that may fail -/

@[simp] theorem bind_eq_ok {x : Except ε α} {f : α → Except ε β} {b : β} :
    (x >>= f) = .ok b ↔ ∃ a, x = .ok a ∧ f a = .ok b := by
  cases x <;> simp [bind, Except.bind]

@[simp] theorem ok_bind {a : α} {f : α → Except ε β} : (Except.ok a >>= f) = f a := rfl

@[simp] theorem pure_eq_ok {a b : α} : (pure a : Except ε α) = .ok b ↔ a = b := by
  simp [pure, Except.pure]

@[simp] theorem map_eq_ok {x : Except ε α} {f : α → β} {b : β} :
    (f <$> x) = .ok b ↔ ∃ a, x = .ok a ∧ f a = b := by
  cases x <;> simp [Functor.map, Except.map]

theorem pure_def {a : α} : (pure a : Except ε α) = .ok a := rfl

@[simp] theorem bind_eq_error {x : Except ε α} {f : α → Except ε β} {e : ε} :
    (x >>= f) = .error e ↔ x = .error e ∨ ∃ a, x = .ok a ∧ f a = .error e := by
  cases x <;> simp [bind, Except.bind]

@[simp] theorem pure_ne_error {a : α} {e : ε} : (pure a : Except ε α) = .error e ↔ False := by
  simp [pure, Except.pure]

@[simp] theorem map_eq_error {x : Except ε α} {f : α → β} {e : ε} :
    (f <$> x) = .error e ↔ x = .error e := by
  cases x <;> simp [Functor.map, Except.map]

theorem toOption_eq_some {x : Except ε α} {a : α} : x.toOption = some a ↔ x = .ok a := by
  cases x <;> simp [Except.toOption]

/-! ### Invariants of runs -/

/-- An invariant of one successful step is an invariant of every successful run. -/
theorem foldlM_invariant {step : σ → α → Except ε σ} {I : σ → Prop}
    (hstep : ∀ s a s', I s → step s a = .ok s' → I s') :
    ∀ {acts : List α} {s s' : σ}, I s → acts.foldlM step s = .ok s' → I s'
  | [], s, s', hI, h => by
      simp only [List.foldlM_nil, pure_eq_ok] at h
      exact h ▸ hI
  | a :: acts, s, s', hI, h => by
      simp only [List.foldlM_cons, bind_eq_ok] at h
      obtain ⟨t, ht, hrest⟩ := h
      exact foldlM_invariant hstep (hstep s a t hI ht) hrest

/-- Every action of the run meets a condition in the state it starts from. -/
def Along (step : σ → α → Except ε σ) (ok : σ → α → Prop) : σ → List α → Prop
  | _, [] => True
  | s, a :: acts => ok s a ∧ ∀ s', step s a = .ok s' → Along step ok s' acts

section Along

variable {step : σ → α → Except ε σ} {ok : σ → α → Prop} {I : σ → Prop}

/-- A step that was carried out, and the rest of the run. -/
theorem along_cons_iff {acts : List α} {s s' : σ} {a : α} (hs : step s a = .ok s') :
    Along step ok s (a :: acts) ↔ ok s a ∧ Along step ok s' acts := by
  constructor
  · intro h
    exact ⟨h.1, h.2 s' hs⟩
  · intro h
    refine ⟨h.1, fun t ht => ?_⟩
    rw [hs] at ht
    exact Except.ok.inj ht ▸ h.2

/-- A condition that can be decided can be decided along a run. -/
instance Along.decidable [∀ s a, Decidable (ok s a)] :
    ∀ (s : σ) (acts : List α), Decidable (Along step ok s acts)
  | _, [] => isTrue trivial
  | s, a :: acts =>
      match h : step s a with
      | .error _ => decidable_of_iff (ok s a) ⟨fun hok => ⟨hok, fun s' hs' => by rw [h] at hs'; cases hs'⟩,
          And.left⟩
      | .ok s' =>
          have : Decidable (Along step ok s' acts) := Along.decidable s' acts
          decidable_of_iff _ (along_cons_iff h).symm

theorem Along.cons {acts : List α} {s s' : σ} {a : α} (hok : ok s a) (hs : step s a = .ok s')
    (hrest : Along step ok s' acts) : Along step ok s (a :: acts) :=
  (along_cons_iff hs).mpr ⟨hok, hrest⟩

/-- A condition that holds of every action of the list, in whatever state it is met. -/
theorem along_of_mem : ∀ {acts : List α} {s : σ}, (∀ a ∈ acts, ∀ s, ok s a) → Along step ok s acts
  | [], _, _ => trivial
  | a :: _, s, hok => ⟨hok a List.mem_cons_self s, fun _ _ =>
      along_of_mem fun b hb => hok b (List.mem_cons_of_mem a hb)⟩

/-- A condition that always holds is no restriction. -/
theorem along_of_forall (hok : ∀ s a, ok s a) {acts : List α} {s : σ} : Along step ok s acts :=
  along_of_mem fun a _ s => hok s a

theorem Along.mono {ok' : σ → α → Prop} (hmono : ∀ s a, ok s a → ok' s a) :
    ∀ {acts : List α} {s : σ}, Along step ok s acts → Along step ok' s acts
  | [], _, _ => trivial
  | a :: _, s, h => ⟨hmono s a h.1, fun s' hs' => (h.2 s' hs').mono hmono⟩

/-- An invariant of the steps that meet the condition. -/
theorem Along.invariant (hstep : ∀ s a s', I s → ok s a → step s a = .ok s' → I s') :
    ∀ {acts : List α} {s s' : σ}, Along step ok s acts → I s → acts.foldlM step s = .ok s' → I s'
  | [], s, s', _, hI, h => by
      simp only [List.foldlM_nil, pure_eq_ok] at h
      exact h ▸ hI
  | a :: acts, s, s', hok, hI, h => by
      simp only [List.foldlM_cons, bind_eq_ok] at h
      obtain ⟨t, ht, hrest⟩ := h
      exact (hok.2 t ht).invariant hstep (hstep s a t hI hok.1 ht) hrest

/-- Under an invariant, one condition implies another. -/
theorem Along.imp {ok' : σ → α → Prop} (himp : ∀ s a, I s → ok s a → ok' s a)
    (hstep : ∀ s a s', I s → ok s a → step s a = .ok s' → I s') :
    ∀ {acts : List α} {s : σ}, Along step ok s acts → I s → Along step ok' s acts
  | [], _, _, _ => trivial
  | a :: _, s, hok, hI => ⟨himp s a hI hok.1, fun s' hs' =>
      (hok.2 s' hs').imp himp hstep (hstep s a s' hI hok.1 hs')⟩

/-- **Exact conditions on steps.** Under an invariant that the second condition keeps, two conditions that
agree on a step agree on runs. -/
theorem along_iff_along {ok' : σ → α → Prop} (hiff : ∀ s a, I s → (ok s a ↔ ok' s a))
    (hstep : ∀ s a s', I s → ok' s a → step s a = .ok s' → I s') {acts : List α} {s : σ} (hI : I s) :
    Along step ok s acts ↔ Along step ok' s acts := by
  constructor
  · intro h
    exact h.imp (fun s a hI => (hiff s a hI).mp) (fun s a s' hI hok => hstep s a s' hI ((hiff s a hI).mp hok)) hI
  · intro h
    exact h.imp (fun s a hI => (hiff s a hI).mpr) hstep hI

/-- Two conditions on the same steps. -/
theorem along_and_iff {ok' : σ → α → Prop} {acts : List α} {s : σ} :
    Along step (fun s a => ok s a ∧ ok' s a) s acts ↔ Along step ok s acts ∧ Along step ok' s acts := by
  induction acts generalizing s with
  | nil => exact (and_self_iff).symm
  | cons a acts ih =>
    constructor
    · intro ⟨⟨hok, hok'⟩, hrest⟩
      exact ⟨⟨hok, fun s' hs' => (ih.mp (hrest s' hs')).1⟩, hok', fun s' hs' => (ih.mp (hrest s' hs')).2⟩
    · intro ⟨⟨hok, hrest⟩, hok', hrest'⟩
      exact ⟨⟨hok, hok'⟩, fun s' hs' => ih.mpr ⟨hrest s' hs', hrest' s' hs'⟩⟩

/-- A property of the result of a run after each of its actions, as a condition on its steps. -/
theorem forall_results_iff_along {Q : Except ε σ → Prop} {acts : List α} {s : σ} (hs : Q (.ok s)) :
    (∀ pre, pre <+: acts → Q (pre.foldlM step s)) ↔ Along step (fun s a => Q (step s a)) s acts := by
  induction acts generalizing s with
  | nil =>
    refine iff_of_true (fun pre hpre => ?_) trivial
    rw [List.prefix_nil.mp hpre]
    exact hs
  | cons a acts ih =>
    constructor
    · intro h
      have hfirst : Q (step s a) := by
        simpa using h [a] ⟨acts, rfl⟩
      refine ⟨hfirst, fun t ht => (ih (ht ▸ hfirst)).mp fun pre hpre => ?_⟩
      have hpre' := h (a :: pre) (List.cons_prefix_cons.mpr ⟨rfl, hpre⟩)
      rwa [List.foldlM_cons, ht, ok_bind] at hpre'
    · intro ⟨hfirst, hrest⟩ pre hpre
      cases pre with
      | nil => exact hs
      | cons b pre =>
        obtain ⟨rfl, hpre'⟩ := List.cons_prefix_cons.mp hpre
        rw [List.foldlM_cons]
        cases hb : step s b with
        | error e =>
          rw [hb] at hfirst
          exact hfirst
        | ok t =>
          rw [ok_bind]
          exact (ih (hb ▸ hfirst)).mpr (hrest t hb) pre hpre'

/-- A property of every state that a run reaches, of runs that do not fail. -/
theorem forall_prefix_iff_along {P : σ → Prop} {acts : List α} {s : σ} (hs : P s) :
    (∀ pre, pre <+: acts → ∃ s', pre.foldlM step s = .ok s' ∧ P s') ↔
      Along step (fun s a => ∃ s', step s a = .ok s' ∧ P s') s acts :=
  forall_results_iff_along (Q := fun r => ∃ s', r = .ok s' ∧ P s') ⟨s, rfl, hs⟩

/-- A property of every state that a run reaches, and of how it may fail. -/
theorem forall_reached_iff_along {P : σ → Prop} {e : ε} {acts : List α} {s : σ} (hs : P s) :
    (∀ pre, pre <+: acts → (∀ s', pre.foldlM step s = .ok s' → P s') ∧ pre.foldlM step s ≠ .error e) ↔
      Along step (fun s a => (∀ s', step s a = .ok s' → P s') ∧ step s a ≠ .error e) s acts :=
  forall_results_iff_along (Q := fun r => (∀ s', r = .ok s' → P s') ∧ r ≠ .error e)
    ⟨fun _ hs' => Except.ok.inj hs' ▸ hs, nofun⟩

/-- A property of every state that a run reaches, however it ends. -/
theorem forall_states_iff_along {P : σ → Prop} {acts : List α} {s : σ} (hs : P s) :
    (∀ pre, pre <+: acts → ∀ s', pre.foldlM step s = .ok s' → P s') ↔
      Along step (fun s a => ∀ s', step s a = .ok s' → P s') s acts :=
  forall_results_iff_along (Q := fun r => ∀ s', r = .ok s' → P s') fun _ hs' => Except.ok.inj hs' ▸ hs

/-- Where no step that meets the condition fails, no run does. -/
theorem Along.progress (hstep : ∀ s a, I s → ok s a → ∃ s', step s a = .ok s' ∧ I s') :
    ∀ {acts : List α} {s : σ}, Along step ok s acts → I s →
      ∃ s', acts.foldlM step s = .ok s' ∧ I s'
  | [], s, _, hI => ⟨s, rfl, hI⟩
  | a :: acts, s, hok, hI => by
      obtain ⟨t, ht, hIt⟩ := hstep s a hI hok.1
      obtain ⟨s', hs', hI'⟩ := (hok.2 t ht).progress hstep hIt
      refine ⟨s', ?_, hI'⟩
      rw [List.foldlM_cons, ht, ok_bind]
      exact hs'

/-- Two runs side by side: the second one leaves actions out. A relation that survives the actions both
carry out, and those the first carries out alone, holds in the end. -/
theorem Along.filter_related {keep : α → Bool} {R : σ → σ → Prop}
    (hkeep : ∀ s t a, R s t → ok s a → keep a = true →
      ∃ s' t', step s a = .ok s' ∧ step t a = .ok t' ∧ R s' t')
    (hskip : ∀ s t a, R s t → ok s a → keep a = false → ∃ s', step s a = .ok s' ∧ R s' t) :
    ∀ {acts : List α} {s t : σ}, Along step ok s acts → R s t →
      ∃ s' t', acts.foldlM step s = .ok s' ∧ (acts.filter keep).foldlM step t = .ok t' ∧ R s' t'
  | [], s, t, _, hR => ⟨s, t, rfl, rfl, hR⟩
  | a :: acts, s, t, hok, hR => by
      rw [List.foldlM_cons]
      cases ha : keep a with
      | true =>
        obtain ⟨s₁, t₁, hs₁, ht₁, hR₁⟩ := hkeep s t a hR hok.1 ha
        obtain ⟨s', t', hs', ht', hR'⟩ := (hok.2 s₁ hs₁).filter_related hkeep hskip hR₁
        refine ⟨s', t', ?_, ?_, hR'⟩
        · rw [hs₁, ok_bind]
          exact hs'
        · rw [List.filter_cons_of_pos ha, List.foldlM_cons, ht₁, ok_bind]
          exact ht'
      | false =>
        obtain ⟨s₁, hs₁, hR₁⟩ := hskip s t a hR hok.1 ha
        obtain ⟨s', t', hs', ht', hR'⟩ := (hok.2 s₁ hs₁).filter_related hkeep hskip hR₁
        refine ⟨s', t', ?_, ?_, hR'⟩
        · rw [hs₁, ok_bind]
          exact hs'
        · rw [List.filter_cons_of_neg (by simp [ha])]
          exact ht'

/-- The state an action of the run meets. -/
theorem Along.split (hstep : ∀ s a, I s → ok s a → ∃ s', step s a = .ok s' ∧ I s') {s : σ} {acts : List α}
    (h : Along step ok s acts) (hI : I s) {pre post : List α} {a : α} (hacts : acts = pre ++ a :: post) :
    ∃ s', pre.foldlM step s = .ok s' ∧ I s' ∧ ok s' a := by
  subst hacts
  induction pre generalizing s with
  | nil => exact ⟨s, rfl, hI, h.1⟩
  | cons b pre ih =>
    obtain ⟨s₁, hs₁, hI₁⟩ := hstep s b hI h.1
    obtain ⟨s', hs', hI', hok⟩ := ih hI₁ (h.2 s₁ hs₁)
    refine ⟨s', ?_, hI', hok⟩
    rw [List.foldlM_cons, hs₁, ok_bind]
    exact hs'

end Along

/-- An invariant of a step relation is an invariant of its runs. -/
theorem star_invariant {r : σ → σ → Prop} {I : σ → Prop} (hstep : ∀ s t, r s t → I s → I t)
    {s t : σ} (h : Relation.ReflTransGen r s t) (hI : I s) : I t := by
  induction h with
  | refl => exact hI
  | tail _ hst ih => exact hstep _ _ hst ih

/-! ### Histories -/

/-- Every event of the log was admissible after the events before it. -/
def Hist (R : List ε → ε → Prop) (log : List ε) : Prop :=
  ∀ pre e post, log = pre ++ e :: post → R pre e

@[simp] theorem hist_nil {R : List ε → ε → Prop} : Hist R [] := by
  intro pre e post h
  simp at h

theorem hist_append {R : List ε → ε → Prop} {log es : List ε} :
    Hist R (log ++ es) ↔ Hist R log ∧ Hist (fun pre e => R (log ++ pre) e) es := by
  constructor
  · intro h
    refine ⟨?_, ?_⟩
    · rintro pre e post rfl
      exact h pre e (post ++ es) (by simp)
    · rintro pre e post rfl
      exact h (log ++ pre) e post (by simp)
  · rintro ⟨hlog, hes⟩ pre e post h
    rcases List.append_eq_append_iff.mp h with ⟨as, rfl, rfl⟩ | ⟨bs, rfl, hbs⟩
    · exact hes as e post rfl
    · cases bs with
      | nil => simpa using hes [] e post hbs.symm
      | cons b bs =>
          obtain ⟨rfl, -⟩ := List.cons.inj hbs
          exact hlog pre e bs rfl

@[simp] theorem hist_cons {R : List ε → ε → Prop} {e : ε} {es : List ε} :
    Hist R (e :: es) ↔ R [] e ∧ Hist (fun pre e' => R (e :: pre) e') es := by
  rw [← List.singleton_append, hist_append]
  refine and_congr_left fun _ => ⟨fun h => h [] e [] rfl, fun h pre e' post heq => ?_⟩
  cases pre with
  | nil =>
      obtain ⟨rfl, -⟩ := List.cons.inj heq
      exact h
  | cons a pre => simp at heq

/-- Events that are admissible whenever they happen. -/
theorem hist_of_forall {R : List ε → ε → Prop} {es : List ε} (h : ∀ pre, ∀ e ∈ es, R pre e) :
    Hist R es := by
  rintro pre e post rfl
  exact h pre e (by simp)

theorem hist_concat {R : List ε → ε → Prop} {log : List ε} {e : ε} :
    Hist R (log ++ [e]) ↔ Hist R log ∧ R log e := by
  rw [hist_append, hist_cons]
  simp

/-- **Exact invariants of runs.** Where an invariant survives an event exactly if a condition holds of the
event and of what came before it, it holds throughout a run exactly if every event met its condition. -/
theorem forall_initial_iff_hist {I : List ε → Prop} {R : List ε → ε → Prop} (hnil : I [])
    (hstep : ∀ pre e, I pre → (I (pre ++ [e]) ↔ R pre e)) (log : List ε) :
    (∀ pre, pre <+: log → I pre) ↔ Hist R log := by
  induction log using List.reverseRecOn with
  | nil => simpa using hnil
  | append_singleton log e ih =>
    rw [hist_concat, ← ih]
    constructor
    · intro h
      have hlog : ∀ pre, pre <+: log → I pre := fun pre hpre => h pre (hpre.trans (List.prefix_append ..))
      exact ⟨hlog, (hstep log e (hlog log (List.prefix_refl log))).mp (h _ (List.prefix_refl _))⟩
    · intro ⟨hlog, he⟩ pre hpre
      rcases List.prefix_concat_iff.mp hpre with heq | hpre
      · rw [heq]
        exact (hstep log e (hlog log (List.prefix_refl log))).mpr he
      · exact hlog pre hpre

/-- Two conditions that agree on an event, after events that keep an invariant. -/
theorem hist_iff_hist {I : List ε → Prop} {R S : List ε → ε → Prop} (hnil : I [])
    (hiff : ∀ pre e, I pre → (R pre e ↔ S pre e)) (hstep : ∀ pre e, I pre → S pre e → I (pre ++ [e]))
    (log : List ε) : Hist R log ↔ Hist S log := by
  suffices h : (Hist R log ↔ Hist S log) ∧ (Hist S log → I log) from h.1
  induction log using List.reverseRecOn with
  | nil => exact ⟨iff_of_true hist_nil hist_nil, fun _ => hnil⟩
  | append_singleton log e ih =>
    obtain ⟨hsame, hinv⟩ := ih
    rw [hist_concat, hist_concat, hsame]
    exact ⟨and_congr_right fun hlog => hiff log e (hinv hlog), fun h => hstep log e (hinv h.1) h.2⟩

end Goldfish.Lib
