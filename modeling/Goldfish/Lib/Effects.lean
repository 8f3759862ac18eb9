import Goldfish.Lib.Trace

/-!
# Goldfish.Lib.Effects

**Programs that call on an environment**, over arbitrary events, failures and results.

A program is given the events that have happened so far and adds its own; what the
environment answers is a function of this history (`ask`), so a program for all answers
is a program for every behaviour of the environment. A program may fail, and what it
did by then stays done.

`Safe R m log Q` is the judgement on a program: every event it adds is admissible (`R`)
after the events before it, and where it returns a value, `Q` holds of this value and of
the history then. There is one rule for each construct.
-/

namespace Goldfish.Lib

/-- A program: the outcome and the events it adds to the history. -/
def Prog (ω ε α : Type) : Type := List ω → Except ε α × List ω

namespace Prog

variable {ω ε α β : Type}

/-- Fails. -/
def fail (e : ε) : Prog ω ε α := fun _ => (.error e, [])

/-- Asks the environment and records the answer. -/
def ask (answer : List ω → β) (event : β → ω) : Prog ω ε β := fun log => (.ok (answer log), [event (answer log)])

/-- Runs a program and, unless it fails, the one that its result selects. -/
def andThen (m : Prog ω ε α) (f : α → Prog ω ε β) : Prog ω ε β := fun log =>
  match m log with
  | (.error e, es) => (.error e, es)
  | (.ok a, es) => ((f a (log ++ es)).1, es ++ (f a (log ++ es)).2)

instance instMonad : Monad (Prog ω ε) where
  pure a := fun _ => (.ok a, [])
  bind := andThen

/-! ### How programs run -/

theorem pure_run (a : α) (log : List ω) : (pure a : Prog ω ε α) log = (.ok a, []) := rfl

theorem bind_run_error {m : Prog ω ε α} {f : α → Prog ω ε β} {log es : List ω} {e : ε}
    (h : m log = (.error e, es)) : (m >>= f) log = (.error e, es) := by
  show andThen m f log = _
  rw [andThen, h]

theorem bind_run_ok {m : Prog ω ε α} {f : α → Prog ω ε β} {log es : List ω} {a : α}
    (h : m log = (.ok a, es)) :
    (m >>= f) log = ((f a (log ++ es)).1, es ++ (f a (log ++ es)).2) := by
  show andThen m f log = _
  rw [andThen, h]

theorem bind_assoc {γ : Type} (m : Prog ω ε α) (f : α → Prog ω ε β) (g : β → Prog ω ε γ) :
    (m >>= f >>= g) = m >>= fun a => f a >>= g := by
  funext log
  cases hm : m log with
  | mk outcome es =>
    cases outcome with
    | error e => rw [bind_run_error hm, bind_run_error (bind_run_error hm)]
    | ok a =>
      rw [bind_run_ok hm]
      cases hf : f a (log ++ es) with
      | mk outcome' es' =>
        have hbind := bind_run_ok (f := f) hm
        rw [hf] at hbind
        cases outcome' with
        | error e => rw [bind_run_error hbind, bind_run_error hf]
        | ok b => rw [bind_run_ok hbind, bind_run_ok hf, List.append_assoc, List.append_assoc]

/-! ### Safety -/

/-- Every event is admissible, and the postcondition holds of what is returned. -/
def Safe (R : List ω → ω → Prop) (m : Prog ω ε α) (log : List ω) (Q : α → List ω → Prop) : Prop :=
  Hist (fun pre e => R (log ++ pre) e) (m log).2 ∧ ∀ a, (m log).1 = .ok a → Q a (log ++ (m log).2)

variable {R : List ω → ω → Prop} {log : List ω} {Q : α → List ω → Prop}

theorem safe_pure {a : α} (h : Q a log) : Safe R (pure a : Prog ω ε α) log Q := by
  refine ⟨hist_nil, fun b hb => ?_⟩
  obtain rfl := Except.ok.inj hb
  simpa [pure_run] using h

theorem safe_fail {e : ε} : Safe R (fail e : Prog ω ε α) log Q :=
  ⟨hist_nil, fun _ h => nomatch h⟩

/-- The answer of one environment. -/
theorem safe_answer {answer : List ω → α} {event : α → ω} (hR : R log (event (answer log)))
    (hQ : Q (answer log) (log ++ [event (answer log)])) : Safe R (ask answer event : Prog ω ε α) log Q := by
  refine ⟨?_, fun a ha => ?_⟩
  · show Hist _ [event (answer log)]
    simpa using hR
  · obtain rfl := Except.ok.inj ha
    exact hQ

/-- Whatever the environment answers. -/
theorem safe_ask {answer : List ω → α} {event : α → ω} (hR : ∀ a, R log (event a))
    (hQ : ∀ a, Q a (log ++ [event a])) : Safe R (ask answer event : Prog ω ε α) log Q :=
  safe_answer (hR _) (hQ _)

theorem safe_bind {m : Prog ω ε α} {f : α → Prog ω ε β} {S : β → List ω → Prop} (hm : Safe R m log Q)
    (hf : ∀ a log', Q a log' → Safe R (f a) log' S) : Safe R (m >>= f) log S := by
  obtain ⟨hhist, hpost⟩ := hm
  cases hrun : m log with
  | mk outcome es =>
    rw [hrun] at hhist hpost
    cases outcome with
    | error e =>
      rw [Safe, bind_run_error hrun]
      exact ⟨hhist, fun _ h => nomatch h⟩
    | ok a =>
      obtain ⟨hhist', hpost'⟩ := hf a (log ++ es) (hpost a rfl)
      rw [Safe, bind_run_ok hrun]
      refine ⟨?_, fun b hb => ?_⟩
      · simp only [List.append_assoc] at hhist'
        exact hist_append.mpr ⟨hhist, hhist'⟩
      · have hb' := hpost' b hb
        rwa [List.append_assoc] at hb'

/-- A call and what follows it, whatever the environment answers. -/
theorem safe_ask_bind {answer : List ω → α} {event : α → ω} {f : α → Prog ω ε β} {S : β → List ω → Prop}
    (hR : ∀ a, R log (event a)) (hf : ∀ a, Safe R (f a) (log ++ [event a]) S) :
    Safe R (ask answer event >>= f) log S := by
  refine safe_bind (Q := fun a log' => log' = log ++ [event a]) (safe_ask hR fun _ => rfl) ?_
  intro a log' hlog
  rw [hlog]
  exact hf a

theorem safe_ite {c : Prop} [Decidable c] {m n : Prog ω ε α} (hm : c → Safe R m log Q)
    (hn : ¬ c → Safe R n log Q) : Safe R (if c then m else n) log Q := by
  split
  · exact hm ‹_›
  · exact hn ‹_›

theorem Safe.mono {m : Prog ω ε α} {S : α → List ω → Prop} (h : Safe R m log Q)
    (hQ : ∀ a log', Q a log' → S a log') : Safe R m log S :=
  ⟨h.1, fun a ha => hQ a _ (h.2 a ha)⟩

/-- The history only grows. -/
theorem Safe.grows {m : Prog ω ε α} (h : Safe R m log Q) :
    Safe R m log fun a log' => Q a log' ∧ log <+: log' :=
  ⟨h.1, fun a ha => ⟨h.2 a ha, List.prefix_append log _⟩⟩

/-- A loop whose turns keep an invariant. -/
theorem safe_foldlM {γ : Type} {f : α → γ → Prog ω ε α} :
    ∀ {cs : List γ} {a : α} {log : List ω}, Q a log →
      (∀ c ∈ cs, ∀ a log', Q a log' → Safe R (f a c) log' Q) → Safe R (cs.foldlM f a) log Q
  | [], _, _, h, _ => by
      rw [List.foldlM_nil]
      exact safe_pure h
  | c :: cs, a, log, h, hf => by
      rw [List.foldlM_cons]
      refine safe_bind (hf c List.mem_cons_self a log h) fun a' log' h' => ?_
      exact safe_foldlM h' fun d hd => hf d (List.mem_cons_of_mem c hd)

/-! ### What a program adds -/

/-- A property of events that are put together. -/
structure Additive (P : List ω → Prop) : Prop where
  nil : P []
  append : ∀ {es es' : List ω}, P es → P es' → P (es ++ es')

/-- The events that are added have the property, whatever happened before. -/
def Logs (P : List ω → Prop) (m : Prog ω ε α) : Prop := ∀ log, P (m log).2

section Logs

variable {P : List ω → Prop}

theorem logs_pure (hP : Additive P) (a : α) : Logs P (pure a : Prog ω ε α) := fun _ => hP.nil

theorem logs_fail (hP : Additive P) (e : ε) : Logs P (fail e : Prog ω ε α) := fun _ => hP.nil

theorem logs_ask {answer : List ω → α} {event : α → ω} (h : ∀ a, P [event a]) :
    Logs P (ask answer event : Prog ω ε α) := fun log => h (answer log)

theorem logs_bind (hP : Additive P) {m : Prog ω ε α} {f : α → Prog ω ε β} (hm : Logs P m)
    (hf : ∀ a, Logs P (f a)) : Logs P (m >>= f) := by
  intro log
  have hfirst := hm log
  cases hrun : m log with
  | mk outcome es =>
    rw [hrun] at hfirst
    cases outcome with
    | error e =>
      rw [bind_run_error hrun]
      exact hfirst
    | ok a =>
      rw [bind_run_ok hrun]
      exact hP.append hfirst (hf a (log ++ es))

theorem logs_ite {c : Prop} [Decidable c] {m n : Prog ω ε α} (hm : Logs P m) (hn : Logs P n) :
    Logs P (if c then m else n) := by
  split
  · exact hm
  · exact hn

end Logs

end Prog

end Goldfish.Lib
