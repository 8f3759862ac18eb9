import Goldfish.Lib.CStrings
import Goldfish.Lib.Repeats

/-!
# Goldfish.Logging.NoDuplicateLines

Log lines without repetitions (`NoDuplicateLinesFormatter` in `LogFormatter.cpp`), in front
of any formatter that is a function of its arguments.

The formatter counts repetitions (`formatAll_eq`) and spells what it reports in three ways,
so a reader who is told which way a result is spelled gets all lines back. The text alone
tells that too if no line is empty, has a newline or looks counted (`expand_spell`); with
others two logs may have the same results (`same_results`).
-/

namespace Goldfish.Logging

open Goldfish.Lib

/-- A line of the log. -/
abbrev Text := List UInt8

variable {LogParams : Type}

/-- `NoDuplicateLinesFormatter`, with the last line and how often it came again. -/
structure NoDuplicateLinesFormatter (LogParams : Type) where
  mPrevParams : LogParams
  mPrevLogLine : Text
  mDuplicates : Nat
  deriving DecidableEq, Repr

/-- `%d`. -/
def printed (n : Nat) : Text := (Nat.toDigits 10 n).map Char.toUInt8

/-- `%s\n%s` and `%s (%dx)\n%s`, or the line alone. -/
def spell (prev : Text) : (duplicates : Nat) → Text → Text
  | 0, line => line
  | 1, line => prev ++ literal "\n" ++ line
  | duplicates, line => prev ++ literal " (" ++ printed duplicates ++ literal "x)\n" ++ line

namespace NoDuplicateLinesFormatter

variable [BEq LogParams] (mInner : LogParams → Text → Text)

/-- `format`. -/
def format (s : NoDuplicateLinesFormatter LogParams) (params : LogParams) (line : Text) :
    NoDuplicateLinesFormatter LogParams × Text :=
  if s.mPrevParams == params && s.mPrevLogLine == line then ({ s with mDuplicates := s.mDuplicates + 1 }, [])
  else (⟨params, line, 0⟩, spell (mInner s.mPrevParams s.mPrevLogLine) s.mDuplicates (mInner params line))

/-- Calls of `format` one after another. -/
def formatAll (s : NoDuplicateLinesFormatter LogParams) :
    List (LogParams × Text) → NoDuplicateLinesFormatter LogParams × List Text
  | [] => (s, [])
  | (params, line) :: rest =>
    let formatted := s.format mInner params line
    let others := formatted.1.formatAll rest
    (others.1, formatted.2 :: others.2)

end NoDuplicateLinesFormatter

/-! ### Reading the results -/

/-- The end of a line. -/
def newline : UInt8 := '\n'.toUInt8

/-- All that a formatter spells, in front of each its line before. -/
def spellAll (prev : Text) : List (Nat × Text) → List Text
  | [] => []
  | (duplicates, line) :: items => spell prev duplicates line :: spellAll line items

/-- `X (kx)`. -/
def counted (prev : Text) (duplicates : Nat) : Text := prev ++ literal " (" ++ printed duplicates ++ literal "x)"

/-- `X` and `k`, if the text is `X (kx)`. -/
def splitCount (text : Text) : Option (Text × Nat) :=
  let behind := text.reverse.drop 2
  let duplicates := decimal (behind.takeWhile isdigit).reverse
  let prev := ((behind.dropWhile isdigit).drop 2).reverse
  if text = counted prev duplicates ∧ 2 ≤ duplicates then some (prev, duplicates) else none

/-- The lines that a result stands for, by its text. -/
def expand (result : Text) : List Text :=
  match result.dropWhile (· != newline) with
  | [] => [result]
  | _ :: line =>
    match splitCount (result.takeWhile (· != newline)) with
    | some (prev, duplicates) => List.replicate duplicates prev ++ [line]
    | none => [result.takeWhile (· != newline), line]

/-- A line of which the reader cannot think that it is a result with repetitions, or none. -/
structure Plain (line : Text) : Prop where
  ne : line ≠ []
  single : newline ∉ line
  uncounted : splitCount line = none

theorem isdigit_printed {n : Nat} : ∀ c ∈ printed n, isdigit c = true := fun _ hc => isdigit_toDigits hc

theorem splitCount_counted (prev : Text) {duplicates : Nat} (h : 2 ≤ duplicates) :
    splitCount (counted prev duplicates) = some (prev, duplicates) := by
  have hbehind : (counted prev duplicates).reverse.drop 2 =
      (printed duplicates).reverse ++ 40 :: 32 :: prev.reverse := by
    rw [counted, List.reverse_append, List.reverse_append, List.reverse_append]
    rfl
  have hdigits : ∀ c ∈ (printed duplicates).reverse, isdigit c = true := fun c hc =>
    isdigit_printed c (List.mem_reverse.mp hc)
  have hstart : Starts isdigit (40 :: 32 :: prev.reverse) := starts_cons.mpr (by decide)
  have hvalue : decimal (printed duplicates) = duplicates := decimal_toDigits duplicates
  unfold splitCount
  dsimp only
  rw [hbehind, takeWhile_append_starts hdigits hstart, dropWhile_append_starts hdigits hstart, List.reverse_reverse,
    hvalue, List.drop_succ_cons, List.drop_succ_cons, List.drop_zero, List.reverse_reverse, if_pos ⟨rfl, h⟩]

section Cut

variable {first line : Text}

theorem takeWhile_newline (h : newline ∉ first) :
    (first ++ newline :: line).takeWhile (· != newline) = first :=
  takeWhile_append_starts (fun c hc => bne_iff_ne.mpr fun heq => h (heq ▸ hc)) (starts_cons.mpr (by decide))

theorem dropWhile_newline (h : newline ∉ first) :
    (first ++ newline :: line).dropWhile (· != newline) = newline :: line :=
  dropWhile_append_starts (fun c hc => bne_iff_ne.mpr fun heq => h (heq ▸ hc)) (starts_cons.mpr (by decide))

theorem expand_single (h : newline ∉ line) : expand line = [line] := by
  have hdrop : line.dropWhile (· != newline) = [] :=
    List.dropWhile_eq_nil_iff.mpr fun c hc => bne_iff_ne.mpr fun heq => h (heq ▸ hc)
  rw [expand, hdrop]

/-- **Reading a result**: it stands for the repetitions of the line before, and the new line. -/
theorem expand_spell {prev : Text} {duplicates : Nat} (hprev : duplicates ≠ 0 → Plain prev) (hline : newline ∉ line) :
    expand (spell prev duplicates line) = List.replicate duplicates prev ++ [line] := by
  match duplicates with
  | 0 => exact expand_single hline
  | 1 =>
    have h := hprev Nat.one_ne_zero
    have hspell : spell prev 1 line = prev ++ newline :: line := by
      rw [spell, List.append_assoc]
      rfl
    rw [hspell, expand, dropWhile_newline h.single, takeWhile_newline h.single, h.uncounted]
    rfl
  | k + 2 =>
    have h := hprev (Nat.succ_ne_zero _)
    have hspell : spell prev (k + 2) line = counted prev (k + 2) ++ newline :: line := by
      rw [counted, List.append_assoc _ (literal "x)")]
      exact List.append_assoc _ (literal "x)\n") line
    have hfirst : newline ∉ counted prev (k + 2) := by
      rw [counted, List.mem_append, List.mem_append, List.mem_append]
      rintro (((hc | hc) | hc) | hc)
      · exact h.single hc
      · exact absurd hc (by decide)
      · exact absurd (isdigit_printed _ hc) (by decide)
      · exact absurd hc (by decide)
    rw [hspell, expand, dropWhile_newline hfirst, takeWhile_newline hfirst, splitCount_counted prev (by omega)]

end Cut

/-- Results with plain lines are read as what they report. -/
theorem expand_spellAll {prev : Text} {items : List (Nat × Text)} (h : ∀ line ∈ copies prev items, Plain line) :
    (spellAll prev items).flatMap expand = copies prev items := by
  induction items generalizing prev with
  | nil => rfl
  | cons item items ih =>
    obtain ⟨duplicates, line⟩ := item
    rw [copies, List.forall_mem_append, List.forall_mem_cons] at h
    have hprev : duplicates ≠ 0 → Plain prev := fun hne => h.1 prev (List.mem_replicate.mpr ⟨hne, rfl⟩)
    rw [spellAll, List.flatMap_cons, expand_spell hprev h.2.1.single, ih h.2.2, copies, List.append_assoc,
      List.singleton_append]

/-! ### What the formatter reports -/

namespace NoDuplicateLinesFormatter

variable [BEq LogParams] {mInner : LogParams → Text → Text} {s : NoDuplicateLinesFormatter LogParams}

/-- The parameters and the line that the formatter compares with. -/
def last (s : NoDuplicateLinesFormatter LogParams) : LogParams × Text := (s.mPrevParams, s.mPrevLogLine)

/-- The same line with the same parameters. -/
def same (x y : LogParams × Text) : Bool := x.1 == y.1 && x.2 == y.2

/-- The formatted lines of a log. -/
def formattedLines (mInner : LogParams → Text → Text) (log : List (LogParams × Text)) : List Text :=
  log.map fun entry => mInner entry.1 entry.2

/-- Results that are not empty. -/
def reported (results : List Text) : List Text := results.filter (· ≠ [])

theorem reported_nil_cons (results : List Text) : reported ([] :: results) = reported results :=
  List.filter_cons_of_neg (by decide)

theorem reported_cons {result : Text} (h : result ≠ []) (results : List Text) :
    reported (result :: results) = result :: reported results :=
  List.filter_cons_of_pos (decide_eq_true h)

/-- The repetitions that are counted and not reported yet. -/
def waiting (mInner : LogParams → Text → Text) (s : NoDuplicateLinesFormatter LogParams) : List Text :=
  List.replicate s.mDuplicates (mInner s.mPrevParams s.mPrevLogLine)

theorem format_same {params : LogParams} {line : Text} (h : same s.last (params, line) = true) :
    s.format mInner params line = ({ s with mDuplicates := s.mDuplicates + 1 }, []) := if_pos h

theorem format_new {params : LogParams} {line : Text} (h : ¬ same s.last (params, line) = true) :
    s.format mInner params line =
      (⟨params, line, 0⟩, spell (mInner s.mPrevParams s.mPrevLogLine) s.mDuplicates (mInner params line)) := if_neg h

theorem spell_ne_nil {prev line : Text} {duplicates : Nat} (hline : line ≠ []) : spell prev duplicates line ≠ [] := by
  match duplicates with
  | 0 => exact hline
  | 1 => exact List.append_ne_nil_of_right_ne_nil _ hline
  | _ + 2 => exact List.append_ne_nil_of_right_ne_nil _ hline

/-- **The formatter counts repetitions**: it is left with those it has not reported, and has spelled the
others. -/
theorem formatAll_eq (mInner : LogParams → Text → Text) (s : NoDuplicateLinesFormatter LogParams)
    (log : List (LogParams × Text)) :
    ((s.formatAll mInner log).1.last, (s.formatAll mInner log).1.mDuplicates) =
        (repeats same s.last s.mDuplicates log).2 ∧
      ((∀ line ∈ formattedLines mInner log, line ≠ []) →
        reported (s.formatAll mInner log).2 = spellAll (mInner s.mPrevParams s.mPrevLogLine)
          ((repeats same s.last s.mDuplicates log).1.map fun item => (item.1, mInner item.2.1 item.2.2))) := by
  induction log generalizing s with
  | nil => exact ⟨rfl, fun _ => rfl⟩
  | cons entry log ih =>
    obtain ⟨params, line⟩ := entry
    rw [repeats, formatAll]
    by_cases h : same s.last (params, line) = true
    · obtain ⟨hleft, hreports⟩ := ih { s with mDuplicates := s.mDuplicates + 1 }
      rw [if_pos h, format_same h]
      refine ⟨hleft, fun hne => ?_⟩
      rw [reported_nil_cons]
      exact hreports fun line hline => hne line (List.mem_cons_of_mem _ hline)
    · obtain ⟨hleft, hreports⟩ := ih ⟨params, line, 0⟩
      rw [if_neg h, format_new h]
      refine ⟨hleft, fun hne => ?_⟩
      obtain ⟨hfirst, hrest⟩ := List.forall_mem_cons.mp hne
      dsimp only
      rw [reported_cons (spell_ne_nil hfirst), List.map_cons, spellAll]
      exact congrArg (spell _ _ _ :: ·) (hreports hrest)

/-- **Nothing is lost.** If no formatted line is empty, the results that are not empty spell repetitions of the
line before and a new line, and these are the lines of the log except for the repetitions that wait. If each
line is plain, that is how the texts of the results are read. -/
theorem nothing_lost (hpure : ∀ p q : LogParams, (p == q) = true → ∀ line, mInner p line = mInner q line)
    (s : NoDuplicateLinesFormatter LogParams) (hnew : s.mDuplicates = 0) (log : List (LogParams × Text)) :
    ((∀ line ∈ formattedLines mInner log, line ≠ []) →
      ∃ items : List (Nat × Text),
        reported (s.formatAll mInner log).2 = spellAll (mInner s.mPrevParams s.mPrevLogLine) items ∧
          copies (mInner s.mPrevParams s.mPrevLogLine) items ++ waiting mInner (s.formatAll mInner log).1 =
            formattedLines mInner log) ∧
      ((∀ line ∈ formattedLines mInner log, Plain line) →
        (reported (s.formatAll mInner log).2).flatMap expand ++ waiting mInner (s.formatAll mInner log).1 =
          formattedLines mInner log) := by
  obtain ⟨hleft, hreports⟩ := formatAll_eq mInner s log
  have hsame : ∀ x y : LogParams × Text, same x y = true → mInner x.1 x.2 = mInner y.1 y.2 := by
    intro x y h
    obtain ⟨hparams, hline⟩ := (Bool.and_eq_true _ _).mp h
    rw [eq_of_beq hline, hpure _ _ hparams]
  have hcopies : copies (mInner s.mPrevParams s.mPrevLogLine)
      ((repeats same s.last 0 log).1.map fun item => (item.1, mInner item.2.1 item.2.2)) ++
        waiting mInner (s.formatAll mInner log).1 = formattedLines mInner log := by
    have h := copies_repeats hsame s.last s.mDuplicates log
    rw [← hleft, hnew, List.replicate_zero, List.nil_append] at h
    exact h
  rw [hnew] at hreports
  constructor
  · intro hne
    exact ⟨_, hreports hne, hcopies⟩
  · intro hplain
    rw [hreports fun line hline => (hplain line hline).ne, expand_spellAll, hcopies]
    intro line hline
    refine hplain line ?_
    rw [← hcopies]
    exact List.mem_append_left _ hline

/-! ### Two logs with the same results -/

end NoDuplicateLinesFormatter

/-- The levels of the log. -/
inductive LogSeverity where
  | EMULATOR_LOG_VERBOSE
  | EMULATOR_LOG_DEBUG
  | EMULATOR_LOG_INFO
  | EMULATOR_LOG_WARNING
  | EMULATOR_LOG_ERROR
  | EMULATOR_LOG_FATAL
  deriving DecidableEq, Repr

/-- `translate_sev`: the name of a level, padded. -/
def translate_sev : LogSeverity → Text
  | .EMULATOR_LOG_VERBOSE => literal "VERBOSE"
  | .EMULATOR_LOG_DEBUG => literal "DEBUG  "
  | .EMULATOR_LOG_INFO => literal "INFO   "
  | .EMULATOR_LOG_WARNING => literal "WARNING"
  | .EMULATOR_LOG_ERROR => literal "ERROR  "
  | .EMULATOR_LOG_FATAL => literal "FATAL  "

/-- `SimpleLogFormatter::format`, which uses nothing but the severity of the parameters. -/
def SimpleLogFormatter.format (severity : LogSeverity) (line : Text) : Text :=
  translate_sev severity ++ literal " | " ++ line

namespace NoDuplicateLinesFormatter

/-- Four times the same line, and another one. -/
def quadruple : List (LogSeverity × Text) :=
  List.replicate 4 (.EMULATOR_LOG_INFO, literal "Hello World") ++ [(.EMULATOR_LOG_INFO, literal "x")]

theorem nothing_lost_quadruple :
    (formatAll SimpleLogFormatter.format ⟨.EMULATOR_LOG_VERBOSE, [], 0⟩ quadruple).2 =
        [literal "INFO    | Hello World", [], [], [], literal "INFO    | Hello World (3x)\nINFO    | x"] ∧
      (∀ line ∈ formattedLines SimpleLogFormatter.format quadruple, Plain line) ∧
      (reported (formatAll SimpleLogFormatter.format ⟨.EMULATOR_LOG_VERBOSE, [], 0⟩ quadruple).2).flatMap expand ++
          waiting SimpleLogFormatter.format
            (formatAll SimpleLogFormatter.format ⟨.EMULATOR_LOG_VERBOSE, [], 0⟩ quadruple).1 =
        formattedLines SimpleLogFormatter.format quadruple := by
  have hpure : ∀ p q : LogSeverity, (p == q) = true →
      ∀ line, SimpleLogFormatter.format p line = SimpleLogFormatter.format q line := by
    intro p q h line
    rw [eq_of_beq h]
  have hplain : ∀ line ∈ formattedLines SimpleLogFormatter.format quadruple, Plain line := by
    intro line hline
    have hcases : line = SimpleLogFormatter.format .EMULATOR_LOG_INFO (literal "Hello World") ∨
        line = SimpleLogFormatter.format .EMULATOR_LOG_INFO (literal "x") := by
      simpa [formattedLines, quadruple, or_assoc] using hline
    rcases hcases with rfl | rfl
    · exact ⟨by decide, by decide, by decide⟩
    · exact ⟨by decide, by decide, by decide⟩
  exact ⟨by decide, hplain, (nothing_lost hpure _ rfl quadruple).2 hplain⟩

/-- A line that is logged twice and another one, or a line that goes on behind a newline as the other one. -/
def twice : List (LogSeverity × Text) :=
  [(.EMULATOR_LOG_INFO, literal "Hello World"), (.EMULATOR_LOG_INFO, literal "Hello World"),
    (.EMULATOR_LOG_INFO, literal "x")]

/-- Two lines, where the second goes on like a line of its own. -/
def goesOn : List (LogSeverity × Text) :=
  [(.EMULATOR_LOG_INFO, literal "Hello World"), (.EMULATOR_LOG_INFO, literal "Hello World\nINFO    | x")]

/-- The results are the same, so there is no way to expand them right; and a formatter of which the line is
empty reports nothing. -/
theorem same_results :
    (¬ ∃ expanding : List Text → List Text, ∀ (s : NoDuplicateLinesFormatter LogSeverity) log,
      s.mDuplicates = 0 → (∀ entry ∈ log.head?, same s.last entry = false) →
        expanding (reported (s.formatAll SimpleLogFormatter.format log).2) ++
            waiting SimpleLogFormatter.format (s.formatAll SimpleLogFormatter.format log).1 =
          formattedLines SimpleLogFormatter.format log) ∧
      (reported (formatAll (fun _ line => line) ⟨(), [97], 0⟩ [((), []), ((), [98])]).2 = [[98]] ∧
        formattedLines (fun _ line => line) [((), []), ((), [98])] = [[], [98]]) := by
  refine ⟨?_, by decide, by decide⟩
  intro ⟨expanding, h⟩
  have htwice := h ⟨.EMULATOR_LOG_VERBOSE, [], 0⟩ twice rfl (by decide)
  have hgoesOn := h ⟨.EMULATOR_LOG_VERBOSE, [], 0⟩ goesOn rfl (by decide)
  have hresults : reported (formatAll SimpleLogFormatter.format ⟨.EMULATOR_LOG_VERBOSE, [], 0⟩ twice).2 =
      reported (formatAll SimpleLogFormatter.format ⟨.EMULATOR_LOG_VERBOSE, [], 0⟩ goesOn).2 := by decide
  rw [hresults] at htwice
  exact absurd (htwice.symm.trans hgoesOn) (by decide)

end NoDuplicateLinesFormatter

end Goldfish.Logging
