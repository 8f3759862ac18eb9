import Goldfish.Lib.ArgvRules

/-!
# Goldfish.Process.QuoteParameter

Quoting the arguments of a Windows process (`Command_Windows.cpp`).

What `quoteParameter` makes of a parameter is read as this parameter (`readArgs_quoteParameter`),
unless it is empty: then nothing has to be quoted, and nothing is written. So the command
line has all the arguments exactly if none of them is empty (`arguments_round_trip_iff`).
-/

namespace Goldfish.Process

open Goldfish.Lib

/-- A `std::string`. -/
abbrev Text := List UInt8

/-- `s[n]` of a string, with the NUL that ends it. -/
def charOrNul (s : Text) (n : Nat) : UInt8 := s[n]?.getD 0

/-- How far a string goes in front of a NUL and the characters of `reject`. -/
def strcspn (s reject : Text) : Nat := (s.takeWhile fun c => c != 0 && !reject.contains c).length

/-- Space, tab, vertical tab, newline and the quote. -/
def problematic : Text := literal " \t\x0b\n\""

/-- The loop, on what is left of the parameter behind some backslashes. -/
def quoteLoop (num_backslashes : Nat) : Text → Text
  | [] => List.replicate (2 * num_backslashes) backslash
  | c :: cs =>
    if c = backslash then quoteLoop (num_backslashes + 1) cs
    else if c = 0 then List.replicate (2 * num_backslashes) backslash
    else if c = quotationMark then
      List.replicate (2 * num_backslashes) backslash ++ backslash :: quotationMark :: quoteLoop 0 cs
    else List.replicate num_backslashes backslash ++ c :: quoteLoop 0 cs

/-- `quoteParameter`: quotation marks come only where they are needed. -/
def quoteParameter (commandLine : Text) : Text :=
  if charOrNul commandLine (strcspn commandLine problematic) = 0 then commandLine
  else quotationMark :: quoteLoop 0 commandLine ++ [quotationMark]

/-- The command line of `createProcess`: a space behind every parameter, but not behind the last one. -/
def cmdline (args : List Text) : Text := (args.flatMap fun param => quoteParameter param ++ literal " ").dropLast

/-! ### Quoted parameters -/

/-- **The loop** writes the parameter so that it is read in a quoted part. -/
theorem readArgs_quoteLoop {s : Text} (hnul : 0 ∉ s) (k : Nat) (text rest : Text) :
    readArgs (some ⟨true, text, 0⟩) (quoteLoop k s ++ quotationMark :: rest) =
      readArgs (some ⟨false, text ++ List.replicate k backslash ++ s, 0⟩) rest := by
  induction s generalizing k text with
  | nil =>
    -- backslashes at the end are in front of the last quote
    rw [quoteLoop, (readArgs_quote true text k rest).1, List.append_nil]
    rfl
  | cons c cs ih =>
    rw [List.mem_cons, not_or] at hnul
    rw [quoteLoop]
    by_cases hbackslash : c = backslash
    · rw [if_pos hbackslash, ih hnul.2, hbackslash, List.replicate_succ', List.append_assoc, List.append_assoc,
        List.append_assoc, List.singleton_append]
    rw [if_neg hbackslash, if_neg (Ne.symm hnul.1)]
    by_cases hquote : c = quotationMark
    · rw [if_pos hquote, List.append_assoc, List.cons_append, List.cons_append, (readArgs_quote true text k _).2,
        ih hnul.2, List.replicate_zero, List.append_nil, hquote, List.append_assoc, List.singleton_append]
    · rw [if_neg hquote, List.append_assoc, List.cons_append, readArgs_backslashes, Nat.zero_add,
        readArgs_other (endsAt_quoted _ _ _) hbackslash hquote, ih hnul.2, List.replicate_zero, List.append_nil,
        OpenArg.arg, List.append_assoc, List.singleton_append]

theorem mem_problematic_of_isBlank {c : UInt8} (h : isBlank c = true) : c ∈ problematic := by
  rcases (Bool.or_eq_true _ _).mp h with hc | hc
  · rw [eq_of_beq hc]
    decide
  · rw [eq_of_beq hc]
    decide

/-- The search finds the end of the string if it has none of the characters. -/
theorem charOrNul_strcspn_iff {s : Text} (hnul : 0 ∉ s) (reject : Text) :
    charOrNul s (strcspn s reject) = 0 ↔ ∀ c ∈ s, c ∉ reject := by
  induction s with
  | nil => exact ⟨fun _ c hc => absurd hc List.not_mem_nil, fun _ => rfl⟩
  | cons c s ih =>
    rw [List.mem_cons, not_or] at hnul
    rw [List.forall_mem_cons, ← ih hnul.2, strcspn]
    by_cases hc : c ∈ reject
    · rw [List.takeWhile_cons_of_neg (by simp [hc]), List.length_nil]
      exact iff_of_false (fun h => hnul.1 h.symm) fun h => h.1 hc
    · rw [List.takeWhile_cons_of_pos (by simp [hc, Ne.symm hnul.1]), List.length_cons]
      exact (and_iff_right hc).symm

/-! ### Command lines -/

/-- **What is quoted is read.** The parameter is the next argument, if it is not empty. -/
theorem readArgs_quoteParameter {s : Text} (hnul : 0 ∉ s) (hne : s ≠ []) (rest : Text)
    (hrest : rest = [] ∨ ∃ c cs, isBlank c = true ∧ rest = c :: cs) :
    readArgs none (quoteParameter s ++ rest) = s :: readArgs none rest.tail := by
  -- an argument that is not quoted any more ends at the end of the line or at a blank
  have hend : ∀ a : OpenArg, a.quoted = false → readArgs (some a) rest = a.arg :: readArgs none rest.tail := by
    intro a ha
    rcases hrest with rfl | ⟨c, cs, hc, rfl⟩
    · rfl
    · exact readArgs_blank ha hc
  rw [quoteParameter]
  split
  · rename_i hplain
    rw [charOrNul_strcspn_iff hnul] at hplain
    have hblank : ∀ c ∈ s, isBlank c = false := fun c hc =>
      Bool.eq_false_iff.mpr fun h => hplain c hc (mem_problematic_of_isBlank h)
    obtain ⟨c, cs, rfl⟩ := List.exists_cons_of_ne_nil hne
    obtain ⟨a, ha, harg, hread⟩ := readArgs_plain (a := OpenArg.start) rfl (c :: cs) rest hblank
      fun hquote => hplain _ hquote (by decide)
    rw [List.cons_append, readArgs_start (hblank c List.mem_cons_self), ← List.cons_append, hread, hend a ha, harg]
    rfl
  · have hopen : OpenArg.start.take quotationMark = ⟨true, [], 0⟩ := rfl
    rw [List.cons_append, List.cons_append, List.append_assoc, List.singleton_append,
      readArgs_start (by decide), readArgs_take (endsAt_quotationMark _), hopen, readArgs_quoteLoop hnul,
      List.nil_append,
      hend _ rfl]
    exact congrArg (· :: _) (List.append_nil s)

theorem quoteParameter_nil : quoteParameter [] = [] := rfl

/-- The results for all the parameters, joined by single spaces. -/
def joined (args : List Text) : Text := (literal " ").intercalate (args.map quoteParameter)

theorem joined_single (a : Text) : joined [a] = quoteParameter a := List.intercalate_singleton

theorem joined_cons_cons (a b : Text) (args : List Text) :
    joined (a :: b :: args) = quoteParameter a ++ literal " " ++ joined (b :: args) :=
  List.intercalate_cons_cons

theorem cmdline_eq_joined (args : List Text) : cmdline args = joined args := by
  induction args with
  | nil => rfl
  | cons a args ih =>
    cases args with
    | nil => rw [joined_single, cmdline, List.flatMap_singleton, show literal " " = [32] from rfl,
      List.dropLast_concat]
    | cons b args =>
      rw [joined_cons_cons, ← ih, cmdline, cmdline, List.flatMap_cons, List.dropLast_append_of_ne_nil]
      rw [List.flatMap_cons]
      exact List.append_ne_nil_of_left_ne_nil (List.append_ne_nil_of_right_ne_nil _ (List.cons_ne_nil _ _)) _

/-- **Empty parameters are not read**, and all the others are. -/
theorem CommandLineToArgv_joined {args : List Text} (hnul : ∀ a ∈ args, 0 ∉ a) :
    CommandLineToArgv (joined args) = args.filter (· ≠ []) := by
  unfold CommandLineToArgv
  induction args with
  | nil => rfl
  | cons a args ih =>
    obtain ⟨ha, hargs⟩ := List.forall_mem_cons.mp hnul
    -- what is behind the parameter
    obtain ⟨rest, hjoined, hrest, hread⟩ : ∃ rest, joined (a :: args) = quoteParameter a ++ rest ∧
        (rest = [] ∨ ∃ c cs, isBlank c = true ∧ rest = c :: cs) ∧
          readArgs none rest.tail = readArgs none (joined args) := by
      cases args with
      | nil => exact ⟨[], by rw [joined_single, List.append_nil], .inl rfl, rfl⟩
      | cons b args =>
        exact ⟨literal " " ++ joined (b :: args), by rw [joined_cons_cons, List.append_assoc],
          .inr ⟨_, joined (b :: args), by decide, rfl⟩, rfl⟩
    rw [hjoined]
    by_cases hne : a = []
    · have hskip : readArgs none rest = readArgs none rest.tail := by
        rcases hrest with rfl | ⟨c, cs, hc, rfl⟩
        · rfl
        · rw [readArgs, if_pos hc, List.tail_cons]
      rw [hne, quoteParameter_nil, List.nil_append, hskip, hread, ih hargs, List.filter_cons_of_neg (by decide)]
    · have hkeep : decide (a ≠ []) = true := decide_eq_true hne
      rw [readArgs_quoteParameter ha hne rest hrest, hread, ih hargs]
      exact (List.filter_cons_of_pos (p := fun a => decide (a ≠ [])) hkeep).symm

/-- **The round trip** gives back the parameters exactly if none of them is empty. -/
theorem arguments_round_trip_iff (args : List Text) (hnul : ∀ a ∈ args, 0 ∉ a) :
    CommandLineToArgv (joined args) = args ↔ ∀ a ∈ args, a ≠ [] := by
  rw [CommandLineToArgv_joined hnul, List.filter_eq_self]
  simp

/-- Backslashes and quotes of all kinds. -/
def awkward : List Text :=
  [literal "emulator.exe", literal "a b\\", literal "c\\\"d", literal "\\\\server\\x", literal "\t\\\""]

theorem awkward_round_trip : (∀ a ∈ awkward, 0 ∉ a) ∧
    joined awkward =
      literal "emulator.exe \"a b\\\\\" \"c\\\\\\\"d\" \\\\server\\x \"\t\\\\\\\"\"" ∧
    CommandLineToArgv (joined awkward) = awkward := by
  have hnul : ∀ a ∈ awkward, 0 ∉ a := by decide
  exact ⟨hnul, by decide, (arguments_round_trip_iff awkward hnul).mpr (by decide)⟩

/-- The empty argument is lost. -/
theorem empty_argument_lost : CommandLineToArgv (joined [literal "adb", [], literal "shell"]) =
      [literal "adb", literal "shell"] ∧
    ¬ ∀ args : List Text, (∀ a ∈ args, 0 ∉ a) → CommandLineToArgv (joined args) = args := by
  have hlost : CommandLineToArgv (joined [literal "adb", [], literal "shell"]) =
      [literal "adb", literal "shell"] := by decide
  refine ⟨hlost, fun h => ?_⟩
  have hsame := h [literal "adb", [], literal "shell"] (by decide)
  rw [hlost] at hsame
  exact absurd hsame (by decide)

end Goldfish.Process
