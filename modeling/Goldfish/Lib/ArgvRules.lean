import Goldfish.Lib.CStrings

/-!
# Goldfish.Lib.ArgvRules

The documented rules of **`CommandLineToArgvW`** for what is behind the name of the program.
Blanks and tabs outside of quotes separate arguments. Backslashes stand for themselves
unless a quote is behind them: then two of them stand for one, and the quote is taken as it
is if one is left over, and else begins or ends a quoted part.

`readArgs` reads a line from the left, in front of an argument or inside of one. What plain
characters (`readArgs_plain`), a run of backslashes (`readArgs_backslashes`) and quotes
(`readArgs_quote`) do to it is all that a proof about a writer needs.
-/

namespace Goldfish.Lib

/-- What may escape a quotation mark. -/
def backslash : UInt8 := '\\'.toUInt8

/-- What an argument with blanks stands between. -/
def quotationMark : UInt8 := '"'.toUInt8

/-- What ends an argument. -/
def isBlank (c : UInt8) : Bool := c == ' '.toUInt8 || c == '\t'.toUInt8

/-- An argument as far as it is read: backslashes wait for what is behind them. -/
structure OpenArg where
  quoted : Bool
  text : List UInt8
  backslashes : Nat
  deriving DecidableEq, Repr

namespace OpenArg

/-- An argument of which nothing has been read. -/
def start : OpenArg := ⟨false, [], 0⟩

/-- The argument, if it ends here. -/
def arg (a : OpenArg) : List UInt8 := a.text ++ List.replicate a.backslashes backslash

/-- The argument ends in front of this character. -/
def endsAt (a : OpenArg) (c : UInt8) : Bool := isBlank c && !a.quoted

/-- One more character of the argument. -/
def take (a : OpenArg) (c : UInt8) : OpenArg :=
  if c = backslash then { a with backslashes := a.backslashes + 1 }
  else if c = quotationMark then
    if a.backslashes % 2 = 0 then ⟨!a.quoted, a.text ++ List.replicate (a.backslashes / 2) backslash, 0⟩
    else ⟨a.quoted, a.text ++ List.replicate (a.backslashes / 2) backslash ++ [quotationMark], 0⟩
  else ⟨a.quoted, a.arg ++ [c], 0⟩

end OpenArg

/-- The arguments of a line, the first of which may have begun. -/
def readArgs : Option OpenArg → List UInt8 → List (List UInt8)
  | none, [] => []
  | some a, [] => [a.arg]
  | none, c :: cs => if isBlank c then readArgs none cs else readArgs (some (OpenArg.start.take c)) cs
  | some a, c :: cs => if a.endsAt c then a.arg :: readArgs none cs else readArgs (some (a.take c)) cs

/-- The arguments of a command line. -/
def CommandLineToArgv (line : List UInt8) : List (List UInt8) := readArgs none line

section Read

variable {a : OpenArg} {c : UInt8} {rest : List UInt8}

/-- A quoted part has no end. -/
theorem endsAt_quoted (text : List UInt8) (k : Nat) (c : UInt8) : OpenArg.endsAt ⟨true, text, k⟩ c = false :=
  Bool.and_false _

theorem endsAt_backslash (a : OpenArg) : a.endsAt backslash = false := rfl

theorem endsAt_quotationMark (a : OpenArg) : a.endsAt quotationMark = false := rfl

/-- The first character of an argument. -/
theorem readArgs_start (h : isBlank c = false) (rest : List UInt8) :
    readArgs none (c :: rest) = readArgs (some OpenArg.start) (c :: rest) := by
  have hends : OpenArg.start.endsAt c = false := by rw [OpenArg.endsAt, h, Bool.false_and]
  rw [readArgs, readArgs, h, hends]
  rfl

theorem readArgs_take (h : a.endsAt c = false) : readArgs (some a) (c :: rest) = readArgs (some (a.take c)) rest := by
  rw [readArgs, h]
  rfl

/-- **Backslashes wait.** -/
theorem readArgs_backslashes (a : OpenArg) (k : Nat) (rest : List UInt8) :
    readArgs (some a) (List.replicate k backslash ++ rest) =
      readArgs (some { a with backslashes := a.backslashes + k }) rest := by
  induction k generalizing a with
  | zero => rfl
  | succ k ih =>
    have htake : a.take backslash = { a with backslashes := a.backslashes + 1 } := if_pos rfl
    rw [List.replicate_succ, List.cons_append, readArgs_take (endsAt_backslash a), htake, ih, Nat.add_assoc,
      Nat.add_comm 1 k]

/-- **A quote behind backslashes**, an even number of them or an odd one. -/
theorem readArgs_quote (quoted : Bool) (text : List UInt8) (k : Nat) (rest : List UInt8) :
    readArgs (some ⟨quoted, text, 0⟩) (List.replicate (2 * k) backslash ++ quotationMark :: rest) =
        readArgs (some ⟨!quoted, text ++ List.replicate k backslash, 0⟩) rest ∧
      readArgs (some ⟨quoted, text, 0⟩) (List.replicate (2 * k) backslash ++ backslash :: quotationMark :: rest) =
        readArgs (some ⟨quoted, text ++ List.replicate k backslash ++ [quotationMark], 0⟩) rest := by
  constructor
  · have hdiv : 2 * k / 2 = k := by omega
    rw [readArgs_backslashes, Nat.zero_add, readArgs_take (endsAt_quotationMark _), OpenArg.take,
      if_neg (by decide), if_pos rfl, if_pos (by simp), hdiv]
  · have hdiv : (2 * k + 1) / 2 = k := by omega
    have htake : (⟨quoted, text, 2 * k⟩ : OpenArg).take backslash = ⟨quoted, text, 2 * k + 1⟩ := if_pos rfl
    rw [readArgs_backslashes, Nat.zero_add, readArgs_take (endsAt_backslash _), htake,
      readArgs_take (endsAt_quotationMark _), OpenArg.take, if_neg (by decide), if_pos rfl, if_neg (by simp), hdiv]

/-- Any other character ends a run of backslashes, which stand for themselves. -/
theorem readArgs_other (hends : a.endsAt c = false) (hbackslash : c ≠ backslash) (hquote : c ≠ quotationMark) :
    readArgs (some a) (c :: rest) = readArgs (some ⟨a.quoted, a.arg ++ [c], 0⟩) rest := by
  rw [readArgs_take hends, OpenArg.take, if_neg hbackslash, if_neg hquote]

/-- **Plain characters** stand for themselves, if no quoted part has begun. -/
theorem readArgs_plain (ha : a.quoted = false) (cs rest : List UInt8)
    (hblank : ∀ c ∈ cs, isBlank c = false) (hquote : quotationMark ∉ cs) :
    ∃ b : OpenArg, b.quoted = false ∧ b.arg = a.arg ++ cs ∧
      readArgs (some a) (cs ++ rest) = readArgs (some b) rest := by
  induction cs generalizing a with
  | nil => exact ⟨a, ha, (List.append_nil _).symm, rfl⟩
  | cons c cs ih =>
    obtain ⟨hc, hcs⟩ := List.forall_mem_cons.mp hblank
    rw [List.mem_cons, not_or] at hquote
    have hends : a.endsAt c = false := by rw [OpenArg.endsAt, hc, Bool.false_and]
    have htake : (a.take c).quoted = false ∧ (a.take c).arg = a.arg ++ [c] := by
      rw [OpenArg.take]
      split
      · rename_i heq
        refine ⟨ha, ?_⟩
        rw [OpenArg.arg, OpenArg.arg, List.replicate_succ', heq, List.append_assoc]
      · rw [if_neg (Ne.symm hquote.1)]
        exact ⟨ha, List.append_nil _⟩
    obtain ⟨b, hb, harg, hread⟩ := ih htake.1 hcs hquote.2
    refine ⟨b, hb, ?_, ?_⟩
    · rw [harg, htake.2, List.append_assoc, List.singleton_append]
    · rw [List.cons_append, readArgs_take hends, hread]

/-- A blank behind an argument. -/
theorem readArgs_blank (ha : a.quoted = false) (hc : isBlank c = true) :
    readArgs (some a) (c :: rest) = a.arg :: readArgs none rest := by
  rw [readArgs, OpenArg.endsAt, hc, ha]
  rfl

end Read

end Goldfish.Lib
