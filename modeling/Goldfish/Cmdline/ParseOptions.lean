import Goldfish.Cmdline.OptionTable
import Mathlib.Logic.Function.Basic
import Mathlib.Tactic.Simps.Basic

/-!
# Goldfish.Cmdline.ParseOptions

The parser of the emulator's command line (`android_parse_options` in `cmdline-option.cpp`).

One loop reads the vector of arguments from its second cell on. What it leaves is copied behind
`argv[0]`, in place, and the lists of parameters, which the loop builds from the back, are reversed.
-/

namespace Goldfish.Cmdline

open Goldfish.Lib

/-! ### Vectors of arguments -/

/-- The cells from `argv[0]` on, with the `NULL` at the end. -/
abbrev ArgVector := List (Option Arg)

/-- How an access to the argument vector can go wrong. -/
inductive VectorFault where
  | outOfBounds
  | nullString
  deriving DecidableEq, Repr

/-- `argv[i]`, with the terminating null pointer as `none`. -/
def cellAt (argv : ArgVector) (i : Nat) : Except VectorFault (Option Arg) :=
  match argv[i]? with
  | none => .error .outOfBounds
  | some cell => .ok cell

/-- The string that a cell points at. -/
def argAt (argv : ArgVector) (i : Nat) : Except VectorFault Arg :=
  match cellAt argv i with
  | .error fault => .error fault
  | .ok none => .error .nullString
  | .ok (some arg) => .ok arg

/-- `argv[i] = cell`. -/
def writeAt (argv : ArgVector) (i : Nat) (cell : Option Arg) : Except VectorFault ArgVector :=
  if i < argv.length then .ok (argv.set i cell) else .error .outOfBounds

/-! ### Options -/

/-- The fields of the same name as the options, and `verbose`. -/
structure AndroidOptions where
  flags : Arg → Bool
  params : Arg → Option Arg
  lists : Arg → List Arg
  verbose : Bool

/-- After `memset`. -/
def AndroidOptions.zero : AndroidOptions where
  flags _ := false
  params _ := none
  lists _ := []
  verbose := false

/-- An option without an argument is set. -/
@[simps]
def AndroidOptions.setFlag (opt : AndroidOptions) (name : Arg) : AndroidOptions :=
  { opt with flags := Function.update opt.flags name true }

/-- An option with an argument is set. -/
@[simps]
def AndroidOptions.setParam (opt : AndroidOptions) (name param : Arg) : AndroidOptions :=
  { opt with params := Function.update opt.params name (some param) }

/-- An option with a list of arguments is set. -/
@[simps]
def AndroidOptions.setList (opt : AndroidOptions) (name : Arg) (list : List Arg) : AndroidOptions :=
  { opt with lists := Function.update opt.lists name list }

/-! ### Names -/

/-- `string_translate_char`, in place there. -/
def string_translate_char (str : Arg) (c_from c_to : UInt8) : Arg := str.map fun c => if c = c_from then c_to else c

/-- The string in the buffer. -/
def buffer_translate_char_with_len (buffLen : Nat) (src : Arg) (srcLen : Nat) (fromChar toChar : UInt8) : Arg :=
  let srcLen := if srcLen ≥ buffLen then buffLen - 1 else srcLen
  string_translate_char (src.take srcLen) fromChar toChar

/-- The length goes through an `int` to an `unsigned`. -/
def buffer_translate_char (buffLen : Nat) (src : Arg) (fromChar toChar : UInt8) : Arg :=
  buffer_translate_char_with_len buffLen src (src.length % 4294967296) fromChar toChar

/-- What the loop takes an argument for. -/
inductive Reading where
  | atName (name : Arg)
  | verbose
  | debug
  | debugTag (tag : Arg)
  | option (oo : OptionInfo)
  /-- Not an option, or an unknown one. -/
  | stop
  deriving DecidableEq, Repr

/-- What an argument is read as, before the table is asked. -/
def readArg (keys : List OptionInfo) : Arg → Reading
  | [] => .stop
  | c :: arg =>
    if c = '@'.toUInt8 then .atName arg
    else if c ≠ '-'.toUInt8 then .stop
    else if '_'.toUInt8 ∈ arg then .stop
    -- this goes on as `-debug-init`
    else if arg = literal "verbose" then .verbose
    else if arg = literal "debug" then .debug
    else if literal "debug-" <+: arg then .debugTag (arg.drop 6)
    else
      match keys.find? fun oo => oo.name == buffer_translate_char 64 arg '-'.toUInt8 '_'.toUInt8 with
      | some oo => .option oo
      | none => .stop

/-! ### The loop -/

/-- How the loop ends. -/
inductive LoopEnd where
  | left (nargs aread : Nat) (opt : AndroidOptions)
  | failed (opt : AndroidOptions)
  | exited (code : Int)

/-- `aread` is the index of the cell. The tags behind `-debug` are handed on without being stored. -/
def parseLoop (keys : List OptionInfo) (argv : ArgVector) : (nargs aread : Nat) → AndroidOptions →
    Except VectorFault LoopEnd
  | 0, aread, opt => .ok (.left 0 aread opt)
  | nargs + 1, aread, opt =>
    match argAt argv aread with
    | .error fault => .error fault
    | .ok arg =>
      match readArg keys arg with
      | .atName name => parseLoop keys argv nargs (aread + 1) (opt.setParam (literal "avd") name)
      | .stop => .ok (.left (nargs + 1) aread opt)
      | .verbose => parseLoop keys argv nargs (aread + 1) { opt with verbose := true }
      | .debugTag _ => parseLoop keys argv nargs (aread + 1) opt
      | .debug =>
        match nargs with
        | 0 => .ok (.failed opt)
        | nargs + 1 =>
          match cellAt argv (aread + 1) with
          | .error fault => .error fault
          | .ok _ => parseLoop keys argv nargs (aread + 2) opt
      | .option oo =>
        match oo.var_type, nargs with
        | .OPTION_IS_FLAG, nargs => parseLoop keys argv nargs (aread + 1) (opt.setFlag oo.name)
        | _, 0 => .ok (.exited 1)
        | .OPTION_IS_PARAM, nargs + 1 =>
          match argAt argv (aread + 1) with
          | .error fault => .error fault
          | .ok param => parseLoop keys argv nargs (aread + 2) (opt.setParam oo.name param)
        | .OPTION_IS_LIST, nargs + 1 =>
          match argAt argv (aread + 1) with
          | .error fault => .error fault
          | .ok param => parseLoop keys argv nargs (aread + 2) (opt.setList oo.name (param :: opt.lists oo.name))

/-! ### The rest -/

/-- The vector, and `awrite`. -/
def copyArgs (argv : ArgVector) : (nargs aread awrite : Nat) → Except VectorFault (ArgVector × Nat)
  | 0, _, awrite => .ok (argv, awrite)
  | nargs + 1, aread, awrite => do
    let cell ← cellAt argv aread
    let argv ← writeAt argv awrite cell
    copyArgs argv nargs (aread + 1) (awrite + 1)

/-- The loop that turns one list round. -/
def reverseLoop (prev : List Arg) : (cur : List Arg) → List Arg
  | [] => prev
  | param :: next => reverseLoop (param :: prev) next

/-- What is done for an entry of the table. -/
def reverseList (opt : AndroidOptions) (oo : OptionInfo) : AndroidOptions :=
  if oo.var_type = .OPTION_IS_LIST then opt.setList oo.name (reverseLoop [] (opt.lists oo.name)) else opt

/-- The lists are turned round, as they were built at the front. -/
def reverseLists (keys : List OptionInfo) (opt : AndroidOptions) : AndroidOptions := keys.foldl reverseList opt

/-- How the function ends: what it returns and leaves behind the pointers, or the code of the process. -/
inductive Outcome where
  | returned (res : Int) (pargc : Nat) (argv : ArgVector) (opt : AndroidOptions)
  | exited (code : Int)

/-- What is behind the loop. -/
def leave (keys : List OptionInfo) (argv : ArgVector) (pargc nargs aread : Nat) (opt : AndroidOptions) :
    Except VectorFault Outcome := do
  let (argv, awrite) ← copyArgs argv nargs aread 1
  let argv ← writeAt argv awrite none
  return .returned 0 pargc argv (reverseLists keys opt)

/-- `android_parse_options`. Without arguments the loop is not entered. -/
def android_parse_options (keys : List OptionInfo) (pargc : Nat) (argv : ArgVector) : Except VectorFault Outcome :=
  match pargc with
  -- no loop is entered with -1 arguments
  | 0 => leave keys argv 0 0 1 .zero
  | nargs + 1 =>
    match parseLoop keys argv nargs 1 .zero with
    | .error fault => .error fault
    | .ok (.left nargs aread opt) => leave keys argv (nargs + 1) nargs aread opt
    | .ok (.failed opt) => .ok (.returned (-1) pargc argv opt)
    | .ok (.exited code) => .ok (.exited code)

end Goldfish.Cmdline
