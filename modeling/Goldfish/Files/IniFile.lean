import Goldfish.Lib.Lines
import Mathlib.Data.Int.Notation
import Mathlib.Logic.Function.Basic

/-!
# Goldfish.Files.IniFile

Configuration files (`IniFile.cpp`): reading lines of `key = value` with the comments
between them, setting values, and writing the file back by way of a `.new` and an
`.old` file.

A text is a list of bytes. `mData` is a map from keys to values and `mOrderList`, whose
elements point at entries of the map, a list of their keys. A `Directory` maps names to
contents. What the operating system decides when a file is written is a `Faults`.
-/

namespace Goldfish.Files

open Goldfish.Lib

/-- A `std::string`. -/
abbrev Text := List UInt8

/-- What the file system holds under each name. -/
abbrev Directory := Text → Option Text

/-- The end of a line. -/
def newline : UInt8 := '\n'.toUInt8

/-! ### Character classes -/

/-- `isSpaceChar`. -/
def isSpaceChar (uc : UInt8) : Bool := uc = ' '.toUInt8 || uc = '\r'.toUInt8 || uc = '\t'.toUInt8

/-- `isValueChar`. -/
def isValueChar (uc : UInt8) : Bool := uc ≠ '\r'.toUInt8 && uc ≠ '\n'.toUInt8

/-- `isKeyStartChar`, with differences that wrap. -/
def isKeyStartChar (uc : UInt8) : Bool :=
  let smallRange := 'z'.toUInt8 - 'a'.toUInt8 + 1
  let capitalRange := 'Z'.toUInt8 - 'A'.toUInt8 + 1
  uc - 'a'.toUInt8 < smallRange || uc - 'A'.toUInt8 < capitalRange || uc = '_'.toUInt8

/-- `isKeyChar`, which begins a key or goes on with it. -/
def isKeyChar (uc : UInt8) : Bool :=
  let numRange := '9'.toUInt8 - '0'.toUInt8 + 1
  isKeyStartChar uc || uc - '0'.toUInt8 < numRange || uc = '.'.toUInt8 || uc = '-'.toUInt8

/-! ### One line -/

/-- What a line of the file is. -/
inductive Line where
  /-- Blank, or with `#` or `;` as the first character that is no space. -/
  | comment
  /-- Dropped. -/
  | invalid
  | entry (key value : Text)
  deriving DecidableEq, Repr

/-- The part of a line behind the `=` of `key`. -/
def parseValue (key rest : Text) : Line :=
  let rest := rest.dropWhile isSpaceChar
  let value := (rest.takeWhile isValueChar).rdropWhile isSpaceChar
  -- a carriage return ends the value; only spaces may follow it
  if (rest.dropWhile isValueChar).dropWhile isSpaceChar ≠ [] then .invalid else .entry key value

/-- The body of the loop of `parseStream` up to the insertion. -/
def parseLine (line : Text) : Line :=
  match line.dropWhile isSpaceChar with
  | [] => .comment
  | c :: cs =>
    if c = '#'.toUInt8 ∨ c = ';'.toUInt8 then .comment
    else if !isKeyStartChar c then .invalid
    else
      let key := c :: cs.takeWhile isKeyChar
      match (cs.dropWhile isKeyChar).dropWhile isSpaceChar with
      | [] => .invalid
      | d :: rest => if d ≠ '='.toUInt8 then .invalid else parseValue key rest

/-! ### The object -/

/-- An `IniFile`. The order and the comments are for printing. -/
structure IniFile where
  mData : Text → Option Text
  /-- The keys of the elements that the list points at. -/
  mOrderList : List Text
  /-- Comments and blank lines, with the number of the line they are to be printed at. -/
  mComments : List (Nat × Text)
  mBackingFilePath : Text
  mDirty : Bool

/-- The constructor: nothing is read. -/
def IniFile.new (backingFilePath : Text) : IniFile where
  mData := fun _ => none
  mOrderList := []
  mComments := []
  mBackingFilePath := backingFilePath
  mDirty := true

/-- `setBackingFile`. The file that is there is not looked at. -/
def IniFile.setBackingFile (ini : IniFile) (filePath : Text) : IniFile :=
  { ini with mDirty := true, mBackingFilePath := filePath }

/-- The insertion of `parseStream` and of `updateData`: the value is replaced in any case, the order list
takes a key that is new. -/
def IniFile.emplace (ini : IniFile) (key value : Text) : IniFile :=
  { ini with
    mData := Function.update ini.mData key (some value)
    mOrderList := if (ini.mData key).isSome then ini.mOrderList else ini.mOrderList ++ [key] }

/-! ### Reading -/

/-- The loop of `parseStream` behind `outputLineno` lines. An invalid line is dropped and does not count;
a line whose key is a duplicate does. -/
def IniFile.parseLines (keepComments : Bool) (ini : IniFile) (outputLineno : Nat) : List Text → IniFile
  | [] => ini
  | line :: lines =>
    match parseLine line with
    | .comment =>
      let ini :=
        if keepComments then { ini with mComments := ini.mComments ++ [(outputLineno + 1, line)] } else ini
      ini.parseLines keepComments (outputLineno + 1) lines
    | .invalid => ini.parseLines keepComments outputLineno lines
    | .entry key value => (ini.emplace key value).parseLines keepComments (outputLineno + 1) lines

/-- `parseStream`, line by line. -/
def IniFile.parseStream (ini : IniFile) (data : Text) (keepComments : Bool) : IniFile :=
  ini.parseLines keepComments 0 (lines newline data)

/-- The first lines of `read` and `readFromMemory`. -/
def IniFile.clear (ini : IniFile) : IniFile :=
  { ini with mDirty := false, mData := fun _ => none, mOrderList := [], mComments := [] }

/-- A file that is longer than this is not read. -/
def kMaxIniFileSize : Nat := 655360

/-- What `read` finds to parse: nothing without a backing file, if the file cannot be opened, and if it is
too large. -/
def IniFile.input (ini : IniFile) (dir : Directory) : Option Text :=
  if ini.mBackingFilePath = [] then none
  else
    match dir ini.mBackingFilePath with
    | none => none
    | some data => if data.length > kMaxIniFileSize then none else some data

/-- `read`. What was there before is gone, even if the file cannot be read. -/
def IniFile.read (ini : IniFile) (keepComments : Bool) (dir : Directory) : Bool × IniFile :=
  match ini.input dir with
  | none => (false, ini.clear)
  | some data => (true, ini.clear.parseStream data keepComments)

/-- `readFromMemory`. -/
def IniFile.readFromMemory (ini : IniFile) (data : Text) : IniFile := ini.clear.parseStream data true

/-! ### Setting values -/

/-- `updateData`. A new key comes last. -/
def IniFile.updateData (ini : IniFile) (key value : Text) : IniFile :=
  { ini with mDirty := true }.emplace key value

/-- `std::to_string` of an integer. -/
def to_string (n : Int) : Text :=
  let digits := (Nat.toDigits 10 n.natAbs).map Char.toUInt8
  if n < 0 then '-'.toUInt8 :: digits else digits

/-- The text up to the first NUL: `setString` passes the characters of the view as a C string. -/
def cString (value : Text) : Text := value.takeWhile (· ≠ 0)

/-- `setString`, which takes a C string. -/
def IniFile.setString (ini : IniFile) (key value : Text) : IniFile := ini.updateData key (cString value)

/-- How a Boolean is written. -/
def boolText (value : Bool) : Text :=
  if value then ['t', 'r', 'u', 'e'].map Char.toUInt8 else ['f', 'a', 'l', 's', 'e'].map Char.toUInt8

/-- The factor of the letter `k`. -/
def kKilo : UInt64 := 1024

/-- The factor of the letter `m`. -/
def kMega : UInt64 := 1024 * kKilo

/-- The factor of the letter `g`. -/
def kGiga : UInt64 := 1024 * kMega

/-- The text of a disk size: the largest unit that divides it. -/
def diskSizeText (value : UInt64) : Text :=
  if value ≥ kGiga ∧ value % kGiga = 0 then to_string (value / kGiga).toNat ++ ['g'.toUInt8]
  else if value ≥ kMega ∧ value % kMega = 0 then to_string (value / kMega).toNat ++ ['m'.toUInt8]
  else if value ≥ kKilo ∧ value % kKilo = 0 then to_string (value / kKilo).toNat ++ ['k'.toUInt8]
  else to_string value.toNat

/-- The calls that set a value. A double comes as the text that `std::to_string` makes of it. -/
inductive Setter where
  | setString (value : Text)
  | setInt (value : Int32)
  | setInt64 (value : Int64)
  | setDouble (text : Text)
  | setBool (value : Bool)
  | setDiskSize (value : UInt64)
  deriving DecidableEq

/-- The text a call stores. -/
def Setter.text : Setter → Text
  | .setString value => cString value
  | .setInt value => to_string value.toInt
  | .setInt64 value => to_string value.toInt
  | .setDouble text => text
  | .setBool value => boolText value
  | .setDiskSize value => diskSizeText value

/-- One of the setters. -/
def IniFile.set (ini : IniFile) (key : Text) (setter : Setter) : IniFile := ini.updateData key setter.text

/-! ### Printing -/

/-- The inner loop of `writeCommonImpl`: the comments that are due at `lineno`, those that are left, and
the number of the line behind them. -/
def writeComments (lineno : Nat) : List (Nat × Text) → List Text × List (Nat × Text) × Nat
  | [] => ([], [], lineno)
  | comment :: comments =>
    if lineno ≥ comment.1 then
      let (out, rest, lineno) := writeComments (lineno + 1) comments
      (comment.2 :: out, rest, lineno)
    else ([], comment :: comments, lineno)

/-- The line of an entry. -/
def entryLine (key value : Text) : Text := key ++ [' '.toUInt8, '='.toUInt8, ' '.toUInt8] ++ value

/-- The outer loop of `writeCommonImpl`, behind `lineno` lines: comments come out in front of a key only. -/
def writeLines (discardEmpty : Bool) (mData : Text → Option Text) :
    List Text → List (Nat × Text) → Nat → List Text
  | [], _, _ => []
  | key :: keys, comments, lineno =>
    let (out, comments, lineno) := writeComments (lineno + 1) comments
    let value := (mData key).getD []
    let line := if discardEmpty && value.isEmpty then [] else [entryLine key value]
    out ++ line ++ writeLines discardEmpty mData keys comments lineno

/-- The text that is written to the file. -/
def IniFile.print (ini : IniFile) (discardEmpty : Bool) : Text :=
  unlines newline (writeLines discardEmpty ini.mData ini.mOrderList ini.mComments 0)

/-! ### Updating the file -/

/-- Which of the file operations of `writeCommon` the system lets succeed. -/
structure Faults where
  /-- Opening the `.new` file for writing. -/
  openNew : Bool
  /-- Moving the backing file out of the way. -/
  moveOld : Bool
  /-- Moving the `.new` file into its place. -/
  moveNew : Bool
  /-- Moving the `.old` file back. -/
  moveBack : Bool
  deriving DecidableEq, Repr

/-- `move`: all or nothing; there has to be a file to move. -/
def Directory.move (dir : Directory) (works : Bool) (source target : Text) : Bool × Directory :=
  match dir source with
  | none => (false, dir)
  | some contents =>
    if works then (true, Function.update (Function.update dir source none) target (some contents))
    else (false, dir)

/-- `remove`. -/
def Directory.remove (dir : Directory) (name : Text) : Directory := Function.update dir name none

/-- `writeCommonImpl`: the file is written as a whole. -/
def IniFile.writeCommonImpl (ini : IniFile) (discardEmpty : Bool) (filePath : Text) (opens : Bool)
    (dir : Directory) : Bool × IniFile × Directory :=
  if opens then
    (true, { ini with mDirty := false }, Function.update dir filePath (some (ini.print discardEmpty)))
  else (false, ini, dir)

/-- The name of the file the new text is written to. -/
def iniFileNew (path : Text) : Text := path ++ ['.', 'n', 'e', 'w'].map Char.toUInt8

/-- The name the backing file has while it is replaced. -/
def iniFileOld (path : Text) : Text := path ++ ['.', 'o', 'l', 'd'].map Char.toUInt8

/-- `writeCommon`: a new file is written and then renamed. -/
def IniFile.writeCommon (ini : IniFile) (discardEmpty : Bool) (faults : Faults) (dir : Directory) :
    Bool × IniFile × Directory :=
  let path := ini.mBackingFilePath
  if path = [] then (false, ini, dir)
  else
    match ini.writeCommonImpl discardEmpty (iniFileNew path) faults.openNew dir with
    | (false, ini, dir) => (false, ini, dir)
    | (true, ini, dir) =>
      let dir := dir.remove (iniFileOld path)
      let (deleteOldConfig, dir) := dir.move faults.moveOld path (iniFileOld path)
      match dir.move faults.moveNew (iniFileNew path) path with
      | (false, dir) =>
        -- try to revert the first move; it may fail, and then the file is in its old place no more
        let dir := if deleteOldConfig then (dir.move faults.moveBack (iniFileOld path) path).2 else dir
        (false, ini, dir.remove (iniFileNew path))
      | (true, dir) =>
        let dir := if deleteOldConfig then dir.remove (iniFileOld path) else dir
        (true, ini, dir)

/-- `write`. -/
def IniFile.write (ini : IniFile) (faults : Faults) (dir : Directory) : Bool × IniFile × Directory :=
  ini.writeCommon false faults dir

/-- `writeDiscardingEmpty`. -/
def IniFile.writeDiscardingEmpty (ini : IniFile) (faults : Faults) (dir : Directory) :
    Bool × IniFile × Directory :=
  ini.writeCommon true faults dir

end Goldfish.Files
