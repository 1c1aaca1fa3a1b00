/-
  Lab8085.Config.Files

  The files that sources and configurations are read from: paths with bytes. A path
  leads from directory to directory; empty steps and dots in it lead nowhere, and two
  dots lead back. The bytes of a text file are UTF-8; its line breaks are read as line
  feeds.
-/
import Lab8085.Text.Lines
import Lab8085.Text.Surrogate
import Lab8085.Value

namespace Lab8085

/-- Why a text file is not read. -/
inductive FileError where
  | missing
  /-- A directory stands where a file is to be read. -/
  | directory
  /-- A file stands where a directory is to be entered. -/
  | notDirectory
  | tooLong
  /-- The path holds the character NUL. -/
  | nul
  /-- The path holds a code point that is no character. -/
  | noCharacter
  /-- A number stands in place of a path. -/
  | number (negative : Bool)
  /-- A value of another kind stands in place of a path. -/
  | wrongKind
  /-- The bytes of the file are no UTF-8 text. -/
  | notText
  deriving DecidableEq

namespace FileError

/-- What is said of an error; most speak for themselves. -/
def message : FileError → String
  | .nul => "embedded null byte"
  | .number _ => "negative file descriptor"
  | _ => ""

end FileError

/-- Files by path, the one that counts first. -/
abbrev Files := List (String × ByteArray)

namespace Files

/-- A step of a path. -/
abbrev Step := List Char

def back : Step := ['.', '.']

/-- The parts of a path between slashes. -/
def parts (path : String) : List Step :=
  path.toList.splitOn '/'

/-- Whether a part of a path is a step. -/
def isStep (s : Step) : Bool :=
  !s.isEmpty && s != ['.']

/-- The steps of a path that lead somewhere. -/
def steps (path : String) : List Step :=
  (parts path).filter isStep

/-- How many bytes a step has. -/
def byteLength (s : Step) : Nat :=
  (String.ofList s).utf8ByteSize

/-- The most bytes that a step may have. -/
def maxStep : Nat := 255

/-- The most bytes that a path may have. -/
def maxPath : Nat := 4095

/-- The file with the given steps. -/
def bytesAt? (files : Files) (place : List Step) : Option ByteArray :=
  (files.find? fun f => steps f.1 == place).map (·.2)

/-- Whether files lie below a directory. -/
def isDirectory (files : Files) (place : List Step) : Bool :=
  files.any fun f => place.isPrefixOf (steps f.1)

/-- Follows steps from a directory. Of the directories around the outermost one nothing is known;
    they hold no files. -/
def follow (files : Files) (here : List Step) : List Step → Except FileError ByteArray
  | [] => .error .directory
  | s :: rest =>
    if s = back then
      if here.isEmpty then .error (if rest.all (· == back) then .directory else .missing)
      else follow files here.dropLast rest
    else if maxStep < byteLength s then .error .tooLong
    else
      let place := here ++ [s]
      match files.bytesAt? place with
      | some bytes => if rest.isEmpty then .ok bytes else .error .notDirectory
      | none => if files.isDirectory place then follow files place rest else .error .missing

/-- Whether a code point that is no character keeps a path from being written as bytes; those that
    stand for single bytes do not. -/
def isUnwritable (c : Char) : Bool :=
  let n := Text.codePoint c
  Text.isSurrogate n && !(0xDC80 ≤ n && n ≤ 0xDCFF)

/-- The bytes of the file at a path. A path whose last part is no step asks for a directory. -/
def read (files : Files) (path : String) : Except FileError ByteArray := do
  if path.toList.any isUnwritable then .error .noCharacter
  else if path.toList.contains (Char.ofNat 0) then .error .nul
  else if path = "" then .error .missing
  else if maxPath < path.utf8ByteSize then .error .tooLong
  else if path.toList.head? = some '/' then
    .error (if (steps path).all (· == back) then .directory else .missing)
  else
    let bytes ← files.follow [] (steps path)
    if (parts path).getLast?.all isStep then .ok bytes else .error .notDirectory

/-- Reads a text file. -/
def readText (files : Files) (path : String) : Except FileError String := do
  match String.fromUTF8? (← files.read path) with
  | none => .error .notText
  | some s => .ok (String.ofList (Text.uniformBreaks s.toList))

/-- Reads the text file that a value names. Numbers stand for files that are open already, of which
    there are none; a number beyond 32 bits is no number of a file. -/
def readNamed (files : Files) (name : Value) : Except FileError String :=
  match name.bare with
  | .text s => files.readText s
  | .bytes bs =>
    match String.fromUTF8? ⟨(bs.map fun b => UInt8.ofNat b.toNat).toArray⟩ with
    | some s => files.readText s
    | none => .error (if bs.contains 0 then .nul else .missing)
  | v =>
    match v.asInt? with
    | some n =>
      .error (if n < -0x80000000 ∨ 0x80000000 ≤ n then .wrongKind else .number (n < 0))
    | none => .error .wrongKind

end Files

end Lab8085
