/-
  Lab8085.Failure

  Everything that can go wrong when a system is configured, built and used from a
  monitor.
-/
import Lab8085.Assembly
import Lab8085.Bus
import Lab8085.Config.Files
import Lab8085.Config.System
import Lab8085.Operation
import Lab8085.Watch
import Lab8085.Yaml.Content

namespace Lab8085

/-- A failure. -/
inductive Failure where
  | assembly (e : AssemblyError)
  | bus (e : BusError)
  | config (e : Config.Error)
  /-- A memory size that is no integer from 1 to the largest size. -/
  | memorySize (given : Value)
  | file (e : FileError)
  /-- A value of a kind that cannot be used here. -/
  | wrongKind
  /-- A part was asked of a value that has no parts, or not this one. -/
  | noSuchPart
  /-- A register, flag, pair, event or breakpoint of this name does not exist. -/
  | noSuchName (given : Value)
  /-- There is no operand kind of this name. -/
  | noSuchKind (given : Value)
  /-- A value of a kind that has no hexadecimal text. -/
  | notHex (kind : String)
  | decoding (e : DecodeError)
  /-- A number among bytes is no byte. -/
  | notByte
  /-- Bytes were asked for by a negative number. -/
  | negativeCount
  /-- More bytes were asked for than can be counted. -/
  | tooMany
  /-- An integer has too many digits to be shown. -/
  | tooLongToShow
  /-- A document holds a text that gives no value. -/
  | document (e : Yaml.Fault)
  /-- An event could not be told to a watcher. -/
  | untold (e : TellError)
  /-- Raised by a watcher on purpose. -/
  | raised (message : String)
  /-- Watchers called each other without end. -/
  | nesting

namespace Failure

/-- What is said of a failure that has no text of its own elsewhere. -/
def complaint : Failure → String
  | .file e => e.message
  | .notHex kind => "Unknown format code 'X' for object of type '" ++ kind ++ "'"
  | .decoding e => e.message
  | .notByte => "bytes must be in range(0, 256)"
  | .negativeCount => "negative count"
  | .tooLongToShow => Number.tooLongToShow
  | .noSuchName given => given.shown
  | .noSuchKind given => given.shown ++ " is not a valid OperandKind"
  | .untold e => e.message
  | .raised message => message
  | _ => ""

end Failure

end Lab8085
