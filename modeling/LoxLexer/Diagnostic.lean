/-!
# Diagnostics and failures

What a scan reports about source text that is no token is the fault and the line it is on. A run
fails when its source has such faults or when it cannot be read. `Failure.message` words the cause,
and `Failure.exitCode` is the status that the command ends with: 65 for input that is wrong, 66 for
input that is not there.
-/

namespace LoxLexer

/-! ## Faults of a source -/

inductive Fault where
  /-- A character that begins no token, comment or blank. -/
  | unexpectedCharacter
  /-- A string whose closing quote is missing. -/
  | unterminatedString
deriving DecidableEq, Repr

namespace Fault

def message : Fault → String
  | unexpectedCharacter => "Unexpected character."
  | unterminatedString => "Unterminated string."

end Fault

structure Diagnostic where
  fault : Fault
  line : Nat
deriving DecidableEq, Repr

namespace Diagnostic

def text (d : Diagnostic) : String := "[line " ++ toString d.line ++ "] Error: " ++ d.fault.message

end Diagnostic

/-! ## Failures of a run -/

inductive ReadFault where
  | notFound
  | isDirectory
  /-- A part of the path that should be a directory is none. -/
  | notADirectory
  /-- The path or one of its names is longer than the system allows. -/
  | nameTooLong
  /-- The bytes are no UTF-8 text. -/
  | notText
  | other (reason : String)
deriving DecidableEq, Repr

namespace ReadFault

def message : ReadFault → String
  | notFound => "No such file or directory (os error 2)"
  | isDirectory => "Is a directory (os error 21)"
  | notADirectory => "Not a directory (os error 20)"
  | nameTooLong => "File name too long (os error 36)"
  | notText => "stream did not contain valid UTF-8"
  | other reason => reason

end ReadFault

inductive Failure where
  | unreadable (path : String) (fault : ReadFault)
  /-- The source has this many lexical faults. -/
  | lexical (count : Nat)
deriving DecidableEq, Repr

namespace Failure

def message : Failure → String
  | unreadable path fault => "could not read '" ++ path ++ "': " ++ fault.message
  | lexical count => "scan reported " ++ toString count ++ " lexical error(s)"

def exitCode : Failure → Nat
  | lexical _ => 65
  | unreadable _ _ => 66

end Failure

end LoxLexer
