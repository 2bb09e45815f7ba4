/-!
# Events

An event is something that a run reports about itself: a level, the part of the program it comes
from (its target), a message, and named values. `Event.line` writes one as a log line.
-/

namespace LoxLexer

/-- How important an event is, the most important first. -/
inductive Level where
  | error | warn | info | debug | trace
deriving DecidableEq, Repr

namespace Level

/-- One for the most important, five for the least. -/
def rank : Level → Nat
  | error => 1
  | warn => 2
  | info => 3
  | debug => 4
  | trace => 5

def name : Level → String
  | error => "ERROR"
  | warn => "WARN"
  | info => "INFO"
  | debug => "DEBUG"
  | trace => "TRACE"

end Level

inductive FieldValue where
  | count (n : Nat)
  /-- The processor time that a scan took; it is known only when the event is written. -/
  | cpuTime
deriving DecidableEq, Repr

structure Event where
  level : Level
  target : String
  message : String
  fields : List (String × FieldValue)
deriving DecidableEq, Repr

/-- What a log line shows of the run it was written in: the time, and processor time spent. -/
structure Stamp where
  time : String
  cpuTime : String
deriving DecidableEq, Repr

namespace Event

/-- A field as name and value, joined by an equals sign. -/
def fieldText (stamp : Stamp) (field : String × FieldValue) : String :=
  field.1 ++ "=" ++ match field.2 with
    | .count n => toString n
    | .cpuTime => stamp.cpuTime

/-- The log line of an event: the time, the level right-aligned to five columns, the target, the
message and the fields. -/
def line (stamp : Stamp) (e : Event) : String :=
  let level := String.ofList (e.level.name.toList.leftpad 5 ' ')
  stamp.time ++ " " ++ level ++ " " ++ e.target ++ ": " ++
    " ".intercalate (e.message :: e.fields.map (fieldText stamp)) ++ "\n"

end Event

end LoxLexer
