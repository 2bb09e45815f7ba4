import LoxLexer.Event.Basic
import LoxLexer.Scan.Cursor

/-!
# Events of a scan

A scan reports each diagnostic as it is found and a summary at the end; when it is traced, also each
token but the last, which is not in the source. Events come in the order of the findings.

A run of the cursor over bytes can keep a log (`Cursor.events?`): each step adds the events of what
it takes in, tokens and diagnostics being told by what the cursor holds after the step and did not
hold before, and the end of the run adds the summary.
-/

namespace LoxLexer

def scanTarget : String := "lox_scanner::scanner"

namespace Event

def ofToken (t : Token) : Event := ⟨.trace, scanTarget, t.text, [("line", .count t.line)]⟩

def ofDiagnostic (d : Diagnostic) : Event :=
  ⟨.debug, scanTarget, d.fault.message, [("line", .count d.line)]⟩

/-- The event of a finding; a token has one only in a traced scan. -/
def ofFinding? (traced : Bool) (f : Finding) : Option Event :=
  match f.item with
  | .token t => if traced then some (ofToken t) else none
  | .diagnostic d => some (ofDiagnostic d)

/-- The summary of a scan: how many tokens, how many diagnostics, how many lines. -/
def finished (tokens errors lines : Nat) : Event :=
  ⟨.debug, scanTarget, "scan finished",
    [("tokens", .count tokens), ("errors", .count errors), ("lines", .count lines)]⟩

end Event

def Scan.events (traced : Bool) (cs : List Char) : List Event :=
  let result := Scan.ofText cs
  (Finding.ofText cs).filterMap (Event.ofFinding? traced) ++
    [Event.finished result.tokens.length result.errors.length (lastLine cs)]

/-! ## The log of a run -/

namespace Cursor

/-- The events of a step from one place to another. -/
def emitted (traced : Bool) (c c' : Cursor) : List Event :=
  (if traced then (c'.tokens.drop c.tokens.length).map Event.ofToken else []) ++
    (c'.errors.drop c.errors.length).map Event.ofDiagnostic

/-- Steps until the cursor is at the end, and adds the events of each step to the log. -/
def runLog (traced : Bool) (bytes : List UInt8) (c : Cursor) (log : List Event) :
    Option (Cursor × List Event) :=
  if bytes.length ≤ c.current then some (c, log)
  else
    match h : step bytes c with
    | none => none
    | some c' =>
      have := current_lt_of_step h
      runLog traced bytes c' (log ++ emitted traced c c')
termination_by bytes.length - c.current

/-- The summary of a run that ends here. -/
def summary (c : Cursor) : Event :=
  Event.finished c.finish.tokens.length c.finish.errors.length c.line

/-- The log of a run from the first byte, with the summary. -/
def events? (traced : Bool) (cs : List Char) : Option (List Event) :=
  (runLog traced (utf8 cs) initial []).map fun (c, log) => log ++ [c.summary]

end Cursor

example : Cursor.events? true "@1".toList = some (Scan.events true "@1".toList) := by
  decide +kernel

end LoxLexer
