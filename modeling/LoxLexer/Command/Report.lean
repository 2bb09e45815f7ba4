import LoxLexer.Event.Filter
import LoxLexer.Event.Scan
import LoxLexer.Listing

/-!
# Outcomes and reports

A run writes text to its two streams and log lines to the second, in one order, and ends with an
exit code. A log line is kept as its event until it is written, for only then is its stamp known.

A scan is reported under a name: first the log lines of its events, then the token listing under a
title on the standard output, then the diagnostics on the standard error stream.
-/

namespace LoxLexer

/-! ## Outcomes of a run -/

inductive Output where
  | out (text : String)
  | err (text : String)
  /-- A log line on the standard error stream. -/
  | log (event : Event)
deriving DecidableEq, Repr

namespace Output

def stdout : Output → String
  | out text => text
  | _ => ""

/-- What goes to the standard error stream, log lines with this stamp. -/
def stderr (stamp : Stamp) : Output → String
  | out _ => ""
  | err text => text
  | log event => event.line stamp

def event? : Output → Option Event
  | log event => some event
  | _ => none

/-- What goes to the standard error stream and is no log line. -/
def diagnostics : Output → String
  | err text => text
  | _ => ""

end Output

/-- The exit code of a run and what it writes, in order. -/
structure Outcome where
  exitCode : Nat
  outputs : List Output
deriving DecidableEq, Repr

namespace Outcome

def stdout (o : Outcome) : String := String.join (o.outputs.map Output.stdout)

def stderr (stamp : Stamp) (o : Outcome) : String :=
  String.join (o.outputs.map (Output.stderr stamp))

def events (o : Outcome) : List Event := o.outputs.filterMap Output.event?

/-- The standard error stream without log lines. -/
def diagnostics (o : Outcome) : String := String.join (o.outputs.map Output.diagnostics)

end Outcome

/-! ## Reports of a scan -/

/-- What is logged: the events that the filter lets through, and how long each scan took if
asked. -/
structure LogSettings where
  filter : Filter
  timings : Bool
deriving DecidableEq, Repr

/-- The event that tells how long the scan of a text took. -/
def Event.scanned (cs : List Char) : Event :=
  ⟨.info, "lox_scan", "scanned",
    [("elapsed", .cpuTime), ("bytes", .count (String.ofList cs).utf8ByteSize)]⟩

namespace LogSettings

def events (settings : LogSettings) (cs : List Char) : List Event :=
  (Scan.events false cs ++ if settings.timings then [Event.scanned cs] else []).filter
    settings.filter.admits

end LogSettings

def listingTitle (name : String) : String := "== " ++ name ++ " ==\n"

def report (settings : LogSettings) (name : String) (cs : List Char) : List Output :=
  let result := Scan.ofText cs
  (settings.events cs).map .log ++
    [.out (listingTitle name ++ tokenListing result.tokens), .err (errorListing result.errors)]

end LoxLexer
