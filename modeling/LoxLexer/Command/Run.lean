import LoxLexer.Command.Request
import LoxLexer.Command.Session

/-!
# Running the command

A run is decided by the words of its command line and its host: the files it can read, the bytes on
its standard input, and the filter that its environment names. `run` is that function. A filter in
the environment that can be read takes the place of `--log-level`.

What a run writes can be cut into parts: the scans that it makes, each with its report, and the
texts between them. What is logged is left open: the parts of a run say what it writes once the log
lines of each scan are given (`Part.outputs`). `Mode.Scans` names the texts that a run in a mode
scans, and `Filter.InEffect` the filter that an environment and an option ask for.
-/

namespace LoxLexer

/-! ## Texts about the command -/

def usageText : String := "Usage: lox-scan [OPTIONS] [PATH]\n"

def helpText : String :=
  "Tokenize Lox source and print the tokens\n\n" ++ usageText ++
  "\nArguments:\n  [PATH]  Source file to scan\n" ++
  "\nOptions:\n" ++
  "      --repl               Scan each line typed at the prompt\n" ++
  "      --sample             Scan the built-in sample program (default when no PATH is given)\n" ++
  "      --log-level <LEVEL>  Log level used when RUST_LOG is unset [default: warn]\n" ++
  "      --timings            Log the CPU time spent scanning\n" ++
  "  -h, --help               Print help\n" ++
  "  -V, --version            Print version\n"

def versionText : String := "lox-scan 0.1.0\n"

/-! ## Running -/

/-- What a run finds outside itself. -/
structure Host where
  /-- Reads the file at a path. -/
  read : String → Except ReadFault ByteArray
  /-- The bytes on the standard input. -/
  input : List UInt8
  /-- The filter that the environment names. -/
  logFilter : Option String

namespace Host

def readText (host : Host) (path : String) : Except ReadFault String :=
  match host.read path with
  | .error fault => .error fault
  | .ok bytes =>
    match String.fromUTF8? bytes with
    | some text => .ok text
    | none => .error .notText

end Host

/-- The filter of the environment if it can be read, otherwise that of the option. -/
def effectiveFilter (environment : Option String) (logLevel : String) : Filter :=
  (environment.bind Filter.parse?).getD (Filter.parseLenient logLevel)

/-- The reports on the option's filter, if that is the one in effect. -/
def filterComplaints (environment : Option String) (logLevel : String) : List String :=
  if (environment.bind Filter.parse?).isSome then [] else Filter.complaints logLevel

namespace Outcome

def ofFailure (failure : Failure) : Outcome :=
  ⟨failure.exitCode, [.err ("Error: " ++ failure.message ++ "\n")]⟩

/-- The outcome after further output that comes first. -/
def after (outputs : List Output) (o : Outcome) : Outcome :=
  { o with outputs := outputs ++ o.outputs }

end Outcome

/-- Scans a source under a name and reports it; faults make the run fail. -/
def runSource (settings : LogSettings) (name : String) (source : String) : Outcome :=
  let outcome := match (scan source).failure? with
    | some failure => Outcome.ofFailure failure
    | none => ⟨0, []⟩
  outcome.after (report settings name source.toList)

namespace Invocation

def logSettings (i : Invocation) (host : Host) : LogSettings :=
  ⟨effectiveFilter host.logFilter i.logLevel, i.timings⟩

def runMode (i : Invocation) (host : Host) : Outcome :=
  match i.mode with
  | .session => ⟨0, Session.outputs (i.logSettings host) (cutAfter lineFeed host.input)⟩
  | .sample => runSource (i.logSettings host) "sample" sampleProgram
  | .file path =>
    match host.readText path with
    | .ok source => runSource (i.logSettings host) path source
    | .error fault => Outcome.ofFailure (.unreadable path fault)

/-- The reports on what cannot be read of the filter. -/
def complaints (i : Invocation) (host : Host) : List Output :=
  (filterComplaints host.logFilter i.logLevel).map .err

/-- Reports what cannot be read of the filter, then runs. -/
def run (i : Invocation) (host : Host) : Outcome := (i.runMode host).after (i.complaints host)

end Invocation

/-- Does what the words of a command line ask for. -/
def run (words : List String) (host : Host) : Outcome :=
  match Request.ofWords words with
  | .help => ⟨0, [.out helpText]⟩
  | .version => ⟨0, [.out versionText]⟩
  | .usageError => ⟨2, [.err usageText]⟩
  | .invoke invocation => invocation.run host

/-! ## Parts of a run -/

inductive Part where
  /-- The scan of a text, reported under a name. -/
  | scan (name : String) (text : List Char)
  | out (text : String)
  | err (text : String)
deriving DecidableEq, Repr

namespace Part

/-- What a part writes, if these events are logged of each text that is scanned. The log lines of a
scan come before all that is reported of it. -/
def outputs (logged : List Char → List Event) : Part → List Output
  | scan name text =>
    (logged text).map .log ++
      [.out ("== " ++ name ++ " ==\n" ++ tokenListing (Scan.ofText text).tokens),
        .err (errorListing (Scan.ofText text).errors)]
  | out text => [.out text]
  | err text => [.err text]

/-- The text that is scanned. -/
def text? : Part → Option (List Char)
  | scan _ text => some text
  | _ => none

end Part

/-- The texts that a run scans, in turn: the lines of a session before the one that ends it, the
text of a file if it can be read, or the sample. -/
inductive Mode.Scans (host : Host) : Mode → List (List Char) → Prop
  | session {scanned : List (List Char)} {rest : List (List UInt8)} :
      Session.Course (cutAfter lineFeed host.input) scanned rest →
      Scans host .session (scanned.map trim)
  | file {path source : String} : host.readText path = .ok source →
      Scans host (.file path) [source.toList]
  | unreadable {path : String} {fault : ReadFault} : host.readText path = .error fault →
      Scans host (.file path) []
  | sample : Scans host .sample [sampleProgram.toList]

/-- The filter of the environment if it can be read, otherwise the one that the option is read
as. -/
def Filter.InEffect (environment : Option String) (logLevel : String) (f : Filter) : Prop :=
  environment.bind parse? = some f ∨ (environment.bind parse? = none ∧ parse? logLevel = some f)

/-- What a scan could log: its events that are no tokens and, if asked, how long it took and how
many bytes the text has. -/
def loggable (timings : Bool) (text : List Char) : List Event :=
  (Scan.events true text).filter (·.level = .debug) ++
    if timings then [⟨.info, "lox_scan", "scanned",
      [("elapsed", .cpuTime), ("bytes", .count (utf8 text).length)]⟩]
    else []

end LoxLexer
