/-!
# Command lines

The words of a command line are read from the left into arguments: options, paths and words that
cannot be used. `--log-level` takes its value from after an equals sign or from the next word; a
word after `--` is a path whatever it looks like, and so is a single hyphen.

The arguments are gathered from the left. Help and version answer at once when they are reached; an
option that comes twice, a second path, an empty path or an unusable word is a usage error when it
is reached; a path beside `--repl` or `--sample`, or both of these, is one at the end. What remains
is an invocation in one of three modes, and a scan of the sample if no mode is named.

A unit is an option with its value, or a path, with the words it is written with. Help, version and
words that cannot be used are no units. `CommandUnit.Misused` says which units cannot stand on one
command line, without regard to their order.
-/

namespace LoxLexer

/-! ## Arguments -/

/-- One option or path of a command line. -/
inductive Argument where
  | repl
  | sample
  | timings
  | logLevel (value : String)
  | path (path : String)
  | help
  | version
  /-- A word that is no option, or an option without the value it needs or with one it cannot
  have. -/
  | unusable
deriving DecidableEq, Repr

namespace Argument

/-- The word looks like an option: it begins with a hyphen and is more than that. -/
def isOptionLike (word : String) : Bool :=
  match word.toList with
  | '-' :: _ :: _ => true
  | _ => false

/-- The value that is joined to `--log-level` by an equals sign. -/
def joinedLevel? (word : String) : Option String :=
  let label := "--log-level=".toList
  if label.isPrefixOf word.toList then some (String.ofList (word.toList.drop label.length))
  else none

/-- A word that takes nothing from the next word. Of letters after one hyphen the first decides. -/
def ofWord (word : String) : Argument :=
  match word with
  | "--repl" => repl
  | "--sample" => sample
  | "--timings" => timings
  | "--help" => help
  | "--version" => version
  | _ =>
    match joinedLevel? word with
    | some value => logLevel value
    | none =>
      match word.toList with
      | '-' :: 'h' :: _ => help
      | '-' :: 'V' :: _ => version
      | '-' :: _ :: _ => unusable
      | _ => path word

def ofWords : List String → List Argument
  | [] => []
  | "--" :: words => words.map path
  | ["--log-level"] => [unusable]
  | "--log-level" :: value :: words =>
    if isOptionLike value then [unusable] else logLevel value :: ofWords words
  | word :: words => ofWord word :: ofWords words

end Argument

/-! ## Requests -/

/-- Where the source comes from. -/
inductive Mode where
  /-- Each line typed at the prompt. -/
  | session
  | file (path : String)
  | sample
deriving DecidableEq, Repr

/-- A command line that can be run. -/
structure Invocation where
  mode : Mode
  logLevel : String
  timings : Bool
deriving DecidableEq, Repr

/-- What a command line asks for. -/
inductive Request where
  | help
  | version
  | usageError
  | invoke (invocation : Invocation)
deriving DecidableEq, Repr

structure Options where
  path : Option String := none
  repl : Bool := false
  sample : Bool := false
  timings : Bool := false
  logLevel : Option String := none
deriving DecidableEq, Repr

namespace Options

/-- The filter that applies when nothing else is asked for. -/
def defaultLogLevel : String := "warn"

/-- Takes one argument in, or answers without looking at the rest. -/
def add (o : Options) : Argument → Except Request Options
  | .repl => if o.repl then .error .usageError else .ok { o with repl := true }
  | .sample => if o.sample then .error .usageError else .ok { o with sample := true }
  | .timings => if o.timings then .error .usageError else .ok { o with timings := true }
  | .logLevel value =>
    if o.logLevel.isSome then .error .usageError else .ok { o with logLevel := some value }
  | .path path =>
    if o.path.isSome || path.isEmpty then .error .usageError else .ok { o with path := some path }
  | .help => .error .help
  | .version => .error .version
  | .unusable => .error .usageError

/-- Two modes are named. -/
def conflict (o : Options) : Bool :=
  (o.path.isSome && (o.repl || o.sample)) || (o.repl && o.sample)

/-- The mode that options name if they name one at most. A path beside `--sample` is a conflict, and
would otherwise be passed over. -/
def mode (o : Options) : Mode :=
  if o.repl then .session
  else match o.path with
    | some path => if !o.sample then .file path else .sample
    | none => .sample

def request (o : Options) : Request :=
  if o.conflict then .usageError
  else .invoke ⟨o.mode, o.logLevel.getD defaultLogLevel, o.timings⟩

end Options

namespace Request

def ofArguments (arguments : List Argument) : Request :=
  match arguments.foldlM Options.add {} with
  | .ok options => options.request
  | .error answer => answer

def ofWords (words : List String) : Request := ofArguments (Argument.ofWords words)

end Request

/-! ## Units -/

/-- An option or a path as it is written. -/
inductive CommandUnit where
  | repl
  | sample
  | timings
  /-- `--log-level` and its value in the next word. -/
  | logLevelApart (value : String)
  /-- `--log-level` and its value joined by an equals sign. -/
  | logLevelJoined (value : String)
  | path (name : String)
deriving DecidableEq, Repr

namespace CommandUnit

def words : CommandUnit → List String
  | repl => ["--repl"]
  | sample => ["--sample"]
  | timings => ["--timings"]
  | logLevelApart value => ["--log-level", value]
  | logLevelJoined value => ["--log-level=" ++ value]
  | path name => [name]

def argument : CommandUnit → Argument
  | repl => .repl
  | sample => .sample
  | timings => .timings
  | logLevelApart value => .logLevel value
  | logLevelJoined value => .logLevel value
  | path name => .path name

/-- A value is not empty and does not begin with a hyphen; a path is a hyphen or does not begin with
one. -/
def WellSpelled : CommandUnit → Prop
  | logLevelApart value | logLevelJoined value => value ≠ "" ∧ value.toList.head? ≠ some '-'
  | path name => name = "-" ∨ name.toList.head? ≠ some '-'
  | _ => True

/-- What a unit settles. A command line can settle each but once. -/
inductive Slot where
  | path
  | repl
  | sample
  | timings
  | logLevel
deriving DecidableEq, Repr

/-- The unit says where the source comes from. -/
def Slot.namesMode : Slot → Bool
  | path | repl | sample => true
  | timings | logLevel => false

def slot : CommandUnit → Slot
  | repl => .repl
  | sample => .sample
  | timings => .timings
  | logLevelApart _ | logLevelJoined _ => .logLevel
  | path _ => .path

/-- Something is settled twice, a path is empty, or two units say where the source comes from. -/
def Misused (units : List CommandUnit) : Prop :=
  ¬ (units.map slot).Nodup ∨ path "" ∈ units ∨
    ∃ u ∈ units, ∃ v ∈ units, u.slot ≠ v.slot ∧ u.slot.namesMode = true ∧ v.slot.namesMode = true

end CommandUnit

end LoxLexer
