import LoxLexer.Binary64.Basic
import LoxLexer.Event.Basic
import LoxLexer.Event.Pattern
import LoxLexer.Text.Cut
import LoxLexer.Text.Unicode

/-!
# Filters of events

A filter says which events are written as log lines. It is a list of directives, and of those that
speak about an event the most specific decides: the one with the longest target, then one that names
a field, fields in the order of their names, and of two that are the same the last. An event that no
directive speaks about is not written.

The text of a filter is a list of directives apart by commas, in which empty pieces do not count. It
is read strictly (`Filter.parse?`: one directive that cannot be read makes the text no filter) or
leniently (`Filter.parseLenient`: what cannot be read is left out and reported). A filter without
directives lets errors through.

A single directive lets events through up to a threshold: a level, named or numbered, or no event at
all. It says which events it speaks about: those whose target starts with a text, those inside a
span, those that carry a field, or carry it with a value. No event here is inside a span, so
directives that name a span or a value speak about none (`Directive.isStatic`).

A directive is written `target[span{field=value}]=level`, where every part may be missing; a
word alone is a level if it can be, and a target otherwise; without a level all levels are let
through. White space at the ends is passed over when the parts are found, but each part is then
taken from the same byte offsets of the text with its white space. After leading white space
the parts are therefore not the ones that were found.
-/

namespace LoxLexer

/-! ## Thresholds -/

/-- The least important level that is let through, or `none` if none is. -/
abbrev Threshold := Option Level

namespace Threshold

def admits (t : Threshold) (level : Level) : Bool := t.any (level.rank ≤ ·.rank)

/-- The thresholds by name; the place of a threshold is its number. -/
def named : List (String × Threshold) :=
  [("off", none), ("error", some .error), ("warn", some .warn), ("info", some .info),
    ("debug", some .debug), ("trace", some .trace)]

/-- The value of a row of digits, which a plus sign may precede. -/
def number? (text : List Char) : Option Nat :=
  let digits := if text.head? = some '+' then text.tail else text
  if digits ≠ [] ∧ digits.all Char.isDigit then some (Decimal.digitsValue digits) else none

/-- Reads a threshold: its number, or its name in any mixture of cases. -/
def ofText? (text : List Char) : Option Threshold :=
  match number? text with
  | some n => (named[n]?).map (·.2)
  | none => named.lookup (String.ofList (text.map Char.toLower))

end Threshold

/-! ## Directives -/

/-- A field that an event must carry, and the value asked of it. -/
structure FieldPattern where
  name : String
  value : Option String
deriving DecidableEq, Repr

/-- Events that the directive speaks about are let through if the threshold admits their level. -/
structure Directive where
  /-- What the event's target starts with. -/
  target : String
  /-- The span that the event is inside of. -/
  span : Option String := none
  field : Option FieldPattern := none
  threshold : Threshold
deriving DecidableEq, Repr

inductive DirectiveFault where
  | malformed
  | unknownLevel
  /-- The value asked of a field is no pattern. -/
  | badPattern
deriving DecidableEq, Repr

namespace DirectiveFault

def message : DirectiveFault → String
  | malformed => "invalid filter directive"
  | unknownLevel =>
    "error parsing level filter: expected one of \"off\", \"error\", \"warn\", \"info\", " ++
      "\"debug\", \"trace\", or a number 0-5"
  | badPattern => "invalid field filter: error building NFA"

end DirectiveFault

/-- The event carries a field of this name; every event carries its message. -/
def Event.hasField (e : Event) (name : String) : Bool :=
  name == "message" || e.fields.any (·.1 == name)

namespace Directive

/-! ## Which events -/

def isStatic (d : Directive) : Bool := d.span.isNone && d.field.all (·.value.isNone)

def appliesTo (d : Directive) (e : Event) : Bool :=
  d.isStatic && d.target.toList.isPrefixOf e.target.toList && d.field.all fun f => e.hasField f.name

def fieldName (d : Directive) : String := (d.field.map FieldPattern.name).getD ""

/-- The second of two directives is at least as specific as the first: its target is longer, or it
is as long and the name of its field does not come before that of the first. -/
def yieldsTo (d d' : Directive) : Bool :=
  d.target.length < d'.target.length ||
    (d.target.length == d'.target.length && d.fieldName ≤ d'.fieldName)

/-! ## Reading -/

/-- A directive begins with a letter or a number of any script, a hyphen, a colon, an underscore or
an opening bracket. -/
def mayBegin (c : Char) : Bool := isAlphanumeric c || ['-', ':', '_', '['].contains c

/-- What stands in the text where the part was found. -/
def partAt (text : List Char) (start : Nat) (part : List Char) :
    Except DirectiveFault (List Char) :=
  match bytesAt? start (byteLength part) text with
  | some found => .ok found
  | none => .error .malformed

/-- The threshold that the text has from a byte offset on. -/
def thresholdAt (text : List Char) (start : Nat) : Except DirectiveFault Threshold :=
  match dropBytes? start text with
  | none => .error .malformed
  | some [] => .ok (some .trace)
  | some level =>
    match Threshold.ofText? level with
    | some threshold => .ok threshold
    | none => .error .unknownLevel

/-- A level alone, or a target whose levels are all let through. -/
def ofWord (text : List Char) : Directive :=
  match Threshold.ofText? text with
  | some threshold => { target := "", threshold }
  | none => { target := String.ofList text, threshold := some .trace }

/-- Reads the field and the value that is asked of it. -/
def parseField (text : List Char) : Except DirectiveFault FieldPattern :=
  let name := String.ofList (text.takeWhile (· != '='))
  match text.dropWhile (· != '=') with
  | [] => .ok ⟨name, none⟩
  | _ :: rest =>
    let value := rest.takeWhile (· != '=')
    if isPattern value then .ok ⟨name, some (String.ofList value)⟩ else .error .badPattern

/-- Reads what follows a closing bracket at this byte offset. -/
def parseLevel (text : List Char) (start : Nat) : List Char → Except DirectiveFault Threshold
  | [] => .ok (some .trace)
  | '=' :: _ => thresholdAt text (start + 1)
  | _ => .error .malformed

/-- Reads what follows an opening bracket. The rest of the directive begins at this byte offset. -/
def parseBracket (text : List Char) (target : String) (start : Nat) (rest : List Char) :
    Except DirectiveFault Directive := do
  let span := rest.takeWhile fun c => c != ']' && c != '\x7b'
  let stop := start + byteLength span
  let name ← partAt text start span
  match rest.drop span.length with
  | ']' :: rest =>
    let threshold ← parseLevel text (stop + 1) rest
    return { target, span := some (String.ofList name), threshold }
  | '\x7b' :: rest =>
    let found := rest.takeWhile (· != '\x7d')
    let after := rest.drop found.length
    if found.isEmpty || after.isEmpty then throw .malformed
    let field ← parseField (← partAt text (stop + 1) found)
    match after with
    | _ :: ']' :: rest =>
      let threshold ← parseLevel text (stop + byteLength found + 3) rest
      return {
        target
        span := if name.isEmpty then none else some (String.ofList name)
        field := some field
        threshold }
    | _ => throw .malformed
  | _ => throw .malformed

def parse (text : List Char) : Except DirectiveFault Directive := do
  let directive := trim text
  let target := directive.takeWhile fun c => c != '=' && c != '['
  let stop := byteLength target
  if !directive.head?.any mayBegin then throw .malformed
  match directive.drop target.length with
  | [] => return ofWord text
  | '=' :: _ =>
    let name ← partAt text 0 target
    let threshold ← thresholdAt text (stop + 1)
    return { target := String.ofList name, threshold }
  | _ :: rest => parseBracket text (String.ofList (← partAt text 0 target)) (stop + 1) rest

/-- A directive with all its parts. -/
example : (parse "lox[s\x7bline=1\x7d]=Debug".toList).toOption =
    some ⟨"lox", some "s", some ⟨"line", some "1"⟩, some .debug⟩ := by decide +kernel

/-- After a space the word is no longer a level, and the level no longer stands where it is
sought. -/
example : (parse " debug".toList).toOption = some ⟨" debug", none, none, some .trace⟩ ∧
    (parse " lox=debug".toList) matches .error .unknownLevel := by decide +kernel

end Directive

/-! ## Filters -/

structure Filter where
  directives : List Directive
deriving DecidableEq, Repr

namespace Filter

/-- The filter of these directives, or the one that lets errors through if there are none. -/
def ofDirectives (directives : List Directive) : Filter :=
  if directives.isEmpty then ⟨[{ target := "", threshold := some .error }]⟩ else ⟨directives⟩

/-- The later of two directives, unless the earlier is more specific. -/
def moreSpecific (best : Option Directive) (d : Directive) : Option Directive :=
  if best.all (·.yieldsTo d) then some d else best

def deciding? (f : Filter) (e : Event) : Option Directive :=
  (f.directives.filter (·.appliesTo e)).foldl moreSpecific none

def admits (f : Filter) (e : Event) : Bool := (f.deciding? e).any (·.threshold.admits e.level)

def pieces (text : String) : List (List Char) := (text.toList.splitOn ',').filter (· ≠ [])

def parse? (text : String) : Option Filter :=
  ((pieces text).mapM fun piece => (Directive.parse piece).toOption).map ofDirectives

def parseLenient (text : String) : Filter :=
  ofDirectives ((pieces text).filterMap fun piece => (Directive.parse piece).toOption)

/-- The report on a piece that cannot be read. -/
def complaint? (piece : List Char) : Option String :=
  match Directive.parse piece with
  | .ok _ => none
  | .error fault => some ("ignoring `" ++ String.ofList piece ++ "`: " ++ fault.message ++ "\n")

/-- The reports on the pieces that a lenient reading leaves out. -/
def complaints (text : String) : List String := (pieces text).filterMap complaint?

/-- The empty text lets errors through. -/
example : parse? "" = some ⟨[{ target := "", threshold := some .error }]⟩ := by decide +kernel

/-- A directive that cannot be read makes the text no filter, or is left out. -/
example : parse? "info,a=b" = none ∧
    parseLenient "info,a=b" = ⟨[{ target := "", threshold := some .info }]⟩ := by
  decide +kernel

end Filter

end LoxLexer
