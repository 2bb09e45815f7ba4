import LoxLexer.Command.Report
import LoxLexer.Text.Unicode

/-!
# Sessions at the prompt

A session prompts for a line, scans what is on it without the white space at its ends, and prompts
again. It ends at the end of the input, at a line that says `exit` or `quit`, or at a line that is
no UTF-8 text; faults in what it scans do not end it. Every entry is scanned by itself, from line
one.

`step` is what a session does with one line. `outputs` takes a step for each line of an input that
is there as a whole; at the prompt the same steps are taken as the lines are typed.

`Session.Course` says which lines a session scans, of all lines at once: those before the first that
is no UTF-8 text or that says `exit` or `quit`, in any mixture of cases and between white space.
-/

namespace LoxLexer

namespace Session

/-- A line typed at the prompt. -/
inductive Entry where
  | source (text : List Char)
  /-- The line ends the session. -/
  | stop
  /-- The line's bytes are no UTF-8 text. -/
  | notText
deriving DecidableEq, Repr

/-- The text ends a session, in any mixture of cases. -/
def isStopWord (text : List Char) : Bool :=
  let word := text.map Char.toLower
  word == "exit".toList || word == "quit".toList

/-- Reads the bytes of a line, its line feed included. -/
def Entry.ofBytes (line : List UInt8) : Entry :=
  match String.fromUTF8? ⟨line.toArray⟩ with
  | none => notText
  | some text =>
    let entry := trim text.toList
    if isStopWord entry then stop else source entry

def prompt : Output := .out "> "

def farewell : Output := .out "Exiting.\n"

/-- What an entry makes the session write, and whether the session goes on. -/
def respond (settings : LogSettings) : Entry → List Output × Bool
  | .source text => (report settings "repl" text, true)
  | .stop => ([], false)
  | .notText => ([.err (ReadFault.notText.message ++ "\n")], false)

/-- What a session writes once it has read a line, or none at the end of its input, and whether it
goes on: it answers, and prompts for the next line or takes its leave. -/
def step (settings : LogSettings) : Option (List UInt8) → List Output × Bool
  | none => ([farewell], false)
  | some line =>
    let (response, goesOn) := respond settings (Entry.ofBytes line)
    (response ++ [if goesOn then prompt else farewell], goesOn)

/-- What the steps write that a session takes on these lines. -/
def answers (settings : LogSettings) : List (List UInt8) → List Output
  | [] => (step settings none).1
  | line :: lines =>
    let (written, goesOn) := step settings (some line)
    written ++ if goesOn then answers settings lines else []

/-- What a session writes whose input has these lines. -/
def outputs (settings : LogSettings) (lines : List (List UInt8)) : List Output :=
  prompt :: answers settings lines

/-! ## The course of a session -/

/-- The bytes are those of a text. -/
def isText (bytes : List UInt8) : Bool := (String.fromUTF8? ⟨bytes.toArray⟩).isSome

/-- Of these lines a session scans those in `scanned`, and `rest` are the lines from the one on that
ends it: none if the input ends first. -/
structure Course (lines : List (List UInt8)) (scanned : List (List Char))
    (rest : List (List UInt8)) : Prop where
  eq_append : lines = scanned.map utf8 ++ rest
  goesOn : ∀ line ∈ scanned, (trim line).map Char.toLower ∉ ["exit".toList, "quit".toList]
  ends : ∀ line ∈ rest.head?, ∀ text, line = utf8 text →
    (trim text).map Char.toLower ∈ ["exit".toList, "quit".toList]

end Session

end LoxLexer
