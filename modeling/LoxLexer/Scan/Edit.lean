import LoxLexer.Scan

/-!
# Edits of a source

Changes of a source that leave its tokens what they are.

* `repair`: a space in place of each stray character, and of a string left open only its line feeds.
  The tokens and their lines stay where they are. `repair` mends the segments of a text,
  `Finding.mend` one finding in its place.
* `crlf`: a carriage return before each line feed, and what becomes of the tokens.
* `IsLayoutRun`: what may stand between two tokens instead of a blank. It begins with a blank and
  goes on with blanks and comments, each comment ended by a line feed inside the run.
-/

namespace LoxLexer

/-! ## Repair -/

namespace Segment

/-- The segment's text, or what takes its place if it is a fault. -/
def mended (s : Segment) : List Char :=
  match s with
  | stray _ => [' ']
  | openString value => List.replicate (newlines value) '\n'
  | _ => s.text

end Segment

def repair (cs : List Char) : List Char := (Segment.segments cs).flatMap Segment.mended

example : repair "1é.5 \"a\nb".toList = "1 .5 \n".toList := by decide +kernel

/-- What takes the place of a fault: a space for an unexpected character, and for an unterminated
string the line feeds in it. -/
def Fault.patch : Fault → List Char → List Char
  | unexpectedCharacter, _ => [' ']
  | unterminatedString, span => span.filter (· == '\n')

/-- The text with a patch in place of the span of the finding, if that is a fault. -/
def Finding.mend (f : Finding) (cs : List Char) : List Char :=
  match f.item with
  | .token _ => cs
  | .diagnostic d =>
    cs.take f.start ++ d.fault.patch (cs.extract f.start f.stop) ++ cs.drop f.stop

/-! ## Line ends -/

/-- The text with a carriage return put before every line feed. -/
def crlf (cs : List Char) : List Char := cs.flatMap fun c => if c = '\n' then ['\r', '\n'] else [c]

@[simp] theorem crlf_nil : crlf [] = [] := rfl

@[simp] theorem crlf_append (s t : List Char) : crlf (s ++ t) = crlf s ++ crlf t :=
  List.flatMap_append

@[simp] theorem newlines_crlf (cs : List Char) : newlines (crlf cs) = newlines cs := by
  induction cs with
  | nil => rfl
  | cons c cs ih =>
    have step : crlf (c :: cs) = (if c = '\n' then ['\r', '\n'] else [c]) ++ crlf cs := rfl
    rw [step, newlines_append, ih, newlines_cons]
    split <;> simp_all [newlines, Nat.add_comm]

namespace Literal

/-- The value with the line ends of a string's text changed. -/
def crlf : Literal → Literal
  | string value => string (String.ofList (LoxLexer.crlf value.toList))
  | number value => number value

end Literal

namespace Token

/-- The token with the line ends of its lexeme and its value changed. -/
def crlf (t : Token) : Token :=
  { t with lexeme := String.ofList (LoxLexer.crlf t.lexeme.toList), literal := t.literal.map .crlf }

end Token

/-! ## Layout -/

/-- Blanks and comments with their line feeds, or nothing. -/
inductive Layout : List Char → Prop
  | nil : Layout []
  | blank {c : Char} {cs : List Char} : c.isWhitespace = true → Layout cs → Layout (c :: cs)
  | comment {body cs : List Char} : '\n' ∉ body → Layout cs →
      Layout ('/' :: '/' :: body ++ '\n' :: cs)

/-- Layout that begins with a blank. -/
def IsLayoutRun (cs : List Char) : Prop :=
  Layout cs ∧ ∃ c rest, cs = c :: rest ∧ c.isWhitespace = true

theorem IsLayoutRun.ne_nil {cs : List Char} (h : IsLayoutRun cs) : cs ≠ [] := by
  obtain ⟨-, c, rest, rfl, -⟩ := h
  simp

end LoxLexer
