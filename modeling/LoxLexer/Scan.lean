import LoxLexer.Diagnostic
import LoxLexer.Segment.Cut
import LoxLexer.Text.Cut
import LoxLexer.Text.Unicode
import LoxLexer.Token.Basic

/-!
# Scanning

`scan` turns source text into its tokens, ended by one end-of-source token, and the diagnostics of
what is no token. It always succeeds: faults are part of the result, and `Scan.failure?` is where
they become a failure of the run.

* `Finding`: a token or a diagnostic with the stretch of source it stands on, in the order of the
  source. A finding's line is the line that its last character ends on, so a string over several
  lines has the line of its closing quote, and a string left open that of the end of the source.
* `Scan.below`: the scan of a text that stands a number of lines further down. A text scanned below
  another gives what it gives by itself, moved down.
* `Scan.byLine`: the scans of the lines of a text, each line by itself and without the white space
  at its ends, as a session makes them. They can be put together again (`Scan.MadeUpOf`) only if no
  string goes on from one line to the next.
-/

namespace LoxLexer

/-! ## Findings -/

inductive Item where
  | token (t : Token)
  | diagnostic (d : Diagnostic)
deriving DecidableEq, Repr

/-- An item and its span, from the offset of its first character to that just past its last. -/
structure Finding where
  start : Nat
  stop : Nat
  item : Item
deriving DecidableEq, Repr

/-- What a segment that ends on this line is reported as. Blanks and comments are not reported. -/
def Segment.item? (s : Segment) (line : Nat) : Option Item :=
  let lexeme := String.ofList s.text
  match s with
  | mark m => some (.token ⟨.mark m, lexeme, none, line⟩)
  | string value => some (.token ⟨.string, lexeme, some (.string (String.ofList value)), line⟩)
  | number digits =>
    some (.token ⟨.number, lexeme, some (.number (Decimal.ofText digits).toBinary64), line⟩)
  | word _ => some (.token ⟨Kind.ofWord lexeme, lexeme, none, line⟩)
  | openString _ => some (.diagnostic ⟨.unterminatedString, line⟩)
  | stray _ => some (.diagnostic ⟨.unexpectedCharacter, line⟩)
  | blank _ => none
  | comment _ => none

namespace Finding

def token? (f : Finding) : Option Token :=
  match f.item with
  | .token t => some t
  | .diagnostic _ => none

def diagnostic? (f : Finding) : Option Diagnostic :=
  match f.item with
  | .token _ => none
  | .diagnostic d => some d

/-- The findings in segments that begin at this offset and on this line. -/
def ofSegments (offset line : Nat) : List Segment → List Finding
  | [] => []
  | s :: rest =>
    let stop := offset + s.text.length
    let endLine := line + newlines s.text
    match s.item? endLine with
    | some item => ⟨offset, stop, item⟩ :: ofSegments stop endLine rest
    | none => ofSegments stop endLine rest

def ofText (cs : List Char) : List Finding := ofSegments 0 1 (Segment.segments cs)

end Finding

/-! ## Scans -/

structure Scan where
  tokens : List Token
  errors : List Diagnostic
deriving DecidableEq, Repr

def lastLine (cs : List Char) : Nat := 1 + newlines cs

namespace Scan

def ofText (cs : List Char) : Scan :=
  let findings := Finding.ofText cs
  { tokens := findings.filterMap Finding.token? ++ [Token.eof (lastLine cs)]
    errors := findings.filterMap Finding.diagnostic? }

def hadError (s : Scan) : Bool := !s.errors.isEmpty

/-- The failure of a scan that has diagnostics. -/
def failure? (s : Scan) : Option Failure :=
  if s.hadError then some (.lexical s.errors.length) else none

/-- Scans are equal when their tokens are equal and their diagnostics the same. -/
def equal (s t : Scan) : Bool := Token.equalLists s.tokens t.tokens && s.errors == t.errors

end Scan

def scan (source : String) : Scan := Scan.ofText source.toList

/-- A small program that shows most kinds of token, two comments and strings. -/
def sampleProgram : String :=
  "\nvar sum = 1 + 2;\nvar breakfast = \"bagels\";\nprint breakfast; // \"bagels\".\n" ++
    "breakfast = \"beignets\";\nprint breakfast; // \"beignets\".\n"

/-! ## Further down -/

namespace Token

def below (n : Nat) (t : Token) : Token := { t with line := t.line + n }

@[simp] theorem below_zero (t : Token) : t.below 0 = t := rfl

theorem below_below (m n : Nat) (t : Token) : (t.below m).below n = t.below (m + n) := by
  simp [below, Nat.add_assoc]

def content (t : Token) : Kind × String × Option Literal := (t.kind, t.lexeme, t.literal)

@[simp] theorem content_below (n : Nat) (t : Token) : (t.below n).content = t.content := rfl

end Token

namespace Diagnostic

def below (n : Nat) (d : Diagnostic) : Diagnostic := { d with line := d.line + n }

@[simp] theorem below_zero (d : Diagnostic) : d.below 0 = d := rfl

theorem below_below (m n : Nat) (d : Diagnostic) : (d.below m).below n = d.below (m + n) := by
  simp [below, Nat.add_assoc]

end Diagnostic

namespace Scan

/-- The tokens that stand in the text: all but the end of the source. -/
def body (s : Scan) : List Token := s.tokens.dropLast

def below (n : Nat) (s : Scan) : Scan := ⟨s.tokens.map (.below n), s.errors.map (.below n)⟩

/-- The scan of a text followed by that of another: the end of the source is that of the second. -/
def followedBy (s t : Scan) : Scan := ⟨s.body ++ t.tokens, s.errors ++ t.errors⟩

/-- A string of the text is left open. -/
def isOpen (s : Scan) : Bool := s.errors.any (·.fault == .unterminatedString)

end Scan

/-! ## Line by line -/

/-- A string, closed or left open. -/
def Segment.isString : Segment → Bool
  | string _ | openString _ => true
  | _ => false

/-- No string of the text, closed or left open, holds a line feed. -/
def HasStringsOnLines (cs : List Char) : Prop :=
  ∀ s ∈ Segment.segments cs, s.isString = true → '\n' ∉ s.text

instance (cs : List Char) : Decidable (HasStringsOnLines cs) :=
  inferInstanceAs (Decidable (∀ s ∈ Segment.segments cs, s.isString = true → '\n' ∉ s.text))

/-- White space that is no blank of the language: by itself it is an unexpected character. -/
def isForeignSpace (c : Char) : Bool := isWhiteSpace c && !c.isWhitespace

/-- The number of unexpected characters that are reported. -/
def countStrays (errors : List Diagnostic) : Nat :=
  errors.countP (·.fault == .unexpectedCharacter)

namespace Scan

/-- The scans of the lines of a text, one by one and without the white space at their ends. -/
def byLine (cs : List Char) : List Scan := (cutAfter '\n' cs).map fun line => ofText (trim line)

/-- The scan is what the scans of lines one below the other make up, except that up to `n` of its
unexpected characters are in none of those. -/
structure MadeUpOf (s : Scan) (lines : List Scan) (n : Nat) : Prop where
  body : ∀ k, s.body.map (Token.below k) =
    (lines.zipIdx k).flatMap fun (line, i) => line.body.map (Token.below i)
  isOpen : s.isOpen = lines.any isOpen
  strays_ge : countStrays (lines.flatMap Scan.errors) ≤ countStrays s.errors
  strays_le : countStrays s.errors ≤ countStrays (lines.flatMap Scan.errors) + n

end Scan

end LoxLexer
