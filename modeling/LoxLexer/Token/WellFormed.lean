import LoxLexer.Segment.Grammar
import LoxLexer.Token.Basic

/-!
# Well-formed tokens, their canonical text, and tokens with nothing between them

* `Token.WellFormed`: kind, lexeme and value of a token agree.
* `Token.SequenceFrom`: well-formed tokens and then the end of the source, on lines that leave room
  for the line feeds in the lexemes. These are the token lists that a scan can give.
* `canonicalText`: a text for a token list, with line feeds only where a token's line asks for them
  and one space before each token.
* `Token.standAlone`: lexemes that can stand one right after the other and still be read as they
  are. Two neighbours fuse if the second would go on with the first: a word with a word or a number,
  a number with a number, an operator with an equals sign, a slash with a slash. A point fuses with
  its two neighbours together, if they are numbers and the first has no point yet.
-/

namespace LoxLexer

/-! ## Well-formed tokens -/

namespace Token

/-- Kind, lexeme and value agree. The end of the source is no such token. -/
inductive WellFormed : Token → Prop
  | mark (m : Mark) (line : Nat) : WellFormed ⟨.mark m, m.spelling, none, line⟩
  | keyword (k : Keyword) (line : Nat) : WellFormed ⟨.keyword k, k.spelling, none, line⟩
  | identifier {letters : List Char} (line : Nat) : IsWord letters →
      (∀ k : Keyword, k.spelling.toList ≠ letters) →
      WellFormed ⟨.identifier, String.ofList letters, none, line⟩
  | number {digits : List Char} (line : Nat) : IsNumeral digits →
      WellFormed ⟨.number, String.ofList digits,
        some (.number (Decimal.ofText digits).toBinary64), line⟩
  | string {value : List Char} (line : Nat) : '"' ∉ value →
      WellFormed ⟨.string, String.ofList ('"' :: value ++ ['"']),
        some (.string (String.ofList value)), line⟩

/-- The line feeds in the lexeme. -/
def height (t : Token) : Nat := newlines t.lexeme.toList

/-- Tokens of a text that begins on this line: each begins on the line of the one before it or
below, and the end of the source comes last. -/
inductive SequenceFrom : Nat → List Token → Prop
  | eof {line last : Nat} : line ≤ last → SequenceFrom line [eof last]
  | cons {line : Nat} {t : Token} {ts : List Token} : t.WellFormed → line + t.height ≤ t.line →
      SequenceFrom t.line ts → SequenceFrom line (t :: ts)

end Token

/-- A text for tokens that begins on this line: before each lexeme a space, and before that the line
feeds that bring the lexeme's last line to the line of the token. -/
def canonicalText (line : Nat) : List Token → List Char
  | [] => []
  | t :: ts =>
    List.replicate (t.line - t.height - line) '\n' ++ ' ' :: t.lexeme.toList ++
      canonicalText t.line ts

/-! ## Neighbours -/

namespace Token

def isWord (t : Token) : Bool :=
  match t.kind with
  | .identifier | .keyword _ => true
  | _ => false

/-- The token is a mark that an equals sign makes another mark of. -/
def takesEqual (t : Token) : Bool :=
  match t.kind with
  | .mark .bang | .mark .equal | .mark .less | .mark .greater => true
  | _ => false

def beginsWithEqual (t : Token) : Bool := t.kind == .mark .equal || t.kind == .mark .equalEqual

/-- Two neighbours that are read otherwise when nothing is between them. -/
def fuses (x y : Token) : Bool :=
  (x.isWord && (y.isWord || y.kind == .number)) ||
  (x.kind == .number && y.kind == .number) ||
  (x.takesEqual && y.beginsWithEqual) ||
  (x.kind == .mark .slash && y.kind == .mark .slash)

/-- Three neighbours that are read as one number when nothing is between them. -/
def fusesAtPoint (x y z : Token) : Bool :=
  x.kind == .number && !x.lexeme.toList.contains '.' && y.kind == .mark .dot && z.kind == .number

/-- No two and no three neighbours fuse. -/
def standAlone : List Token → Bool
  | x :: y :: rest => !x.fuses y && !rest.head?.any (x.fusesAtPoint y) && standAlone (y :: rest)
  | _ => true

end Token

end LoxLexer
