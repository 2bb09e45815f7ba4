import LoxLexer.Binary64.Basic

/-!
# Tokens

A token is its kind, its lexeme (the source text it stands on), the value that a string or a number
carries, and a line. `Token.text` writes it on one row: kind, lexeme and value, apart by a space.

Its kind is a mark (punctuation or operator), a literal, a word that is a name or reserved, or the
end of the source. Marks and reserved words have one spelling each; the reserved word with a given
spelling is found by `Keyword.ofText?`.
-/

namespace LoxLexer

/-- Punctuation and operators. -/
inductive Mark where
  | leftParen | rightParen | leftBrace | rightBrace
  | comma | dot | minus | plus | semicolon | slash | star
  | bang | bangEqual | equal | equalEqual | greater | greaterEqual | less | lessEqual
deriving DecidableEq, Repr

/-- Reserved words. -/
inductive Keyword where
  | andWord | classWord | elseWord | falseWord | funWord | forWord | ifWord | nilWord | orWord
  | printWord | returnWord | superWord | thisWord | trueWord | varWord | whileWord
deriving DecidableEq, Repr

/-- What kind of token a lexeme is. -/
inductive Kind where
  | mark (m : Mark)
  | identifier
  | string
  | number
  | keyword (k : Keyword)
  | eof
deriving DecidableEq, Repr

/-! ## Marks -/

namespace Mark

def all : List Mark :=
  [leftParen, rightParen, leftBrace, rightBrace, comma, dot, minus, plus, semicolon, slash, star,
    bang, bangEqual, equal, equalEqual, greater, greaterEqual, less, lessEqual]

def spelling : Mark → String
  | leftParen => "("
  | rightParen => ")"
  | leftBrace => "\x7b"
  | rightBrace => "\x7d"
  | comma => ","
  | dot => "."
  | minus => "-"
  | plus => "+"
  | semicolon => ";"
  | slash => "/"
  | star => "*"
  | bang => "!"
  | bangEqual => "!="
  | equal => "="
  | equalEqual => "=="
  | greater => ">"
  | greaterEqual => ">="
  | less => "<"
  | lessEqual => "<="

def name : Mark → String
  | leftParen => "LEFT_PAREN"
  | rightParen => "RIGHT_PAREN"
  | leftBrace => "LEFT_BRACE"
  | rightBrace => "RIGHT_BRACE"
  | comma => "COMMA"
  | dot => "DOT"
  | minus => "MINUS"
  | plus => "PLUS"
  | semicolon => "SEMICOLON"
  | slash => "SLASH"
  | star => "STAR"
  | bang => "BANG"
  | bangEqual => "BANG_EQUAL"
  | equal => "EQUAL"
  | equalEqual => "EQUAL_EQUAL"
  | greater => "GREATER"
  | greaterEqual => "GREATER_EQUAL"
  | less => "LESS"
  | lessEqual => "LESS_EQUAL"

/-- The mark of one character. -/
def ofChar? : Char → Option Mark
  | '(' => some leftParen
  | ')' => some rightParen
  | '\x7b' => some leftBrace
  | '\x7d' => some rightBrace
  | ',' => some comma
  | '.' => some dot
  | '-' => some minus
  | '+' => some plus
  | ';' => some semicolon
  | '/' => some slash
  | '*' => some star
  | '!' => some bang
  | '=' => some equal
  | '>' => some greater
  | '<' => some less
  | _ => none

/-- The mark of two characters that an equals sign makes of a mark of one. -/
def withEqual? : Mark → Option Mark
  | bang => some bangEqual
  | equal => some equalEqual
  | greater => some greaterEqual
  | less => some lessEqual
  | _ => none

theorem toList_spelling_ne_nil (m : Mark) : m.spelling.toList ≠ [] := by cases m <;> decide

theorem toList_spelling_of_ofChar? {c : Char} {m : Mark} (h : ofChar? c = some m) :
    m.spelling.toList = [c] := by
  unfold ofChar? at h
  split at h <;> cases h <;> decide

theorem toList_spelling_of_withEqual? {m m' : Mark} (h : m.withEqual? = some m') :
    m'.spelling.toList = m.spelling.toList ++ ['='] := by
  cases m <;> cases h <;> decide

end Mark

/-! ## Reserved words -/

namespace Keyword

def all : List Keyword :=
  [andWord, classWord, elseWord, falseWord, funWord, forWord, ifWord, nilWord, orWord, printWord,
    returnWord, superWord, thisWord, trueWord, varWord, whileWord]

def spelling : Keyword → String
  | andWord => "and"
  | classWord => "class"
  | elseWord => "else"
  | falseWord => "false"
  | funWord => "fun"
  | forWord => "for"
  | ifWord => "if"
  | nilWord => "nil"
  | orWord => "or"
  | printWord => "print"
  | returnWord => "return"
  | superWord => "super"
  | thisWord => "this"
  | trueWord => "true"
  | varWord => "var"
  | whileWord => "while"

def name (k : Keyword) : String := k.spelling.map Char.toUpper

/-- The reserved word spelled exactly so, case included. -/
def ofText? (text : String) : Option Keyword := all.find? (·.spelling == text)

/-- A word is the reserved word `k` exactly when it is spelled like it. -/
theorem ofText?_eq_some_iff {text : String} {k : Keyword} :
    ofText? text = some k ↔ k.spelling = text := by
  constructor
  · intro h
    simpa using List.find?_some h
  · rintro rfl
    cases k <;> decide

end Keyword

/-! ## Kinds -/

namespace Kind

def all : List Kind :=
  Mark.all.map mark ++ [identifier, string, number] ++ Keyword.all.map keyword ++ [eof]

def name : Kind → String
  | mark m => m.name
  | identifier => "IDENTIFIER"
  | string => "STRING"
  | number => "NUMBER"
  | keyword k => k.name
  | eof => "EOF"

def ofName? (name : String) : Option Kind := all.find? (·.name == name)

/-- The kind of a word: reserved if it is spelled like a reserved word, otherwise a name. -/
def ofWord (text : String) : Kind :=
  match Keyword.ofText? text with
  | some k => keyword k
  | none => identifier

end Kind

/-! ## Tokens -/

/-- The value that a token carries. -/
inductive Literal where
  /-- The text between the quotes of a string, as it stands. -/
  | string (value : String)
  /-- The value of a numeral. -/
  | number (value : Binary64)
deriving DecidableEq, Repr

namespace Literal

def text : Literal → String
  | string value => value
  | number value => String.ofList value.text

/-- Strings are equal by their text, numbers by `Binary64.equal`. -/
def equal : Literal → Literal → Bool
  | string a, string b => a == b
  | number a, number b => a.equal b
  | _, _ => false

end Literal

structure Token where
  kind : Kind
  lexeme : String
  literal : Option Literal
  /-- The line of the last character of the lexeme. -/
  line : Nat
deriving DecidableEq, Repr

namespace Token

def eof (line : Nat) : Token := ⟨.eof, "", none, line⟩

/-- Kind, lexeme and value; a token without a value says so. -/
def text (t : Token) : String :=
  t.kind.name ++ " " ++ t.lexeme ++ " " ++ (t.literal.map Literal.text).getD "null"

/-- Equality of the values that two tokens carry, both carrying one or neither. -/
def equalLiterals : Option Literal → Option Literal → Bool
  | none, none => true
  | some a, some b => a.equal b
  | _, _ => false

/-- Tokens are equal when kind, lexeme, value and line are; a token that carries a NaN is not equal
to itself. -/
def equal (s t : Token) : Bool :=
  s.kind == t.kind && s.lexeme == t.lexeme && equalLiterals s.literal t.literal && s.line == t.line

/-- Token lists are equal when they have the same length and equal tokens at each place. -/
def equalLists : List Token → List Token → Bool
  | [], [] => true
  | s :: ss, t :: ts => s.equal t && equalLists ss ts
  | _, _ => false

end Token

end LoxLexer
