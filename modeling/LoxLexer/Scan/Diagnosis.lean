import LoxLexer.Diagnostic
import LoxLexer.Segment.Basic

/-!
# Diagnosis a character at a time

The faults of a text, found without cutting it. A reader keeps in mind only the region it is in:
code, code after a slash, a comment, or a string. In code a character that no token, comment or
blank can contain is a fault, and so is a text that ends in a string.
-/

namespace LoxLexer

namespace Diagnosis

/-- Where in a text a reader is. -/
inductive Region where
  | code
  /-- In code, after a slash that begins no comment as yet. -/
  | slash
  | comment
  | string
deriving DecidableEq, Repr

namespace Region

def next : Region → Char → Region
  | code, '"' => string
  | code, '/' => slash
  | code, _ => code
  | slash, '"' => string
  | slash, '/' => comment
  | slash, _ => code
  | comment, '\n' => code
  | comment, _ => comment
  | string, '"' => code
  | string, _ => string

def isCode : Region → Bool
  | code | slash => true
  | comment | string => false

/-- The region at the end of a text that begins in this one. -/
def after (region : Region) (cs : List Char) : Region := cs.foldl next region

end Region

/-- The characters of code that are neither letters, digits, underscores nor blanks. -/
def symbols : List Char :=
  ['(', ')', '\x7b', '\x7d', ',', '.', '-', '+', ';', '*', '/', '!', '=', '<', '>', '"']

/-- Code can contain the character. -/
def isExpected (c : Char) : Bool :=
  isWordPart c || symbols.contains c || [' ', '\t', '\r', '\n'].contains c

/-- The offsets of the characters that are in code and that code cannot contain, in a text that
begins in this region. -/
def strays (region : Region) (cs : List Char) : List Nat :=
  (List.range cs.length).filter fun i =>
    (region.after (cs.take i)).isCode && cs[i]?.any (!isExpected ·)

/-- The faults of a text that begins in this region and on this line. -/
def diagnose : Region → Nat → List Char → List Diagnostic
  | region, line, [] => if region = .string then [⟨.unterminatedString, line⟩] else []
  | region, line, c :: cs =>
    let rest := diagnose (region.next c) (line + newlines [c]) cs
    if region.isCode && !isExpected c then ⟨.unexpectedCharacter, line⟩ :: rest else rest

example : diagnose .code 1 "é//é\n\"é".toList =
    [⟨.unexpectedCharacter, 1⟩, ⟨.unterminatedString, 2⟩] := by decide +kernel

end Diagnosis

end LoxLexer
