import LoxLexer.Token.Basic

/-!
# Segments of source text

Source text falls into segments: marks, strings, numerals and words, which become tokens; blanks and
comments, which become nothing; stray characters and strings left open, which are faults. A segment
holds what its class leaves free, and `Segment.text` is the stretch of source that it stands for.

Which characters begin and continue a word is ASCII only, as are digits and blanks, which are core's
`Char.isDigit` and `Char.isWhitespace` (space, tab, carriage return, line feed): a letter of another
script belongs to none of these classes.
-/

namespace LoxLexer

/-! ## The alphabet -/

def isWordStart (c : Char) : Bool := c.isAlpha || c == '_'

def isWordPart (c : Char) : Bool := isWordStart c || c.isDigit

def newlines (text : List Char) : Nat := text.count '\n'

@[simp] theorem newlines_nil : newlines [] = 0 := rfl

@[simp] theorem newlines_append (s t : List Char) : newlines (s ++ t) = newlines s + newlines t :=
  List.count_append

theorem newlines_cons (c : Char) (s : List Char) :
    newlines (c :: s) = newlines s + if c = '\n' then 1 else 0 := by
  simp [newlines, List.count_cons]

/-! ## Segments -/

/-- A stretch of source text of one class. -/
inductive Segment where
  | mark (m : Mark)
  | blank (c : Char)
  /-- Two slashes and the text after them. -/
  | comment (body : List Char)
  /-- The text between two quotes. -/
  | string (value : List Char)
  | number (digits : List Char)
  | word (letters : List Char)
  /-- The text after a quote that has no partner. -/
  | openString (value : List Char)
  /-- A character that begins no segment of another class. -/
  | stray (c : Char)
deriving DecidableEq, Repr

namespace Segment

def text : Segment → List Char
  | mark m => m.spelling.toList
  | blank c => [c]
  | comment body => '/' :: '/' :: body
  | string value => '"' :: value ++ ['"']
  | number digits => digits
  | word letters => letters
  | openString value => '"' :: value
  | stray c => [c]

end Segment

end LoxLexer
