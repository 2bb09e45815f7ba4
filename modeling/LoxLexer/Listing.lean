import LoxLexer.Diagnostic
import LoxLexer.Text.Cut
import LoxLexer.Token.Basic

/-!
# Listings

A token listing has a row per token: a gutter, then the token's text. The gutter shows the token's
line, or a bar if that is the line of the token above. A diagnostic listing has a row per
diagnostic. Every row ends with a line feed, and a lexeme or string that holds line feeds is written
as it stands.

* `Listing.linesShown?`: the lines that gutters show, read from the top. A bar means the line of the
  row above, and anything else is a line number with spaces before it and one space after it.
* `Listing.HasLinePerToken`: the lines of a listing, as a reader of the text cuts it at the line
  feeds, are its rows. The gutter of a row looks back at the token above by its place in the list.
-/

namespace LoxLexer

namespace Listing

/-- The gutter of a token on the line of the token above it. -/
def bar : String := "   | "

/-- A line number, right-aligned to at least four columns, and a space. -/
def lineGutter (line : Nat) : String :=
  String.ofList ((Nat.toDigits 10 line).leftpad 4 ' ') ++ " "

/-- The gutter of a token on this line below a token on the previous line, if there is one above. -/
def gutter (previous : Option Nat) (line : Nat) : String :=
  if previous = some line then bar else lineGutter line

/-- The rows of tokens that stand below a token on the previous line. -/
def rowsBelow (previous : Option Nat) : List Token → List String
  | [] => []
  | t :: ts => (gutter previous t.line ++ t.text) :: rowsBelow (some t.line) ts

def rows (tokens : List Token) : List String := rowsBelow none tokens

/-- Rows one below the other, each ended by a line feed. -/
def ofRows (rows : List String) : String := String.join (rows.map (· ++ "\n"))

example : lineGutter 7 = "   7 " := by decide +kernel

example : lineGutter 12345 = "12345 " := by decide +kernel

end Listing

def tokenListing (tokens : List Token) : String := Listing.ofRows (Listing.rows tokens)

def errorListing (errors : List Diagnostic) : String := Listing.ofRows (errors.map Diagnostic.text)

/-! ## Reading gutters -/

namespace Listing

/-- Reads the gutter of a row below a row on the previous line, if there is one above. -/
def lineShown? (previous : Option Nat) (row : List Char) : Option Nat :=
  if bar.toList.isPrefixOf row then previous
  else
    let number := row.dropWhile (· == ' ')
    let digits := number.takeWhile Char.isDigit
    if digits ≠ [] ∧ (number.dropWhile Char.isDigit).head? = some ' ' then
      some (Decimal.digitsValue digits)
    else none

/-- Reads the gutters of rows that stand below a row on the previous line. -/
def linesShown? (previous : Option Nat) : List (List Char) → Option (List Nat)
  | [] => some []
  | row :: rows => do
    let line ← lineShown? previous row
    let lines ← linesShown? (some line) rows
    return line :: lines

example : lineShown? (some 3) "   | EOF  null".toList = some 3 := by decide +kernel

example : lineShown? (some 3) "12345 EOF  null".toList = some 12345 := by decide +kernel

end Listing

/-! ## Lines of a listing -/

namespace Listing

/-- The lines of a text, each with its line feed. What comes behind the last line feed is a line
too. -/
def lines (text : String) : List (List Char) := cutAfter '\n' text.toList

/-- The line of the token above a place among tokens that stand below a token on the previous
line. -/
def lineAbove? (previous : Option Nat) (tokens : List Token) : Nat → Option Nat
  | 0 => previous
  | i + 1 => tokens[i]?.map Token.line

/-- There are as many lines as tokens, and the line of each token is its gutter and its text. -/
structure HasLinePerToken (tokens : List Token) : Prop where
  length_eq : (lines (tokenListing tokens)).length = tokens.length
  line_eq : ∀ (i : Nat) (t : Token), tokens[i]? = some t →
    (lines (tokenListing tokens))[i]? =
      some (gutter (lineAbove? none tokens i) t.line ++ t.text ++ "\n").toList

end Listing

end LoxLexer
