import LoxLexer.Segment.Basic

/-!
# The grammar of segments

The classes of the language, each a set of texts, said apart from the way a text is cut.

* `Ordinary`: the segment's text is in the class that its constructor names. No text of these
  classes is empty (`Ordinary.text_ne_nil`).
* `Lexical`: ordinary, or a stray: a character that begins no ordinary text.
* `Leading`: of the lexical segments that a text begins with, the longest.
* `Segmentation`: a text falls into these segments, each the leading one of what is left.
-/

namespace LoxLexer

def IsDigits (cs : List Char) : Prop := cs ≠ [] ∧ ∀ c ∈ cs, c.isDigit = true

/-- Digits, or digits on both sides of a point. -/
def IsNumeral (cs : List Char) : Prop :=
  IsDigits cs ∨ ∃ whole fraction, IsDigits whole ∧ IsDigits fraction ∧ cs = whole ++ '.' :: fraction

def IsWord (cs : List Char) : Prop :=
  ∃ c rest, cs = c :: rest ∧ isWordStart c = true ∧ ∀ d ∈ rest, isWordPart d = true

theorem IsDigits.ne_nil {cs : List Char} (h : IsDigits cs) : cs ≠ [] := h.1

theorem IsNumeral.ne_nil {cs : List Char} (h : IsNumeral cs) : cs ≠ [] := by
  rcases h with h | ⟨whole, fraction, -, -, rfl⟩
  · exact h.ne_nil
  · simp

theorem IsWord.ne_nil {cs : List Char} (h : IsWord cs) : cs ≠ [] := by
  obtain ⟨c, rest, rfl, -⟩ := h
  simp

namespace Segment

/-- The segment's text is in its class. A stray is of no class. -/
def Ordinary : Segment → Prop
  | mark _ => True
  | blank c => c ∈ [' ', '\t', '\r', '\n']
  | comment body => '\n' ∉ body
  | string value => '"' ∉ value
  | number digits => IsNumeral digits
  | word letters => IsWord letters
  | openString value => '"' ∉ value
  | stray _ => False

/-- The segment is ordinary, or it is a character that begins no ordinary segment. -/
def Lexical (s : Segment) : Prop :=
  s.Ordinary ∨ ∃ c, s = stray c ∧ ∀ t : Segment, t.Ordinary → t.text.head? ≠ some c

/-- The longest lexical segment that the text begins with. -/
structure Leading (s : Segment) (cs : List Char) : Prop where
  lexical : s.Lexical
  begins : s.text <+: cs
  longest : ∀ t : Segment, t.Lexical → t.text <+: cs → t.text.length ≤ s.text.length

/-- The text falls into these segments, each the leading one of what is left. -/
inductive Segmentation : List Char → List Segment → Prop
  | nil : Segmentation [] []
  | cons {s : Segment} {cs : List Char} {ss : List Segment} :
      s.Leading (s.text ++ cs) → Segmentation cs ss → Segmentation (s.text ++ cs) (s :: ss)

theorem Ordinary.text_ne_nil {s : Segment} (h : s.Ordinary) : s.text ≠ [] := by
  cases s with
  | mark m => exact m.toList_spelling_ne_nil
  | number digits => exact IsNumeral.ne_nil h
  | word letters => exact IsWord.ne_nil h
  | stray c => exact h.elim
  | blank c | comment body | string value | openString value => simp [text]

theorem Lexical.text_ne_nil {s : Segment} (h : s.Lexical) : s.text ≠ [] := by
  rcases h with h | ⟨c, rfl, -⟩
  · exact h.text_ne_nil
  · simp [text]

end Segment

end LoxLexer
