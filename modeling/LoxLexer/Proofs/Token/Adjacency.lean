import LoxLexer.Proofs.Segment.Row
import LoxLexer.Proofs.Token.WellFormed
import LoxLexer.Token.WellFormed
import Mathlib.Data.List.Forall2

/-!
# Neighbouring tokens and the ends of their lexemes

`row_iff_standAlone`: the segments that tokens are read off stand in a row with nothing between them
exactly if no two and no three of the tokens fuse.

* `head_text_cases`: the kind of a token tells the class of the first character of its lexeme.
* `endsBefore_append_iff`: so the kinds of the tokens behind a segment tell whether it ends there.
  Only a number with a point behind it has to look past the next token.
-/

namespace LoxLexer

/-! ## Neighbours in a list -/

namespace Token

/-- Tokens stand alone if none of their neighbours fuse, by twos or by threes. -/
theorem standAlone_iff {ts : List Token} : standAlone ts = true ↔
    (∀ x y, [x, y] <:+: ts → x.fuses y = false) ∧
      ∀ x y z, [x, y, z] <:+: ts → x.fusesAtPoint y z = false := by
  induction ts with
  | nil => simp [standAlone]
  | cons x ts ih =>
    obtain _ | ⟨y, ts⟩ := ts
    · simp [standAlone, List.infix_cons_iff]
    have htwo : (∀ a b, [a, b] <:+: x :: y :: ts → a.fuses b = false) ↔
        x.fuses y = false ∧ ∀ a b, [a, b] <:+: y :: ts → a.fuses b = false := by
      simp [List.infix_cons_iff (a := x), or_imp, forall_and]
    have hthree : (∀ a b c, [a, b, c] <:+: x :: y :: ts → a.fusesAtPoint b c = false) ↔
        ts.head?.any (x.fusesAtPoint y) = false ∧
          ∀ a b c, [a, b, c] <:+: y :: ts → a.fusesAtPoint b c = false := by
      obtain _ | ⟨z, ts⟩ := ts
      · simp [List.infix_cons_iff (a := x)]
      · simp only [List.infix_cons_iff (a := x), List.cons_prefix_cons, List.nil_prefix, and_true,
          or_imp, forall_and]
        refine and_congr_left fun _ => ⟨fun h => h x y z ⟨rfl, rfl, rfl⟩, ?_⟩
        rintro h a b c ⟨rfl, rfl, rfl⟩
        exact h
    simp only [standAlone, Bool.and_eq_true, Bool.not_eq_true', ih, htwo, hthree]
    exact and_and_and_comm

theorem isWord_ofWord (text lexeme : String) (literal : Option Literal) (line : Nat) :
    isWord ⟨Kind.ofWord text, lexeme, literal, line⟩ = true := by
  rw [isWord, Kind.ofWord]
  cases Keyword.ofText? text <;> rfl

theorem takesEqual_mark (m : Mark) (lexeme : String) (literal : Option Literal) (line : Nat) :
    takesEqual ⟨.mark m, lexeme, literal, line⟩ = m.withEqual?.isSome := by
  cases m <;> rfl

/-- A word is neither a number nor a mark. -/
theorem kind_ne_of_isWord {t : Token} (h : t.isWord = true) :
    t.kind ≠ .number ∧ ∀ m, t.kind ≠ .mark m := by
  constructor
  · intro hk
    simp [isWord, hk] at h
  · intro m hk
    simp [isWord, hk] at h

theorem takesEqual_of_isWord {t : Token} (h : t.isWord = true) : t.takesEqual = false := by
  rw [takesEqual]
  split <;> simp_all [isWord]

end Token

/-! ## The first character of a lexeme -/

namespace Mark

theorem classes_of_head? {m : Mark} {c : Char} (h : m.spelling.toList.head? = some c) :
    c.isWhitespace = false ∧ c ≠ '"' ∧ c.isDigit = false ∧ isWordStart c = false := by
  obtain ⟨d, ⟨hm, ht⟩ | ⟨m', hm, -, ht⟩⟩ := m.spelling_cases
  all_goals
    rw [ht] at h
    cases h
    exact classes_of_ofChar? hm

theorem head?_eq_equal_iff {m : Mark} :
    m.spelling.toList.head? = some '=' ↔ m = .equal ∨ m = .equalEqual := by
  cases m <;> decide

theorem head?_eq_slash_iff {m : Mark} : m.spelling.toList.head? = some '/' ↔ m = .slash := by
  cases m <;> decide

theorem head?_eq_point_iff {m : Mark} : m.spelling.toList.head? = some '.' ↔ m = .dot := by
  cases m <;> decide

end Mark

namespace Segment

/-- The token is read off the segment, on some line. -/
def Reads (s : Segment) (t : Token) : Prop := s.Lexical ∧ ∃ line, s.item? line = some (.token t)

section
variable {s : Segment} {t : Token} (h : s.Reads t)
include h

/-- **The kind of a token** tells the class of the first character of its lexeme. -/
theorem head_text_cases : ∃ c tail, s.text = c :: tail ∧
    (t.kind = .number ∧ c.isDigit = true ∨ t.isWord = true ∧ isWordStart c = true ∨
      t.kind = .string ∧ c = '"' ∨
      ∃ m, t.kind = .mark m ∧ m.spelling.toList = c :: tail) := by
  obtain ⟨hs, line, ht⟩ := h
  obtain ⟨c, tail, hc⟩ := List.exists_cons_of_ne_nil hs.text_ne_nil
  refine ⟨c, tail, hc, ?_⟩
  have hs : s.Ordinary := by
    rcases hs with hs | ⟨d, rfl, -⟩
    · exact hs
    · cases ht
  cases s with
  | mark m =>
    cases ht
    exact .inr (.inr (.inr ⟨m, rfl, hc⟩))
  | string value =>
    cases ht
    cases hc
    exact .inr (.inr (.inl ⟨rfl, rfl⟩))
  | number digits =>
    cases ht
    exact .inl ⟨rfl, IsNumeral.isDigit_head hs (congrArg List.head? hc)⟩
  | word letters =>
    cases ht
    obtain ⟨d, rest, rfl, hd, -⟩ := hs
    cases hc
    exact .inr (.inl ⟨Token.isWord_ofWord _ _ _ _, hd⟩)
  | blank c | comment body | openString value | stray c => cases ht

/-- A lexeme begins with a digit exactly if it is that of a number. -/
theorem stops_isDigit_iff (rest : List Char) :
    Stops Char.isDigit (s.text ++ rest) ↔ t.kind ≠ .number := by
  obtain ⟨c, tail, hc, hcases⟩ := head_text_cases h
  rw [hc, List.cons_append, stops_cons]
  rcases hcases with ⟨hk, hd⟩ | ⟨hw, hd⟩ | ⟨hk, rfl⟩ | ⟨m, hk, hm⟩
  · simp [hk, hd]
  · simp [(Token.kind_ne_of_isWord hw).1, (classes_of_isWordStart hd).2.2]
  · simp [hk]
  · simp [hk, (Mark.classes_of_head? (congrArg List.head? hm)).2.2.1]

/-- A lexeme begins with a part of a word exactly if it is that of a word or a number. -/
theorem stops_isWordPart_iff (rest : List Char) :
    Stops isWordPart (s.text ++ rest) ↔ t.isWord = false ∧ t.kind ≠ .number := by
  obtain ⟨c, tail, hc, hcases⟩ := head_text_cases h
  rw [hc, List.cons_append, stops_cons, isWordPart]
  rcases hcases with ⟨hk, hd⟩ | ⟨hw, hd⟩ | ⟨hk, rfl⟩ | ⟨m, hk, hm⟩
  · simp [hk, hd]
  · simp [hw, hd]
  · have hquote : isWordStart '"' = false ∧ Char.isDigit '"' = false := by decide
    simp [Token.isWord, hk, hquote]
  · obtain ⟨-, -, hd, hs⟩ := Mark.classes_of_head? (congrArg List.head? hm)
    simp [Token.isWord, hk, hd, hs]

/-- A lexeme begins with the character of a mark exactly if it is that of a mark that does. -/
theorem head?_text_eq_some_iff {d : Char} (hd : (Mark.ofChar? d).isSome = true)
    (rest : List Char) : (s.text ++ rest).head? = some d ↔
      ∃ m, t.kind = .mark m ∧ m.spelling.toList.head? = some d := by
  obtain ⟨m', hm'⟩ := Option.isSome_iff_exists.1 hd
  obtain ⟨-, hquote, hdigit, hstart⟩ := Mark.classes_of_ofChar? hm'
  obtain ⟨c, tail, hc, hcases⟩ := head_text_cases h
  rw [hc, List.cons_append, List.head?_cons, Option.some_inj]
  rcases hcases with ⟨hk, hcd⟩ | ⟨hw, hcd⟩ | ⟨hk, rfl⟩ | ⟨m, hk, hm⟩
  · have : c ≠ d := by
      rintro rfl
      simp [hcd] at hdigit
    simp [hk, this]
  · have : c ≠ d := by
      rintro rfl
      simp [hcd] at hstart
    simp [this, (Token.kind_ne_of_isWord hw).2]
  · simp [hk, hquote.symm]
  · simp [hk, hm]

theorem head?_text_eq_equal_iff (rest : List Char) :
    (s.text ++ rest).head? = some '=' ↔ t.beginsWithEqual = true := by
  rw [head?_text_eq_some_iff h rfl]
  simp only [Mark.head?_eq_equal_iff, Token.beginsWithEqual, Bool.or_eq_true, beq_iff_eq,
    and_or_left, exists_or, exists_eq_right]

theorem head?_text_eq_slash_iff (rest : List Char) :
    (s.text ++ rest).head? = some '/' ↔ t.kind = .mark .slash := by
  rw [head?_text_eq_some_iff h rfl]
  simp [Mark.head?_eq_slash_iff]

theorem text_of_kind_eq_mark {m : Mark} (hm : t.kind = .mark m) : s.text = m.spelling.toList := by
  obtain ⟨c, tail, hc, ⟨hk, -⟩ | ⟨hw, -⟩ | ⟨hk, -⟩ | ⟨m', hk, ht⟩⟩ := head_text_cases h
  · cases hm.symm.trans hk
  · exact absurd hm ((Token.kind_ne_of_isWord hw).2 m)
  · cases hm.symm.trans hk
  · cases hm.symm.trans hk
    rw [hc, ht]

/-- A lexeme that begins with a point is the point. -/
theorem text_append_eq_point_iff (rest tail : List Char) :
    s.text ++ rest = '.' :: tail ↔ t.kind = .mark .dot ∧ rest = tail := by
  have hdot : Mark.dot.spelling.toList = ['.'] := by decide
  constructor
  · intro he
    obtain ⟨m, hk, hm⟩ := (head?_text_eq_some_iff h (d := '.') rfl rest).1 (by rw [he]; rfl)
    obtain rfl := Mark.head?_eq_point_iff.1 hm
    rw [text_of_kind_eq_mark h hk, hdot] at he
    exact ⟨hk, (List.cons.inj he).2⟩
  · rintro ⟨hk, rfl⟩
    rw [text_of_kind_eq_mark h hk, hdot]
    rfl

end

/-! ## Ends of segments, by the tokens behind -/

section
variable {s s' : Segment} {t y : Token} {ss : List Segment} {ts : List Token}

theorem stops_isDigit_flatMap_iff (hss : List.Forall₂ Reads ss ts) :
    Stops Char.isDigit (ss.flatMap text) ↔ ∀ z ∈ ts.head?, z.kind ≠ .number := by
  cases hss with
  | nil => simp
  | cons hz _ => simpa using stops_isDigit_iff hz _

/-- **A lexeme ends before the next**, whatever tokens follow, exactly if the two do not fuse, nor
with a third at a point between numbers. -/
theorem endsBefore_append_iff (h : s.Reads t) (hy : s'.Reads y)
    (hss : List.Forall₂ Reads ss ts) : s.EndsBefore (s'.text ++ ss.flatMap text) ↔
      t.fuses y = false ∧ ∀ z ∈ ts.head?, t.fusesAtPoint y z = false := by
  obtain ⟨hs, line, ht⟩ := h
  cases s with
  | mark m =>
    cases ht
    simp only [EndsBefore, ne_eq, head?_text_eq_equal_iff hy, head?_text_eq_slash_iff hy]
    simp [Token.fuses, Token.fusesAtPoint, Token.isWord, Token.takesEqual_mark]
  | string value =>
    cases ht
    simp [EndsBefore, Token.fuses, Token.fusesAtPoint, Token.isWord, Token.takesEqual]
  | number digits =>
    cases ht
    -- only behind the point does it matter what comes third
    have hpoint : (∀ tail, y.kind = .mark .dot ∧ ss.flatMap text = tail →
        Stops Char.isDigit tail) ↔
          (y.kind = .mark .dot → ∀ z ∈ ts.head?, z.kind ≠ .number) := by
      rw [← stops_isDigit_flatMap_iff hss]
      exact ⟨fun h hk => h _ ⟨hk, rfl⟩, by rintro h _ ⟨hk, rfl⟩; exact h hk⟩
    have htwo : Token.fuses ⟨.number, String.ofList (number digits).text,
        some (.number (Decimal.ofText digits).toBinary64), line⟩ y = false ↔
          y.kind ≠ .number := by
      simp [Token.fuses, Token.isWord, Token.takesEqual]
    have hthree (z : Token) : Token.fusesAtPoint ⟨.number, String.ofList (number digits).text,
        some (.number (Decimal.ofText digits).toBinary64), line⟩ y z = false ↔
          ('.' ∉ digits → y.kind = .mark .dot → z.kind ≠ .number) := by
      simp [Token.fusesAtPoint, text]
    simp only [EndsBefore, stops_isDigit_iff hy, text_append_eq_point_iff hy, hpoint, htwo, hthree]
    exact and_congr_right fun _ =>
      ⟨fun h z hz hp hk => h hp hk z hz, fun h hp hk z hz => h z hz hp hk⟩
  | word letters =>
    cases ht
    have hw := Token.isWord_ofWord (String.ofList letters) (String.ofList letters) none line
    obtain ⟨hnumber, hmark⟩ := Token.kind_ne_of_isWord hw
    simp only [EndsBefore, stops_isWordPart_iff hy]
    simp [text, Token.fuses, Token.fusesAtPoint, Token.takesEqual_of_isWord hw, hw, hnumber, hmark]
  | blank c | comment body | openString value | stray c => cases ht

/-- **Tokens that stand alone** are those whose segments stand in a row with nothing between. -/
theorem row_iff_standAlone (h : List.Forall₂ Reads ss ts) :
    Row [] ss ↔ Token.standAlone ts = true := by
  induction h with
  | nil => exact iff_of_true .nil rfl
  | @cons s t ss ts hs hss ih =>
    rw [row_cons_iff, List.append_nil, ih, and_iff_right hs.1]
    cases hss with
    | nil => exact iff_of_true ⟨endsBefore_nil s, rfl⟩ rfl
    | @cons s' y ss ts hy hss =>
      have hthird : ts.head?.any (t.fusesAtPoint y) = false ↔
          ∀ z ∈ ts.head?, t.fusesAtPoint y z = false := by
        cases ts.head? <;> simp
      rw [List.flatMap_cons, endsBefore_append_iff hs hy hss, ← hthird]
      simp only [Token.standAlone, Bool.and_eq_true, Bool.not_eq_true']

end

end Segment

end LoxLexer
