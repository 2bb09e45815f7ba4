import LoxLexer.Proofs.Scan.Reading
import LoxLexer.Token.WellFormed

/-!
# Well-formed tokens are those of lexical segments

The token that a lexical segment is read as is well-formed (`wellFormed_of_item?`), and every
well-formed token is read off the segment of its lexeme (`WellFormed.exists_segment`), which ends
before any blank.
-/

namespace LoxLexer

/-! ## Kinds of words -/

namespace Kind

theorem ofWord_eq_keyword_iff {text : String} {k : Keyword} :
    ofWord text = keyword k ↔ k.spelling = text := by
  rw [← Keyword.ofText?_eq_some_iff, ofWord]
  cases Keyword.ofText? text <;> simp

theorem ofWord_eq_identifier_iff {text : String} :
    ofWord text = identifier ↔ ∀ k : Keyword, k.spelling ≠ text := by
  have h : ofWord text = identifier ↔ Keyword.ofText? text = none := by
    rw [ofWord]
    cases Keyword.ofText? text <;> simp
  rw [h, Option.eq_none_iff_forall_ne_some]
  exact forall_congr' fun k => not_congr Keyword.ofText?_eq_some_iff

end Kind

/-! ## Tokens of segments -/

theorem Token.WellFormed.kind_ne_eof {t : Token} (h : t.WellFormed) : t.kind ≠ .eof := by
  intro he
  cases h <;> cases he

theorem Keyword.isWord_spelling (k : Keyword) : IsWord k.spelling.toList := by
  have hstart : isWordStart (k.spelling.toList.headD ' ') = true := by cases k <;> decide
  have hpart : k.spelling.toList.tail.all isWordPart = true := by cases k <;> decide
  refine ⟨_, _, ?_, hstart, List.all_eq_true.1 hpart⟩
  cases k <;> decide

namespace Segment

section
variable {s : Segment} {line : Nat} {t : Token} (h : s.item? line = some (.token t))
include h

/-- The token of a lexical segment is well-formed. -/
theorem wellFormed_of_item? (hs : s.Lexical) : t.WellFormed := by
  have hs : s.Ordinary := by
    rcases hs with hs | ⟨c, rfl, -⟩
    · exact hs
    · cases h
  cases s with
  | mark m =>
    cases h
    rw [text, String.ofList_toList]
    exact .mark m line
  | string value =>
    cases h
    exact .string line hs
  | number digits =>
    cases h
    exact .number line hs
  | word letters =>
    cases h
    rw [text]
    by_cases hk : ∃ k : Keyword, k.spelling = String.ofList letters
    · obtain ⟨k, hk⟩ := hk
      rw [Kind.ofWord_eq_keyword_iff.2 hk, ← hk]
      exact .keyword k line
    · rw [Kind.ofWord_eq_identifier_iff.2 (not_exists.1 hk)]
      exact .identifier line hs fun k he => hk ⟨k, by rw [← he, String.ofList_toList]⟩
  | blank c | comment body | openString value | stray c => cases h

/-- A token's segment ends before any blank. -/
theorem endsBefore_of_item? {rest : List Char} (hr : ∀ c ∈ rest.head?, c.isWhitespace = true) :
    s.EndsBefore rest := by
  obtain _ | ⟨c, rest⟩ := rest
  · exact endsBefore_nil s
  have hc : c.isWhitespace = true := hr c rfl
  have hne {d : Char} (hd : d.isWhitespace = false) : c ≠ d := by
    rintro rfl
    rw [hc] at hd
    cases hd
  obtain ⟨-, hdigit, hstart⟩ := classes_of_isWhitespace hc
  cases s with
  | mark m =>
    exact ⟨fun _ he => hne (d := '=') (by decide) (Option.some.inj he),
      fun _ he => hne (d := '/') (by decide) (Option.some.inj he)⟩
  | number digits =>
    refine ⟨stops_cons.2 hdigit, fun _ tail he => ?_⟩
    exact absurd (List.cons.inj he).1 (hne (by decide))
  | word letters =>
    refine stops_cons.2 ?_
    rw [isWordPart, hstart, hdigit]
    rfl
  | string value | stray c | blank c => trivial
  | comment body | openString value => cases h

end

end Segment

/-- **A well-formed token** is read off a segment whose text is its lexeme. -/
theorem Token.WellFormed.exists_segment {t : Token} (h : t.WellFormed) :
    ∃ s : Segment, s.Lexical ∧ s.text = t.lexeme.toList ∧ s.item? t.line = some (.token t) := by
  cases h with
  | mark m line =>
    exact ⟨.mark m, .inl trivial, rfl, by simp [Segment.item?, Segment.text]⟩
  | keyword k line =>
    refine ⟨.word k.spelling.toList, .inl k.isWord_spelling, rfl, ?_⟩
    have := Kind.ofWord_eq_keyword_iff.2 (rfl : k.spelling = k.spelling)
    simp [Segment.item?, Segment.text, this]
  | @identifier letters line hl hk =>
    refine ⟨.word letters, .inl hl, by simp [Segment.text], ?_⟩
    have := Kind.ofWord_eq_identifier_iff.2 fun k (he : k.spelling = String.ofList letters) =>
      hk k (by rw [he, String.toList_ofList])
    simp [Segment.item?, Segment.text, this]
  | @number digits line hd =>
    exact ⟨.number digits, .inl hd, by simp [Segment.text], rfl⟩
  | @string value line hv =>
    exact ⟨.string value, .inl hv, by simp [Segment.text], rfl⟩

end LoxLexer
