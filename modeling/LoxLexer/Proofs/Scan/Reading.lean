import LoxLexer.Proofs.Segment.Boundary
import LoxLexer.Scan

/-!
# Reading a scan off segments

`Scan.ofSegments line ss` reads tokens and diagnostics off segments one after the other, with the
line that the first of them begins on as its only state: a line feed counts where it is a blank and
inside strings, and nowhere else can one occur. `scan` is what is read off the segments of the
source (`ofText_eq_ofSegments`). `ofSegments_cons` is the same rule for all classes at once, by the
item of a segment (`Segment.item?`).
-/

namespace LoxLexer

/-! ## Line feeds in segments -/

theorem IsNumeral.newlines_eq {digits : List Char} (h : IsNumeral digits) :
    newlines digits = 0 := by
  refine newlines_eq_zero fun hm => ?_
  rcases h.isDigit_or_eq_point hm with hc | hc
  · exact absurd hc (by decide)
  · exact absurd hc (by decide)

theorem IsWord.newlines_eq {letters : List Char} (h : IsWord letters) : newlines letters = 0 :=
  newlines_eq_zero fun hm => absurd (h.isWordPart_of_mem hm) (by decide)

theorem Mark.newlines_spelling (m : Mark) : newlines m.spelling.toList = 0 := by
  cases m <;> decide

namespace Segment

theorem newlines_stray {c : Char} (h : (stray c).Lexical) : newlines [c] = 0 := by
  refine newlines_eq_zero fun hm => lexical_stray_iff.1 h ?_
  rw [← List.mem_singleton.1 hm]
  exact .inl rfl

theorem newlines_comment {body : List Char} (h : '\n' ∉ body) :
    newlines (comment body).text = 0 := by
  rw [text, newlines_cons, newlines_cons, newlines_eq_zero h]
  rfl

theorem newlines_string (value : List Char) : newlines (string value).text = newlines value := by
  rw [text, newlines_append, newlines_cons]
  rfl

theorem newlines_openString (value : List Char) :
    newlines (openString value).text = newlines value := newlines_cons '"' value

/-- Only in strings and in the blank that it is can a line feed stand. -/
theorem newlines_text_eq_zero {s : Segment} (hs : s.Lexical) (hfeed : s ≠ blank '\n')
    (hstring : ∀ value, s ≠ string value) (hopen : ∀ value, s ≠ openString value) :
    newlines s.text = 0 := by
  rcases hs with hs | ⟨c, rfl, hc⟩
  case inr => exact newlines_stray (.inr ⟨c, rfl, hc⟩)
  cases s with
  | mark m => exact m.newlines_spelling
  | blank c =>
    have hc : c ≠ '\n' := fun hc => hfeed (congrArg blank hc)
    simp [text, newlines_cons, hc]
  | comment body => exact newlines_comment hs
  | string value => exact absurd rfl (hstring value)
  | number digits => exact IsNumeral.newlines_eq hs
  | word letters => exact IsWord.newlines_eq hs
  | openString value => exact absurd rfl (hopen value)
  | stray c => exact hs.elim

/-! ## Items of segments -/

section
variable {s : Segment} {line : Nat} {t : Token} (h : s.item? line = some (.token t))
include h

theorem lexeme_of_item? : t.lexeme = String.ofList s.text := by
  cases s <;> cases h <;> rfl

theorem line_of_item? : t.line = line := by
  cases s <;> cases h <;> rfl

theorem exists_value_of_item? {v : String} (hv : t.literal = some (.string v)) :
    ∃ value, s = string value ∧ v = String.ofList value := by
  cases s <;> cases h <;> cases hv
  exact ⟨_, rfl, rfl⟩

end

end Segment

namespace Item

def token? : Item → Option Token
  | token t => some t
  | diagnostic _ => none

def diagnostic? : Item → Option Diagnostic
  | token _ => none
  | diagnostic d => some d

end Item

/-! ## Reading off -/

namespace Scan

/-- The scan with one more item in front. -/
def cons (item : Item) (s : Scan) : Scan :=
  match item with
  | .token t => { s with tokens := t :: s.tokens }
  | .diagnostic d => { s with errors := d :: s.errors }

/-- What is read off segments of which the first begins on this line. -/
def ofSegments (line : Nat) : List Segment → Scan
  | [] => ⟨[Token.eof line], []⟩
  | .mark m :: rest => (ofSegments line rest).cons (.token ⟨.mark m, m.spelling, none, line⟩)
  | .blank c :: rest => ofSegments (if c = '\n' then line + 1 else line) rest
  | .comment _ :: rest => ofSegments line rest
  | .string value :: rest =>
    let lexeme := String.ofList ('"' :: value ++ ['"'])
    let last := line + newlines value
    (ofSegments last rest).cons
      (.token ⟨.string, lexeme, some (.string (String.ofList value)), last⟩)
  | .number digits :: rest =>
    let value := (Decimal.ofText digits).toBinary64
    (ofSegments line rest).cons
      (.token ⟨.number, String.ofList digits, some (.number value), line⟩)
  | .word letters :: rest =>
    let lexeme := String.ofList letters
    (ofSegments line rest).cons (.token ⟨Kind.ofWord lexeme, lexeme, none, line⟩)
  | .openString value :: rest =>
    let last := line + newlines value
    (ofSegments last rest).cons (.diagnostic ⟨.unterminatedString, last⟩)
  | .stray _ :: rest => (ofSegments line rest).cons (.diagnostic ⟨.unexpectedCharacter, line⟩)

/-- The scan with an item in front, if there is one. -/
def consOption (item : Option Item) (s : Scan) : Scan := item.elim s s.cons

theorem tokens_consOption (item : Option Item) (s : Scan) :
    (s.consOption item).tokens = (item.bind Item.token?).toList ++ s.tokens := by
  rcases item with _ | _ | _ <;> rfl

theorem errors_consOption (item : Option Item) (s : Scan) :
    (s.consOption item).errors = (item.bind Item.diagnostic?).toList ++ s.errors := by
  rcases item with _ | _ | _ <;> rfl

open Segment in
/-- **Reading off one segment**: its item on the line that it ends on, and the rest from that
line. -/
theorem ofSegments_cons {s : Segment} (hs : s.Lexical) (line : Nat) (ss : List Segment) :
    ofSegments line (s :: ss) = (ofSegments (line + newlines s.text) ss).consOption
      (s.item? (line + newlines s.text)) := by
  rcases hs with hs | ⟨c, rfl, hc⟩
  case inr =>
    have hl : newlines [c] = 0 := newlines_stray (.inr ⟨c, rfl, hc⟩)
    simp [ofSegments, consOption, item?, text, hl]
  cases s with
  | mark m => simp [ofSegments, consOption, item?, text, m.newlines_spelling]
  | blank c =>
    by_cases hc : c = '\n' <;> simp [ofSegments, consOption, item?, text, newlines_cons, hc]
  | comment body => simp [ofSegments, consOption, item?, newlines_comment hs]
  | string value =>
    rw [newlines_string]
    rfl
  | number digits =>
    simp [ofSegments, consOption, item?, text, IsNumeral.newlines_eq hs]
  | word letters => simp [ofSegments, consOption, item?, text, IsWord.newlines_eq hs]
  | openString value =>
    rw [newlines_openString]
    rfl
  | stray c => exact hs.elim

/-- A blank in front of a text only moves its first line. -/
theorem ofSegments_blank {c : Char} (hc : c.isWhitespace = true) (line : Nat)
    (rest : List Char) : ofSegments line (Segment.segments (c :: rest)) =
      ofSegments (line + newlines [c]) (Segment.segments rest) := by
  have hs : (Segment.blank c).Lexical := .inl (isWhitespace_iff.1 hc)
  have hcut : Segment.segments (c :: rest) = .blank c :: Segment.segments rest :=
    Segment.segments_append hs trivial
  rw [hcut, ofSegments_cons hs]
  rfl

theorem ofSegments_blanks {blanks : List Char} (h : ∀ c ∈ blanks, c.isWhitespace = true)
    (line : Nat) (rest : List Char) :
    ofSegments line (Segment.segments (blanks ++ rest)) =
      ofSegments (line + newlines blanks) (Segment.segments rest) := by
  induction blanks generalizing line with
  | nil => rfl
  | cons c blanks ih =>
    rw [List.cons_append, ofSegments_blank (h c List.mem_cons_self), newlines_eq_add c blanks,
      ← Nat.add_assoc, ih fun d hd => h d (List.mem_cons_of_mem c hd)]

end Scan

/-! ## The findings of a text -/

theorem Finding.ofSegments_cons (offset line : Nat) (s : Segment) (ss : List Segment) :
    Finding.ofSegments offset line (s :: ss) =
      (s.item? (line + newlines s.text)).toList.map (⟨offset, offset + s.text.length, ·⟩) ++
        Finding.ofSegments (offset + s.text.length) (line + newlines s.text) ss := by
  rw [Finding.ofSegments]
  split <;> next h => simp [h]

namespace Scan

theorem ofSegments_eq_findings {ss : List Segment} (h : ∀ s ∈ ss, s.Lexical) (offset line : Nat) :
    ofSegments line ss =
      ⟨(Finding.ofSegments offset line ss).filterMap Finding.token? ++
          [Token.eof (line + newlines (ss.flatMap Segment.text))],
        (Finding.ofSegments offset line ss).filterMap Finding.diagnostic?⟩ := by
  induction ss generalizing offset line with
  | nil => rfl
  | cons s ss ih =>
    have hs := h s List.mem_cons_self
    rw [ofSegments_cons hs, ih (fun t ht => h t (List.mem_cons_of_mem _ ht))
      (offset + s.text.length), Finding.ofSegments_cons, List.flatMap_cons, newlines_append,
      ← Nat.add_assoc]
    cases s.item? (line + newlines s.text) with
    | none => rfl
    | some item => cases item <;> rfl

/-- **A scan** is read off the segments of its source. -/
theorem ofText_eq_ofSegments (cs : List Char) : ofText cs = ofSegments 1 (Segment.segments cs) := by
  rw [ofSegments_eq_findings (fun _ => Segment.lexical_of_mem_segments) 0,
    Segment.flatMap_text_segments]
  rfl

end Scan

theorem scan_eq_ofSegments (source : String) :
    scan source = Scan.ofSegments 1 (Segment.segments source.toList) :=
  Scan.ofText_eq_ofSegments source.toList

end LoxLexer
