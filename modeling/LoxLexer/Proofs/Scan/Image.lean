import LoxLexer.Proofs.Token.WellFormed

/-!
# The image of the scanner

The token lists that some source scans to are those with `Token.SequenceFrom 1`, and the canonical
text of such a list scans to it without a diagnostic (`tokens_image`).

* `sequenceFrom_tokens`: what is read off lexical segments is such a list, faults or not.
* `ofSegments_canonicalText`: the segments of a canonical text are line feeds and spaces, which only
  move the line, and one segment for each token.
-/

namespace LoxLexer

namespace Token

/-! ## What a scan gives -/

theorem SequenceFrom.mono {line line' : Nat} {ts : List Token} (h : SequenceFrom line' ts)
    (hl : line ≤ line') : SequenceFrom line ts := by
  cases h with
  | eof h => exact .eof (Nat.le_trans hl h)
  | cons hw hle hts => exact .cons hw (Nat.le_trans (Nat.add_le_add_right hl _) hle) hts

theorem sequenceFrom_tokens {ss : List Segment} (h : ∀ s ∈ ss, s.Lexical) (line : Nat) :
    SequenceFrom line (Scan.ofSegments line ss).tokens := by
  induction ss generalizing line with
  | nil => exact .eof (Nat.le_refl _)
  | cons s ss ih =>
    have hs := h s List.mem_cons_self
    have hss := ih (fun t ht => h t (List.mem_cons_of_mem _ ht)) (line + newlines s.text)
    have hmono := hss.mono (Nat.le_add_right _ _)
    rw [Scan.ofSegments_cons hs]
    cases hitem : s.item? (line + newlines s.text) with
    | none => exact hmono
    | some item =>
      cases item with
      | diagnostic d => exact hmono
      | token t =>
        have hline := Segment.line_of_item? hitem
        have hheight : t.height = newlines s.text := by
          rw [height, Segment.lexeme_of_item? hitem, String.toList_ofList]
        refine .cons (Segment.wellFormed_of_item? hitem hs) ?_ (hline ▸ hss)
        exact Nat.le_of_eq (by rw [hline, hheight])

end Token

/-! ## Canonical text -/

/-- Line feeds and a space in front of a text only move its first line. -/
theorem Scan.ofSegments_gap (n line : Nat) (rest : List Char) :
    ofSegments line (Segment.segments (List.replicate n '\n' ++ ' ' :: rest)) =
      ofSegments (line + n) (Segment.segments rest) := by
  have hblanks : ∀ c ∈ List.replicate n '\n' ++ [' '], c.isWhitespace = true := by
    intro c hc
    rcases List.mem_append.1 hc with hc | hc
    · rw [List.eq_of_mem_replicate hc]
      decide
    · rw [List.mem_singleton.1 hc]
      decide
  have hline : newlines (List.replicate n '\n' ++ [' ']) = n := by
    rw [newlines_append, newlines, List.count_replicate_self]
    rfl
  have hgap := ofSegments_blanks hblanks line rest
  rwa [List.append_assoc, List.singleton_append, hline] at hgap

theorem isWhitespace_of_canonicalText (line : Nat) (ts : List Token) :
    ∀ c ∈ (canonicalText line ts).head?, c.isWhitespace = true := by
  intro c hc
  obtain _ | ⟨t, ts⟩ := ts
  · cases hc
  · rw [canonicalText] at hc
    cases hn : t.line - t.height - line <;> rw [hn] at hc <;> cases hc <;> decide

theorem ofSegments_canonicalText {line : Nat} {ts : List Token} (h : Token.SequenceFrom line ts) :
    Scan.ofSegments line (Segment.segments (canonicalText line ts)) = ⟨ts, []⟩ := by
  induction h with
  | @eof line last hl =>
    have hgap := Scan.ofSegments_gap (last - line) line []
    have htext : canonicalText line [Token.eof last] =
        List.replicate (last - line) '\n' ++ [' '] := by
      simp [canonicalText, Token.eof, Token.height]
    rw [Nat.add_sub_cancel' hl] at hgap
    rw [htext, hgap, Segment.segments_nil]
    rfl
  | @cons line t ts hw hle hts ih =>
    obtain ⟨s, hs, htext, hitem⟩ := hw.exists_segment
    have he := Segment.endsBefore_of_item? hitem (isWhitespace_of_canonicalText t.line ts)
    have hheight : newlines s.text = t.height := by rw [htext, Token.height]
    have hline : line + (t.line - t.height - line) + t.height = t.line := by omega
    rw [canonicalText, List.append_assoc, List.cons_append, Scan.ofSegments_gap, ← htext,
      Segment.segments_append hs he, Scan.ofSegments_cons hs, hheight, hline, ih, hitem]
    rfl

/-- **The image of the scanner**: a token list is what some source scans to exactly when its tokens
are well-formed, on lines with room for their lexemes, with the end of the source after them; and
then its canonical text scans to it, and without a diagnostic. -/
theorem tokens_image (ts : List Token) :
    ((∃ source, (scan source).tokens = ts) ↔ Token.SequenceFrom 1 ts) ∧
      (Token.SequenceFrom 1 ts → scan (String.ofList (canonicalText 1 ts)) = ⟨ts, []⟩) := by
  have hcanonical (h : Token.SequenceFrom 1 ts) :
      scan (String.ofList (canonicalText 1 ts)) = ⟨ts, []⟩ := by
    rw [scan, String.toList_ofList, Scan.ofText_eq_ofSegments, ofSegments_canonicalText h]
  refine ⟨⟨?_, fun h => ⟨_, congrArg Scan.tokens (hcanonical h)⟩⟩, hcanonical⟩
  rintro ⟨source, rfl⟩
  rw [scan, Scan.ofText_eq_ofSegments]
  exact Token.sequenceFrom_tokens (fun _ => Segment.lexical_of_mem_segments) 1

end LoxLexer
