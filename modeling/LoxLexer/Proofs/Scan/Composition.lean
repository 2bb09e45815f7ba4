import LoxLexer.Proofs.Scan.Reading
import LoxLexer.Proofs.Segment.Row
import LoxLexer.Scan

/-!
# Scans one after the other

What is read off segments that follow others is read off by themselves and moved down by their lines
(`ofSegments_append`, `ofSegments_below`), since the line is all that is carried from one to the
next. A line feed ends every segment but a string left open, so a source and another on the lines
below it scan to the one scan followed by the other (`scan_append_newline`).
-/

namespace LoxLexer

/-! ## Moving down -/

def Item.below (n : Nat) : Item → Item
  | token t => token (t.below n)
  | diagnostic d => diagnostic (d.below n)

theorem Segment.item?_add (s : Segment) (line n : Nat) :
    s.item? (line + n) = (s.item? line).map (Item.below n) := by
  cases s <;> rfl

namespace Scan

theorem below_consOption (n : Nat) (item : Option Item) (s : Scan) :
    (s.consOption item).below n = (s.below n).consOption (item.map (Item.below n)) := by
  rcases item with _ | _ | _ <;> rfl

/-- What is read off segments that begin further down is moved down by as many lines. -/
theorem ofSegments_below {ss : List Segment} (h : ∀ s ∈ ss, s.Lexical) (line n : Nat) :
    ofSegments (line + n) ss = (ofSegments line ss).below n := by
  induction ss generalizing line with
  | nil => rfl
  | cons s ss ih =>
    have hs := h s List.mem_cons_self
    rw [ofSegments_cons hs, ofSegments_cons hs, below_consOption, ← Segment.item?_add,
      ← ih fun t ht => h t (List.mem_cons_of_mem s ht), Nat.add_right_comm]

/-! ## One after the other -/

/-- A scan ends with the end of the source. -/
theorem tokens_ofSegments {ss : List Segment} (h : ∀ s ∈ ss, s.Lexical) (line : Nat) :
    (ofSegments line ss).tokens = (ofSegments line ss).body ++
      [Token.eof (line + newlines (ss.flatMap Segment.text))] := by
  rw [body, ofSegments_eq_findings h 0, List.dropLast_concat]

theorem followedBy_consOption {s : Scan} (hs : s.tokens ≠ []) (item : Option Item) (t : Scan) :
    (s.consOption item).followedBy t = (s.followedBy t).consOption item := by
  rcases item with _ | _ | _
  · rfl
  · obtain ⟨x, tokens, hx⟩ := List.exists_cons_of_ne_nil hs
    simp [consOption, cons, followedBy, body, hx]
  · rfl

/-- **What is read off segments one after the other** is what is read off the first and then off the
others, from the line where the first end. -/
theorem ofSegments_append {ss : List Segment} (h : ∀ s ∈ ss, s.Lexical) (line : Nat)
    (ts : List Segment) : ofSegments line (ss ++ ts) =
      (ofSegments line ss).followedBy
        (ofSegments (line + newlines (ss.flatMap Segment.text)) ts) := by
  induction ss generalizing line with
  | nil => rfl
  | cons s ss ih =>
    have hs := h s List.mem_cons_self
    have hss := fun t ht => h t (List.mem_cons_of_mem s ht)
    have hne : (ofSegments (line + newlines s.text) ss).tokens ≠ [] := by
      rw [tokens_ofSegments hss]
      simp
    rw [List.cons_append, ofSegments_cons hs, ofSegments_cons hs, ih hss,
      followedBy_consOption hne, List.flatMap_cons, newlines_append, Nat.add_assoc]

/-- A string is left open exactly if one of the segments is such a string. -/
theorem isOpen_ofSegments {line : Nat} {ss : List Segment} :
    (ofSegments line ss).isOpen = true ↔ ∃ value, Segment.openString value ∈ ss := by
  induction ss generalizing line with
  | nil => simp [ofSegments, isOpen]
  | cons s ss ih =>
    have hcons (item : Item) (t : Scan) : (t.cons item).isOpen =
        (item.diagnostic?.any (·.fault == .unterminatedString) || t.isOpen) := by
      cases item <;> rfl
    cases s <;> simp [ofSegments, hcons, Item.diagnostic?, ih]

end Scan

/-- Of a source that leaves no string open, no segment is such a string. -/
theorem not_mem_segments_of_isOpen {source : String} (h : (scan source).isOpen = false)
    (value : List Char) : Segment.openString value ∉ Segment.segments source.toList := by
  intro hv
  rw [scan_eq_ofSegments, Scan.isOpen_ofSegments.2 ⟨value, hv⟩] at h
  cases h

/-! ## At a line feed -/

/-- A line feed parts the segments of a text that leaves no string open from those of the next. -/
theorem Segment.segments_append_newline {cs : List Char}
    (h : ∀ value, openString value ∉ segments cs) (rest : List Char) :
    segments (cs ++ '\n' :: rest) = segments cs ++ blank '\n' :: segments rest := by
  have hrow : Row ('\n' :: rest) (segments cs) := (row_segments cs).of_breaks (.newline [] rest) h
  have hblank : (blank '\n').Lexical := .inl (by decide : '\n' ∈ [' ', '\t', '\r', '\n'])
  have hcut : segments ('\n' :: rest) = blank '\n' :: segments rest :=
    segments_append hblank trivial
  rw [← hcut, ← hrow.segments_eq, flatMap_text_segments]

/-- **Composition at a line feed**: a source that leaves no string open, and then another from the
next line on, scan to what the first scans to, but for its end, and then to what the second scans
to, as many lines down as the end of the first is. -/
theorem scan_append_newline (a b : String) (h : (scan a).isOpen = false) :
    ∃ k, (scan a).tokens = (scan a).body ++ [Token.eof k] ∧
      scan (a ++ "\n" ++ b) = (scan a).followedBy ((scan b).below k) := by
  have ha : ∀ s ∈ Segment.segments a.toList, s.Lexical := fun _ => Segment.lexical_of_mem_segments
  have hb : ∀ s ∈ Segment.segments b.toList, s.Lexical := fun _ => Segment.lexical_of_mem_segments
  have hclosed : ∀ value, Segment.openString value ∉ Segment.segments a.toList := by
    intro value hv
    rw [scan_eq_ofSegments, Scan.isOpen_ofSegments.2 ⟨value, hv⟩] at h
    cases h
  have htext : (a ++ "\n" ++ b).toList = a.toList ++ '\n' :: b.toList := by simp
  refine ⟨1 + newlines a.toList, ?_, ?_⟩
  · rw [scan_eq_ofSegments, Scan.tokens_ofSegments ha, Segment.flatMap_text_segments]
  · rw [scan_eq_ofSegments, htext, Segment.segments_append_newline hclosed,
      Scan.ofSegments_append ha, Segment.flatMap_text_segments, Scan.ofSegments, if_pos rfl,
      Nat.add_comm _ 1, Scan.ofSegments_below hb, ← scan_eq_ofSegments, ← scan_eq_ofSegments]

/-- A source with a stray character that ends in a comment, before one that leaves a string open. -/
theorem scan_append_newline_comment : (scan "é 1.//").isOpen = false ∧
    ∃ k, (scan "é 1.//").tokens = (scan "é 1.//").body ++ [Token.eof k] ∧
      scan ("é 1.//" ++ "\n" ++ "/\"") = (scan "é 1.//").followedBy ((scan "/\"").below k) :=
  have hclosed : (scan "é 1.//").isOpen = false := by decide +kernel
  ⟨hclosed, scan_append_newline "é 1.//" "/\"" hclosed⟩

end LoxLexer
