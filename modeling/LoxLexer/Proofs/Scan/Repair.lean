import LoxLexer.Proofs.Scan.Reading
import LoxLexer.Proofs.Segment.Row
import LoxLexer.Scan.Edit

/-!
# A repaired source scans to the same tokens

`scan_repair`: with its faults mended, a source scans to the same tokens on the same lines, and
without a fault.

* `breaks_mended`: what follows a segment either stays or breaks off at the place of a fault, so no
  segment goes on into what was mended.
* `ofSegments_repair`: in place of a fault there are blanks with the same line feeds, and these only
  move the line.
* `foldr_mend`: to mend the segments of a source is to mend its findings where they were found.
-/

namespace LoxLexer

namespace Segment

/-! ## Faults -/

def isFault : Segment → Bool
  | openString _ | stray _ => true
  | _ => false

theorem mended_of_not_isFault {s : Segment} (h : s.isFault = false) : s.mended = s.text := by
  cases s <;> first | rfl | cases h

theorem isWhitespace_of_mem_mended {s : Segment} (h : s.isFault = true) :
    ∀ c ∈ s.mended, c.isWhitespace = true := by
  intro c hc
  cases s with
  | openString value =>
    rw [List.eq_of_mem_replicate hc]
    decide
  | stray d =>
    rw [List.mem_singleton.1 hc]
    decide
  | _ => cases h

theorem token?_of_isFault {s : Segment} (h : s.isFault = true) (line : Nat) :
    (s.item? line).bind Item.token? = none := by
  cases s <;> first | rfl | cases h

theorem diagnostic?_of_not_isFault {s : Segment} (h : s.isFault = false) (line : Nat) :
    (s.item? line).bind Item.diagnostic? = none := by
  cases s <;> first | rfl | cases h

theorem newlines_mended {s : Segment} (hs : s.Lexical) : newlines s.mended = newlines s.text := by
  cases s with
  | openString value =>
    rw [newlines_openString, mended, newlines, List.count_replicate_self]
  | stray c => exact (newlines_stray hs).symm
  | _ => rfl

/-! ## Where segments end in a mended text -/

/-- Mended, a text goes like before up to its first fault and breaks off there. -/
theorem breaks_mended {ss : List Segment} (h : Row [] ss) :
    Breaks (ss.flatMap text) (ss.flatMap mended) := by
  induction h with
  | nil => exact .stop []
  | @cons s ss hs he hrow ih =>
    cases s with
    | stray c =>
      have hc : c ≠ '\n' := by
        rintro rfl
        exact lexical_stray_iff.1 hs (.inl rfl)
      exact .blank _ _ hc rfl
    | openString value =>
      -- nothing follows, so without a line feed in the string the mended text ends
      rw [List.append_nil] at he
      obtain rfl : ss = [] := hrow.eq_nil_of_flatMap_text he
      rw [List.flatMap_singleton, List.flatMap_singleton, mended]
      cases newlines value with
      | zero => exact .stop _
      | succ n => exact .newline _ _
    | _ => exact ih.append_left _

theorem segments_mended_append {s : Segment} {ss : List Segment} (h : Row [] (s :: ss))
    (hs : s.isFault = false) : segments (s.mended ++ ss.flatMap mended) =
      s :: segments (ss.flatMap mended) := by
  obtain _ | ⟨hlexical, he, hrow⟩ := h
  rw [List.append_nil] at he
  have hopen : ∀ value, s ≠ openString value := by
    rintro value rfl
    cases hs
  rw [mended_of_not_isFault hs, segments_append hlexical (he.of_breaks (breaks_mended hrow) hopen)]

end Segment

/-! ## What is read off a mended text -/

namespace Scan

/-- **A repaired text** is read off as the text, but for its faults. -/
theorem ofSegments_repair {ss : List Segment} (h : Segment.Row [] ss) (line : Nat) :
    (ofSegments line (Segment.segments (ss.flatMap Segment.mended))).tokens =
        (ofSegments line ss).tokens ∧
      (ofSegments line (Segment.segments (ss.flatMap Segment.mended))).errors = [] := by
  induction h generalizing line with
  | nil =>
    rw [List.flatMap_nil, Segment.segments_nil]
    exact ⟨rfl, rfl⟩
  | @cons s ss hs he hrow ih =>
    obtain ⟨htokens, herrors⟩ := ih (line + newlines s.text)
    rw [List.flatMap_cons, ofSegments_cons hs, tokens_consOption]
    cases hfault : s.isFault with
    | true =>
      have hblanks := Segment.isWhitespace_of_mem_mended hfault
      rw [ofSegments_blanks hblanks, Segment.newlines_mended hs, Segment.token?_of_isFault hfault]
      exact ⟨htokens, herrors⟩
    | false =>
      have hkept := Segment.segments_mended_append (.cons hs he hrow) hfault
      rw [hkept, ofSegments_cons hs, tokens_consOption, errors_consOption, htokens, herrors,
        Segment.diagnostic?_of_not_isFault hfault]
      exact ⟨rfl, rfl⟩

end Scan

/-! ## Findings mended in place -/

namespace Finding

theorem mend_append (front mid rest : List Char) (d : Diagnostic) :
    mend ⟨front.length, front.length + mid.length, .diagnostic d⟩ (front ++ (mid ++ rest)) =
      front ++ (d.fault.patch mid ++ rest) := by
  have hdrop : (front ++ (mid ++ rest)).drop (front.length + mid.length) = rest := by
    rw [← List.drop_drop, List.drop_left, List.drop_left]
  have hspan : (front ++ (mid ++ rest)).extract front.length (front.length + mid.length) = mid := by
    rw [List.extract_eq_take_drop, Nat.add_sub_cancel_left, List.drop_left, List.take_left]
  rw [mend, hdrop, hspan, List.take_left]
  exact List.append_assoc _ _ _

/-- To mend what is found in a segment is to mend the segment. -/
theorem foldr_mend_item (front rest : List Char) (line : Nat) (s : Segment) :
    ((s.item? line).toList.map (⟨front.length, front.length + s.text.length, ·⟩)).foldr mend
      (front ++ (s.text ++ rest)) = front ++ (s.mended ++ rest) := by
  cases s with
  | stray c => exact mend_append front [c] rest ⟨.unexpectedCharacter, line⟩
  | openString value =>
    have hfeeds : ('"' :: value).filter (· == '\n') = List.replicate (newlines value) '\n' := by
      rw [List.filter_beq, ← Segment.newlines_openString]
      rfl
    have hmend := mend_append front ('"' :: value) rest ⟨.unterminatedString, line⟩
    rw [Fault.patch, hfeeds] at hmend
    exact hmend
  | _ => rfl

/-- Mending the findings in a text, the last first, mends its segments: an offset stays what it is
when something behind it is mended. -/
theorem foldr_mend (front : List Char) (line : Nat) (ss : List Segment) :
    (ofSegments front.length line ss).foldr mend (front ++ ss.flatMap Segment.text) =
      front ++ ss.flatMap Segment.mended := by
  induction ss generalizing front line with
  | nil => rfl
  | cons s ss ih =>
    have hrest := ih (front ++ s.text) (line + newlines s.text)
    rw [List.length_append, List.append_assoc, List.append_assoc] at hrest
    rw [ofSegments_cons, List.foldr_append, List.flatMap_cons, hrest, List.flatMap_cons]
    exact foldr_mend_item front _ _ s

end Finding

/-- **Repair**: mended, with a space for each unexpected character and the line feeds alone of an
unterminated string, a source scans without a fault to the tokens that it scans to as it is. -/
theorem scan_repair (source : String) :
    repair source.toList = (Finding.ofText source.toList).foldr Finding.mend source.toList ∧
    (scan (String.ofList (repair source.toList))).errors = [] ∧
    (scan (String.ofList (repair source.toList))).tokens = (scan source).tokens := by
  obtain ⟨htokens, herrors⟩ := Scan.ofSegments_repair (Segment.row_segments source.toList) 1
  have hmend := Finding.foldr_mend [] 1 (Segment.segments source.toList)
  rw [Segment.flatMap_text_segments] at hmend
  rw [scan_eq_ofSegments, scan_eq_ofSegments, String.toList_ofList]
  exact ⟨hmend.symm, herrors, htokens⟩

end LoxLexer
