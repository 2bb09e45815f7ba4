import LoxLexer.Proofs.Scan.Spans
import LoxLexer.Proofs.Segment.Row

/-!
# What text put behind a source cannot change

`settled_stable`: the findings of a source that end two characters or more before its end are the
first findings of every source that goes on from it, on the same spans.

Two characters tell whether a segment ends (`Segment.EndsBefore.append`), so the segments with as
many behind them are cut off the longer source as they are cut off the shorter, one after the other
(`settled_row`).
-/

namespace LoxLexer

namespace Finding

/-- The findings of a text that end two characters or more before its end. -/
def settled (cs : List Char) : List Finding := (ofText cs).filter (·.stop + 2 ≤ cs.length)

/-- No finding ends before the first segment does. -/
theorem le_stop_of_mem {offset line : Nat} {s : Segment} {ss : List Segment} {f : Finding}
    (h : f ∈ ofSegments offset line (s :: ss)) : offset + s.text.length ≤ f.stop := by
  obtain ⟨before, t, after, hss, hstart, hstop, -⟩ := exists_of_mem h
  obtain _ | ⟨u, before⟩ := before
  · obtain ⟨rfl, -⟩ := List.cons.inj hss
    rw [hstop, hstart]
    simp
  · obtain ⟨rfl, -⟩ := List.cons.inj hss
    rw [List.flatMap_cons, List.length_append] at hstart
    omega

/-- What is found in a row of segments and ends two characters or more before its end is what is
found first when text follows the row. -/
theorem settled_row {ss : List Segment} (h : Segment.Row [] ss) (offset line : Nat)
    (more : List Char) :
    (ofSegments offset line ss).filter
        (·.stop + 2 ≤ offset + (ss.flatMap Segment.text).length) <+:
      ofSegments offset line (Segment.segments (ss.flatMap Segment.text ++ more)) := by
  induction h generalizing offset line with
  | nil => exact List.nil_prefix
  | @cons s ss hs he _ ih =>
    rw [List.append_nil] at he
    rw [List.flatMap_cons, List.length_append, ← Nat.add_assoc]
    by_cases hlength : 2 ≤ (ss.flatMap Segment.text).length
    · have hkept : ∀ f ∈ (s.item? (line + newlines s.text)).toList.map
          (⟨offset, offset + s.text.length, ·⟩ : Item → Finding),
          decide (f.stop + 2 ≤ offset + s.text.length + (ss.flatMap Segment.text).length) =
            true := by
        intro f hf
        obtain ⟨item, -, rfl⟩ := List.mem_map.1 hf
        simpa using hlength
      rw [List.append_assoc, Segment.segments_append hs (he.append hlength more), ofSegments_cons,
        ofSegments_cons, List.filter_append, List.filter_eq_self.2 hkept,
        List.prefix_append_right_inj]
      exact ih _ _
    · -- all that is found here ends too late
      have hnone : (ofSegments offset line (s :: ss)).filter
          (·.stop + 2 ≤ offset + s.text.length + (ss.flatMap Segment.text).length) = [] := by
        refine List.filter_eq_nil_iff.2 fun f hf => ?_
        have := le_stop_of_mem hf
        rw [decide_eq_true_eq]
        omega
      rw [hnone]
      exact List.nil_prefix

/-- One character is not enough: a digit behind the point makes another number. -/
example : (ofText "1.".toList).map stop = [1, 2] ∧ (ofText "1.5".toList).map stop = [3] := by
  decide +kernel

end Finding

/-- **Stability**: whatever follows a source, the findings that end two characters or more before
its end stay the first ones, on their spans. So do the tokens and the diagnostics among them, and
these diagnostics are unexpected characters. -/
theorem settled_stable (a b : String) :
    Finding.settled a.toList <+: Finding.ofText (a ++ b).toList ∧
    (Finding.settled a.toList).filterMap Finding.token? <+: (scan (a ++ b)).tokens ∧
    (Finding.settled a.toList).filterMap Finding.diagnostic? <+: (scan (a ++ b)).errors ∧
    ∀ d ∈ (Finding.settled a.toList).filterMap Finding.diagnostic?,
      d.fault = .unexpectedCharacter := by
  have hstable : Finding.settled a.toList <+: Finding.ofText (a ++ b).toList := by
    have hrow := Finding.settled_row (Segment.row_segments a.toList) 0 1 b.toList
    rwa [Segment.flatMap_text_segments, Nat.zero_add, ← String.toList_append] at hrow
  refine ⟨hstable, ?_, hstable.filterMap _, ?_⟩
  · exact (hstable.filterMap _).trans (List.prefix_append _ _)
  · intro d hd
    obtain ⟨f, hf, hfd⟩ := List.mem_filterMap.1 hd
    obtain ⟨hf, hstop⟩ := List.mem_filter.1 hf
    obtain ⟨-, -, hplaced⟩ := Finding.placed_of_mem hf
    rw [decide_eq_true_eq] at hstop
    obtain ⟨start, stop, item⟩ := f
    rcases item with t | ⟨_ | _, line⟩
    · cases hfd
    · cases hfd
      rfl
    · obtain ⟨hend, -⟩ := hplaced
      dsimp only at hend hstop
      omega

end LoxLexer
