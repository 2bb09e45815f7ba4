import LoxLexer.Proofs.Cursor.Run
import LoxLexer.Proofs.Scan.Composition

/-!
# A run can be restarted

`restart`: wherever a run comes past, it has still to find what a scan of the rest of the source
finds, moved down by the lines before it.

* `exists_rest`: the source is cut in two there, and the segments from there on are those of the
  second part.
* `finish_foldl_segments`: of what was found before, going past the segments of a text needs the
  line only.
* `eq_of_append_eq`: an offset in bytes cuts a text in one way, so places with the same rest and
  the same line can be compared across sources.
-/

namespace LoxLexer

/-- Parts with as many bytes before them in the same text are the same. -/
theorem eq_of_append_eq {before rest before' rest' : List Char}
    (h : before ++ rest = before' ++ rest') (hlength : byteLength before = byteLength before') :
    rest = rest' := by
  have hdrop := dropBytes?_append before rest
  rw [h, hlength, dropBytes?_append] at hdrop
  exact (Option.some.inj hdrop).symm

namespace Cursor

/-- What going past the segments of a text finds is what a scan of the text finds, further down. -/
theorem finish_foldl_segments {c : Cursor} (hline : 1 ≤ c.line) (cs : List Char) :
    ((Segment.segments cs).foldl past c).finish =
      ⟨c.tokens ++ ((Scan.ofText cs).below (c.line - 1)).tokens,
        c.errors ++ ((Scan.ofText cs).below (c.line - 1)).errors⟩ := by
  have hlexical : ∀ s ∈ Segment.segments cs, s.Lexical := fun _ => Segment.lexical_of_mem_segments
  have hbelow := Scan.ofSegments_below hlexical 1 (c.line - 1)
  rw [Nat.add_sub_cancel' hline] at hbelow
  rw [finish_foldl_past hlexical, hbelow, Scan.ofText_eq_ofSegments]

/-- Wherever a run comes past, it goes on past the segments of the rest of the text, and so to the
scan of the text. -/
theorem exists_rest {cs : List Char} {c : Cursor} (h : Reachable (utf8 cs) c) :
    ∃ before rest, cs = before ++ rest ∧ byteLength before = c.current ∧
      c.line = lastLine before ∧
      run (utf8 cs) c = some ((Segment.segments rest).foldl past c) ∧
      ((Segment.segments rest).foldl past c).finish = Scan.ofText cs := by
  obtain ⟨ss, rest, hss, hcs, rfl⟩ := exists_segments_of_reachable h
  have hcurrent := current_foldl_initial ss
  have hrun := run_eq_foldl hcurrent rest
  have hwhole := finish_foldl_initial cs
  rw [hss, List.foldl_append] at hwhole
  rw [← hcs] at hrun
  exact ⟨ss.flatMap Segment.text, rest, hcs, hcurrent.symm, line_foldl_past ss initial, hrun,
    hwhole⟩

/-- **A run can be restarted** wherever it comes past. The source is cut there between two
characters, and the run goes on to the scan of the source by what a scan of the second part finds,
as many lines down as the first part has line feeds. Behind any other text that brings a run to the
same line, the second part gives the same. -/
theorem restart (source : String) (c : Cursor) (h : Reachable (utf8 source.toList) c) :
    ∃ before rest : String, source = before ++ rest ∧ before.utf8ByteSize = c.current ∧
      c.line = lastLine before.toList ∧
      (run (utf8 source.toList) c).map finish = some (scan source) ∧
      (scan source).tokens = c.tokens ++ (scan rest).tokens.map (Token.below (c.line - 1)) ∧
      (scan source).errors = c.errors ++ (scan rest).errors.map (Diagnostic.below (c.line - 1)) ∧
      ∀ (other : String) (c' : Cursor), Reachable (utf8 (other ++ rest).toList) c' →
        other.utf8ByteSize = c'.current → c'.line = c.line →
        ∃ found : Scan, scan source = ⟨c.tokens ++ found.tokens, c.errors ++ found.errors⟩ ∧
          scan (other ++ rest) = ⟨c'.tokens ++ found.tokens, c'.errors ++ found.errors⟩ := by
  obtain ⟨before, rest, hsource, hcurrent, hline, hrun, hfinish⟩ := exists_rest h
  have hpos : 1 ≤ c.line := by
    rw [hline]
    exact Nat.le_add_right 1 _
  rw [finish_foldl_segments hpos] at hfinish
  refine ⟨String.ofList before, String.ofList rest, ?_, ?_, ?_, ?_, ?_, ?_, ?_⟩
  · apply String.toList_injective
    simpa using hsource
  · rw [← byteLength_toList, String.toList_ofList, hcurrent]
  · rw [String.toList_ofList, hline]
  · rw [hrun, Option.map_some, finish_foldl_segments hpos, hfinish]
    rfl
  · rw [scan, scan, String.toList_ofList, ← hfinish]
    rfl
  · rw [scan, scan, String.toList_ofList, ← hfinish]
    rfl
  · intro other c' h' hcurrent' hline'
    obtain ⟨before', rest', hother, hlength, -, -, hfinish'⟩ := exists_rest h'
    -- the other run is where `other` ends, so it has the same rest before it
    have hsame : other.toList ++ rest = before' ++ rest' := by
      rw [← hother]
      simp
    have hbytes : byteLength other.toList = byteLength before' := by
      rw [byteLength_toList, hlength, hcurrent']
    obtain rfl := eq_of_append_eq hsame hbytes
    rw [finish_foldl_segments (hline' ▸ hpos), hline'] at hfinish'
    exact ⟨(Scan.ofText rest).below (c.line - 1), hfinish.symm, hfinish'.symm⟩

/-- The place behind a string over two lines, with a character of two bytes in it. -/
theorem restart_behind_string :
    ∃ c, Reachable (utf8 "\"é\n\"é1".toList) c ∧ c.tokens ≠ [] ∧
      ∃ before rest : String, "\"é\n\"é1" = before ++ rest ∧ before.utf8ByteSize = c.current ∧
        c.line = lastLine before.toList ∧
        (run (utf8 "\"é\n\"é1".toList) c).map finish = some (scan "\"é\n\"é1") ∧
        (scan "\"é\n\"é1").tokens =
          c.tokens ++ (scan rest).tokens.map (Token.below (c.line - 1)) ∧
        (scan "\"é\n\"é1").errors =
          c.errors ++ (scan rest).errors.map (Diagnostic.below (c.line - 1)) :=
  have hstep : step (utf8 "\"é\n\"é1".toList) initial =
      some ⟨0, 5, 2, [⟨.string, "\"é\n\"", some (.string "é\n"), 2⟩], []⟩ := by decide +kernel
  have h := Reachable.initial.step (by decide) hstep
  have ⟨before, rest, hsource, hcurrent, hline, hrun, htokens, herrors, _⟩ := restart _ _ h
  ⟨_, h, List.cons_ne_nil _ _, before, rest, hsource, hcurrent, hline, hrun, htokens, herrors⟩

end Cursor

end LoxLexer
