import LoxLexer.Proofs.Scan.Composition
import LoxLexer.Scan.Edit

/-!
# Layout makes no difference

`scan_layout`: one layout run may take the place of another with as many line feeds, wherever it
stands outside strings.

* `Layout.ofSegments_append`: layout in front of a text only moves its first line.
* `Layout.ofSegments_dropWhile_append`: a comment that is open in front of layout ends in it if
  there is a line feed, and otherwise takes in the line behind it as well.
-/

namespace LoxLexer

/-! ## Layout in front of a text -/

namespace Layout

/-- Layout in front of a text only moves its first line. -/
theorem ofSegments_append {w : List Char} (h : Layout w) (line : Nat) (rest : List Char) :
    Scan.ofSegments line (Segment.segments (w ++ rest)) =
      Scan.ofSegments (line + newlines w) (Segment.segments rest) := by
  induction h generalizing line with
  | nil => rfl
  | @blank c cs hc _ ih =>
    rw [List.cons_append, Scan.ofSegments_blank hc, ih, newlines_eq_add c cs, Nat.add_assoc]
  | @comment body cs hbody _ ih =>
    have htext : '/' :: '/' :: body ++ '\n' :: cs = (Segment.comment body).text ++ '\n' :: cs := rfl
    have hs : (Segment.comment body).Lexical := .inl hbody
    have hend : (Segment.comment body).EndsBefore ('\n' :: (cs ++ rest)) :=
      stops_cons.2 (by decide)
    rw [htext, newlines_append, Segment.newlines_comment hbody, Nat.zero_add,
      newlines_eq_add '\n' cs, List.append_assoc, List.cons_append,
      Segment.segments_append hs hend, Scan.ofSegments, Scan.ofSegments_blank (by decide), ih,
      Nat.add_assoc]

/-- Layout from its first line feed on, with what stood before that taken by an open comment. -/
theorem ofSegments_dropWhile_newline {front cs : List Char} (hfront : '\n' ∉ front)
    (h : Layout cs) (line : Nat) (rest : List Char) :
    Scan.ofSegments line (Segment.segments
        ((front ++ '\n' :: cs ++ rest).dropWhile (· != '\n'))) =
      Scan.ofSegments (line + newlines (front ++ '\n' :: cs)) (Segment.segments rest) := by
  have hdrop := dropWhile_append_of_stops (forall_bne_of_not_mem hfront)
    (stops_cons.2 (by decide) : Stops (· != '\n') ('\n' :: (cs ++ rest)))
  have hlayout := (Layout.blank (c := '\n') (by decide) h).ofSegments_append line rest
  rw [newlines_append, newlines_eq_zero hfront, Nat.zero_add, ← hlayout, List.append_assoc,
    List.cons_append, hdrop]

/-- Layout behind an open comment: the comment ends at the first line feed, in the layout or, if
there is none, in the text behind. -/
theorem ofSegments_dropWhile_append {w : List Char} (h : Layout w) (line : Nat)
    (rest : List Char) :
    Scan.ofSegments line (Segment.segments ((w ++ rest).dropWhile (· != '\n'))) =
      if newlines w = 0 then
        Scan.ofSegments line (Segment.segments (rest.dropWhile (· != '\n')))
      else Scan.ofSegments (line + newlines w) (Segment.segments rest) := by
  induction h with
  | nil => rfl
  | @blank c cs hc hcs ih =>
    by_cases hn : c = '\n'
    · subst hn
      rw [if_neg (by simp [newlines_cons])]
      exact ofSegments_dropWhile_newline List.not_mem_nil hcs line rest
    · have hdrop : ((c :: cs) ++ rest).dropWhile (· != '\n') =
          (cs ++ rest).dropWhile (· != '\n') := List.dropWhile_cons_of_pos (by simpa using hn)
      rw [hdrop, newlines_cons, if_neg hn, Nat.add_zero, ih]
  | @comment body cs hbody hcs _ =>
    rw [if_neg (by simp [newlines_cons])]
    have hfront : '\n' ∉ '/' :: '/' :: body := by simpa using hbody
    exact ofSegments_dropWhile_newline hfront hcs line rest

end Layout

/-! ## Layout in a text -/

namespace Scan

/-- Behind a text that leaves no string and no comment open, a layout run only moves the first line
of what follows. -/
theorem ofText_append_layout {cs : List Char}
    (hopen : ∀ value, Segment.openString value ∉ Segment.segments cs)
    (hlast : ∀ front body, Segment.segments cs ≠ front ++ [.comment body]) {w : List Char}
    (hw : IsLayoutRun w) (rest : List Char) :
    ofText (cs ++ (w ++ rest)) = (ofText cs).followedBy
      (ofSegments (1 + newlines cs + newlines w) (Segment.segments rest)) := by
  obtain ⟨hlayout, c, tail, rfl, hc⟩ := hw
  have hcut := Segment.segments_append_of_parts hopen hlast (Segment.parts_of_isWhitespace hc)
    (tail ++ rest)
  rw [← List.cons_append] at hcut
  rw [ofText_eq_ofSegments, hcut, ofSegments_append fun _ => Segment.lexical_of_mem_segments,
    Segment.flatMap_text_segments, hlayout.ofSegments_append, ← ofText_eq_ofSegments]

/-- Behind a text that ends in a comment, layout makes a difference only by its line feeds. -/
theorem ofText_append_layout_of_comment {cs body : List Char} {front : List Segment}
    (h : Segment.segments cs = front ++ [.comment body]) {w : List Char} (hw : Layout w)
    (rest : List Char) :
    ofText (cs ++ (w ++ rest)) = (ofSegments 1 front).followedBy
      (if newlines w = 0 then
        ofSegments (1 + newlines (front.flatMap Segment.text))
          (Segment.segments (rest.dropWhile (· != '\n')))
      else ofSegments (1 + newlines (front.flatMap Segment.text) + newlines w)
        (Segment.segments rest)) := by
  have hfront := Segment.forall_lexical_of_segments h
  rw [ofText_eq_ofSegments, Segment.segments_append_of_comment h, ofSegments_append hfront,
    ofSegments, hw.ofSegments_dropWhile_append]

end Scan

/-- **Layout independence**: layout runs with as many line feeds behind a source that leaves no
string open make no difference between themselves, whatever the source ends in and whatever comes
behind. -/
theorem scan_layout (p q w w' : String) (hp : (scan p).isOpen = false)
    (hw : IsLayoutRun w.toList) (hw' : IsLayoutRun w'.toList)
    (hlines : newlines w.toList = newlines w'.toList) :
    scan (p ++ w ++ q) = scan (p ++ w' ++ q) := by
  have hopen := not_mem_segments_of_isOpen hp
  have htext (v : String) :
      scan (p ++ v ++ q) = Scan.ofText (p.toList ++ (v.toList ++ q.toList)) := by
    rw [scan, String.toList_append, String.toList_append, List.append_assoc]
  rw [htext, htext]
  by_cases hlast : ∃ front body, Segment.segments p.toList = front ++ [.comment body]
  · obtain ⟨front, body, hlast⟩ := hlast
    rw [Scan.ofText_append_layout_of_comment hlast hw.1,
      Scan.ofText_append_layout_of_comment hlast hw'.1, hlines]
  · simp only [not_exists] at hlast
    rw [Scan.ofText_append_layout hopen hlast hw, Scan.ofText_append_layout hopen hlast hw',
      hlines]

/-- Behind an open comment, a comment and a line feed are the same as a line feed. -/
theorem scan_layout_comment : (scan "1.//").isOpen = false ∧
    IsLayoutRun " // \"é\n".toList ∧ IsLayoutRun "\r\n".toList ∧
    newlines " // \"é\n".toList = newlines "\r\n".toList ∧
    scan ("1.//" ++ " // \"é\n" ++ "/ 2") = scan ("1.//" ++ "\r\n" ++ "/ 2") :=
  have hopen : (scan "1.//").isOpen = false := by decide +kernel
  have hw : IsLayoutRun " // \"é\n".toList :=
    ⟨.blank rfl (@Layout.comment " \"é".toList [] (by decide) .nil), ' ', _, rfl, rfl⟩
  have hw' : IsLayoutRun "\r\n".toList := ⟨.blank rfl (.blank rfl .nil), '\r', _, rfl, rfl⟩
  have hlines : newlines " // \"é\n".toList = newlines "\r\n".toList := by decide
  ⟨hopen, hw, hw', hlines, scan_layout "1.//" "/ 2" " // \"é\n" "\r\n" hopen hw hw' hlines⟩

end LoxLexer
