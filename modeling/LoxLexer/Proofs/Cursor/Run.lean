import LoxLexer.Proofs.Cursor.Step

/-!
# A run reads the segments of a text

A run of the cursor goes past the segments of the text, one a step (`run_eq_foldl`), so it finds
what is read off them: `scan? cs = some (Scan.ofText cs)` (`scan?_eq_ofText`). The places that a
run comes past are those behind the first few segments (`exists_segments_of_reachable`).
-/

namespace LoxLexer

namespace Cursor

/-! ## Moving past segments -/

theorem current_foldl_past (ss : List Segment) (c : Cursor) :
    (ss.foldl past c).current = c.current + byteLength (ss.flatMap Segment.text) := by
  induction ss generalizing c with
  | nil => rfl
  | cons s ss ih =>
    rw [List.foldl_cons, ih, current_past, List.flatMap_cons, byteLength_append, Nat.add_assoc]

theorem line_foldl_past (ss : List Segment) (c : Cursor) :
    (ss.foldl past c).line = c.line + newlines (ss.flatMap Segment.text) := by
  induction ss generalizing c with
  | nil => rfl
  | cons s ss ih =>
    rw [List.foldl_cons, ih, line_past, List.flatMap_cons, newlines_append, Nat.add_assoc]

/-- What is found on the way past segments is what is read off them. -/
theorem finish_foldl_past {ss : List Segment} (h : ∀ s ∈ ss, s.Lexical) (c : Cursor) :
    (ss.foldl past c).finish =
      ⟨c.tokens ++ (Scan.ofSegments c.line ss).tokens,
        c.errors ++ (Scan.ofSegments c.line ss).errors⟩ := by
  induction ss generalizing c with
  | nil => simp [finish, Scan.ofSegments]
  | cons s ss ih =>
    rw [List.foldl_cons, ih (fun t ht => h t (List.mem_cons_of_mem _ ht)), line_past,
      Scan.ofSegments_cons (h s List.mem_cons_self), past]
    rcases s.item? (c.line + newlines s.text) with _ | _ | _ <;>
      simp [record, Scan.consOption, Scan.cons]

/-! ## Runs -/

section
variable {pre : List Char} {c : Cursor} (hc : c.current = byteLength pre)
include hc

theorem step_cons (d : Char) (cs : List Char) :
    step (utf8 (pre ++ d :: cs)) c = some (c.past (Segment.cut d cs).1) := by
  rw [← Segment.text_cut d cs]
  exact step_eq_past hc (Segment.lexical_cut d cs) (Segment.endsBefore_cut d cs)

theorem current_lt_cons (d : Char) (cs : List Char) :
    c.current < (utf8 (pre ++ d :: cs)).length := by
  have := byteLength_pos (List.cons_ne_nil d cs)
  rw [length_utf8, byteLength_append, hc]
  omega

/-- **A run** from between two characters of a text goes past the segments of the text from there
on. -/
theorem run_eq_foldl (cs : List Char) :
    run (utf8 (pre ++ cs)) c = some ((Segment.segments cs).foldl past c) := by
  fun_induction Segment.segments cs generalizing pre c with
  | case1 =>
    have hend : (utf8 (pre ++ [])).length = c.current := by rw [List.append_nil, length_utf8, hc]
    rw [run, if_pos (Nat.le_of_eq hend)]
    rfl
  | case2 d cs ih =>
    have hpast : (c.past (Segment.cut d cs).1).current =
        byteLength (pre ++ (Segment.cut d cs).1.text) := by
      rw [current_past, byteLength_append, hc]
    have hnext := ih hpast
    rw [List.append_assoc, Segment.text_cut] at hnext
    have hstep := step_cons hc d cs
    rw [run, if_neg (Nat.not_le.2 (current_lt_cons hc d cs))]
    split
    · next h => rw [hstep] at h; cases h
    · next c' h =>
      rw [hstep] at h
      cases h
      exact hnext

end

/-- Going past all segments of a text finds what the scan over its characters finds. -/
theorem finish_foldl_initial (cs : List Char) :
    ((Segment.segments cs).foldl past initial).finish = Scan.ofText cs := by
  rw [finish_foldl_past fun _ => Segment.lexical_of_mem_segments, Scan.ofText_eq_ofSegments]
  rfl

/-- **The scan over bytes** finds what the scan over characters finds. -/
theorem scan?_eq_ofText (cs : List Char) : scan? cs = some (Scan.ofText cs) := by
  have hinitial : initial.current = byteLength [] := rfl
  have hrun := run_eq_foldl hinitial cs
  rw [List.nil_append] at hrun
  rw [scan?, hrun, Option.map_some, finish_foldl_initial]

/-! ## The places of a run -/

theorem current_foldl_initial (ss : List Segment) :
    (ss.foldl past initial).current = byteLength (ss.flatMap Segment.text) := by
  rw [current_foldl_past]
  exact Nat.zero_add _

/-- Behind the first segments of a text, unless they are all, a step goes past one more. -/
theorem exists_step_of_lt {cs rest : List Char} {ss : List Segment}
    (hcs : cs = ss.flatMap Segment.text ++ rest)
    (hlt : (ss.foldl past initial).current < (utf8 cs).length) :
    ∃ s rest', Segment.segments rest = s :: Segment.segments rest' ∧ rest = s.text ++ rest' ∧
      step (utf8 cs) (ss.foldl past initial) = some ((ss.foldl past initial).past s) := by
  obtain _ | ⟨d, rest⟩ := rest
  · rw [hcs, List.append_nil, length_utf8, current_foldl_initial] at hlt
    exact absurd hlt (Nat.lt_irrefl _)
  · refine ⟨(Segment.cut d rest).1, (Segment.cut d rest).2, Segment.segments_cons d rest,
      (Segment.text_cut d rest).symm, ?_⟩
    rw [hcs, step_cons (current_foldl_initial ss) d rest]

theorem exists_segments_of_reachable {cs : List Char} {c : Cursor} (h : Reachable (utf8 cs) c) :
    ∃ ss rest, Segment.segments cs = ss ++ Segment.segments rest ∧
      cs = ss.flatMap Segment.text ++ rest ∧ c = ss.foldl past initial := by
  induction h with
  | initial => exact ⟨[], cs, rfl, rfl, rfl⟩
  | step _ hlt hstep ih =>
    obtain ⟨ss, rest, hss, hcs, rfl⟩ := ih
    obtain ⟨s, rest', hrest, htext, hnext⟩ := exists_step_of_lt hcs hlt
    rw [hnext] at hstep
    cases hstep
    refine ⟨ss ++ [s], rest', ?_, ?_, ?_⟩
    · rw [hss, hrest, List.append_assoc, List.singleton_append]
    · rw [hcs, htext, List.flatMap_append, List.flatMap_singleton, List.append_assoc]
    · rw [List.foldl_append, List.foldl_cons, List.foldl_nil]

/-- **Before the end**, a run can go on, and goes past the next segment. -/
theorem exists_step_of_reachable {cs : List Char} {c : Cursor} (h : Reachable (utf8 cs) c)
    (hlt : c.current < (utf8 cs).length) :
    ∃ ss s rest, Segment.segments cs = ss ++ s :: Segment.segments rest ∧
      cs = ss.flatMap Segment.text ++ s.text ++ rest ∧ c = ss.foldl past initial ∧
      step (utf8 cs) c = some (c.past s) := by
  obtain ⟨ss, rest, hss, hcs, rfl⟩ := exists_segments_of_reachable h
  obtain ⟨s, rest', hrest, htext, hnext⟩ := exists_step_of_lt hcs hlt
  refine ⟨ss, s, rest', by rw [hss, hrest], ?_, rfl, hnext⟩
  rw [hcs, htext, List.append_assoc]

end Cursor

end LoxLexer
