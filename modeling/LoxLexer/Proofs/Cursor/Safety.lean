import LoxLexer.Proofs.Cursor.Run

/-!
# The scan over bytes cannot get stuck

`Safe`: what holds of the cursor wherever a run comes past, and `Advance`: what a step from there
does. No read and no slice of a step can fail, since a step that has one that fails is `none`, and
the inner loops have no way to go on past the last byte.

* `safe_of_reachable`: offsets are in order, in range and between two characters, and the counts
  are bounded by the size of the source.
* `exists_advance`: before the end, a step goes past one character or more.
* `never_stuck`: hence the run ends, with what `scan` gives.
-/

namespace LoxLexer

theorem Segment.length_le_flatMap_text {ss : List Segment} (h : ∀ s ∈ ss, s.Lexical) :
    ss.length ≤ (ss.flatMap text).length := by
  induction ss with
  | nil => exact Nat.le_refl _
  | cons s ss ih =>
    have hs := List.length_pos_iff.2 (h s List.mem_cons_self).text_ne_nil
    have := ih fun t ht => h t (List.mem_cons_of_mem _ ht)
    rw [List.flatMap_cons, List.length_append, List.length_cons]
    omega

namespace Cursor

/-! ## The counts of a cursor -/

/-- How much was found so far. -/
def count (c : Cursor) : Nat := c.tokens.length + c.errors.length

theorem count_past_le (c : Cursor) (s : Segment) : (c.past s).count ≤ c.count + 1 := by
  rw [past]
  rcases s.item? (c.line + newlines s.text) with _ | _ | _ <;> simp [record, count] <;> omega

theorem count_foldl_past_le (ss : List Segment) (c : Cursor) :
    (ss.foldl past c).count ≤ c.count + ss.length := by
  induction ss generalizing c with
  | nil => exact Nat.le_refl _
  | cons s ss ih =>
    have := ih (c.past s)
    have := c.count_past_le s
    rw [List.foldl_cons, List.length_cons]
    omega

/-! ## Wherever a run comes past -/

theorem start_le_foldl_past (ss : List Segment) {c : Cursor} (h : c.start ≤ c.current) :
    (ss.foldl past c).start ≤ (ss.foldl past c).current := by
  induction ss generalizing c with
  | nil => exact h
  | cons s ss ih =>
    refine ih ?_
    rw [start_past, current_past]
    exact Nat.le_add_right _ _

/-- What holds of the cursor between two segments of a text. -/
structure Safe (cs : List Char) (c : Cursor) : Prop where
  start_le : c.start ≤ c.current
  current_le : c.current ≤ (utf8 cs).length
  boundary : isBoundary (utf8 cs) c.current = true
  line_le : c.line ≤ 1 + (utf8 cs).length
  count_le : c.tokens.length + c.errors.length ≤ cs.length

theorem safe_of_reachable {cs : List Char} {c : Cursor} (h : Reachable (utf8 cs) c) :
    c.Safe cs := by
  obtain ⟨ss, rest, hss, hcs, rfl⟩ := exists_segments_of_reachable h
  have hcurrent := current_foldl_initial ss
  refine ⟨start_le_foldl_past ss (Nat.le_refl _), ?_, ?_, ?_, ?_⟩
  · rw [hcs, length_utf8, byteLength_append, hcurrent]
    exact Nat.le_add_right _ _
  · rw [hcs, hcurrent]
    exact isBoundary_append _ _
  · have := newlines_le_length (ss.flatMap Segment.text)
    have := length_le_byteLength (ss.flatMap Segment.text)
    rw [line_foldl_past, hcs, length_utf8, byteLength_append]
    change 1 + newlines (ss.flatMap Segment.text) ≤ _
    omega
  · have hcount := count_foldl_past_le ss initial
    have hlexical : ∀ s ∈ ss, s.Lexical := fun s hs =>
      Segment.lexical_of_mem_segments (hss ▸ List.mem_append_left _ hs)
    have := Segment.length_le_flatMap_text hlexical
    rw [hcs, List.length_append]
    change (ss.foldl past initial).count ≤ _
    change _ ≤ 0 + ss.length at hcount
    omega

/-- What a step between two segments does: it goes past at least one character, and the text that it
goes past is the lexeme of the token it takes in; the value of a string is that text between its
quotes. -/
structure Advance (cs : List Char) (c c' : Cursor) : Prop where
  moves : ∃ pre mid post, cs = pre ++ mid ++ post ∧ mid ≠ [] ∧ c.current = byteLength pre ∧
    c'.start = c.current ∧ c'.current = byteLength (pre ++ mid)
  lexeme : ∀ t, c'.tokens = c.tokens ++ [t] → slice? (utf8 cs) c'.start c'.current = some t.lexeme
  value : ∀ t v, c'.tokens = c.tokens ++ [t] → t.literal = some (.string v) →
    slice? (utf8 cs) (c'.start + 1) (c'.current - 1) = some v

theorem advance_past {pre post : List Char} {c : Cursor} {s : Segment}
    (hc : c.current = byteLength pre) (hs : s.Lexical) :
    Advance (pre ++ s.text ++ post) c (c.past s) := by
  have hstop : (c.past s).current = byteLength (pre ++ s.text) := by
    rw [current_past, byteLength_append, hc]
  refine ⟨⟨pre, s.text, post, rfl, hs.text_ne_nil, hc, start_past c s, hstop⟩, ?_, ?_⟩
  · intro t ht
    rw [start_past, hstop, hc, slice?_append, Segment.lexeme_of_item? (item?_of_tokens_past ht)]
  · intro t v ht hv
    obtain ⟨value, rfl, rfl⟩ := Segment.exists_value_of_item? (item?_of_tokens_past ht) hv
    have hslice := slice?_append (pre ++ ['"']) value ('"' :: post)
    have hclose := byteLength_ascii (c := '"') (by decide) (pre ++ ['"'] ++ value)
    rw [byteLength_ascii (by decide)] at hslice
    simp only [List.append_assoc, List.cons_append, List.nil_append] at hslice hclose
    rw [start_past, hstop, hc]
    simp only [Segment.text, List.append_assoc, List.cons_append, List.nil_append, hclose,
      Nat.add_sub_cancel]
    exact hslice

/-- **Progress**: before the end of the source, there is a step. -/
theorem exists_advance {cs : List Char} {c : Cursor} (h : Reachable (utf8 cs) c)
    (hlt : c.current < (utf8 cs).length) :
    ∃ c', step (utf8 cs) c = some c' ∧ Advance cs c c' := by
  obtain ⟨ss, s, rest, hss, hcs, rfl, hstep⟩ := exists_step_of_reachable h hlt
  have hs := Segment.lexical_of_segments hss
  refine ⟨_, hstep, ?_⟩
  rw [hcs]
  exact advance_past (current_foldl_initial ss) hs

/-! ## The end of a run -/

theorem reachable_of_run {bytes : List UInt8} {c c' : Cursor} (hc : Reachable bytes c)
    (h : run bytes c = some c') : Reachable bytes c' := by
  fun_induction run bytes c with
  | case1 =>
    cases h
    exact hc
  | case2 => cases h
  | case3 c hlt next hstep _ ih => exact ih (.step hc (Nat.lt_of_not_le hlt) hstep) h

/-- **The scan over bytes** never gets stuck: wherever it comes past, it is safe and can go on to
the end, so it ends with a scan, that of the source. It finds no more than one thing a character,
and its lines are no more than its bytes and one. -/
theorem never_stuck (source : String) :
    (∀ c, Reachable (utf8 source.toList) c → c.Safe source.toList ∧
      (c.current < (utf8 source.toList).length →
        ∃ c', step (utf8 source.toList) c = some c' ∧ Advance source.toList c c')) ∧
    ∃ tokens errors last, scan? source.toList = some ⟨tokens ++ [Token.eof last], errors⟩ ∧
      scan source = ⟨tokens ++ [Token.eof last], errors⟩ ∧
      tokens.length + errors.length ≤ source.toList.length ∧
      last ≤ 1 + (utf8 source.toList).length := by
  refine ⟨fun c hc => ⟨safe_of_reachable hc, exists_advance hc⟩, ?_⟩
  have hscan := scan?_eq_ofText source.toList
  obtain ⟨c, hrun, hfinish⟩ := Option.map_eq_some_iff.1 hscan
  have hsafe := safe_of_reachable (reachable_of_run .initial hrun)
  refine ⟨c.tokens, c.errors, c.line, ?_, hfinish.symm, hsafe.count_le, hsafe.line_le⟩
  rw [hscan, ← hfinish]
  rfl

end Cursor

end LoxLexer
