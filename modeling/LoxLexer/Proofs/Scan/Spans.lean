import LoxLexer.Proofs.Cursor.Run
import LoxLexer.Proofs.Token.WellFormed

/-!
# Spans and lines of findings

`findings_in_place`: the findings of a source stand in its order without overlap, and each says what
is true of its span (`Item.Placed`).

* `placed_of_mem`: a token's lexeme is the text of the span and its line that of the span's end; an
  unexpected character is on the line that its span begins on, an unterminated string on the last.
* `pairwise_line`: so the lines of findings never decrease.
* `takesIn_of_step`: the cursor over bytes takes in these findings, each at its span.
* `Scan.lines_eq_one`: in a source without a line feed all tokens and diagnostics are on line one.
-/

namespace LoxLexer

/-! ## Lines -/

theorem lastLine_take_le (cs : List Char) {i j : Nat} (h : i ≤ j) :
    lastLine (cs.take i) ≤ lastLine (cs.take j) :=
  Nat.add_le_add_left ((List.take_prefix_take_left h).sublist.count_le '\n') 1

theorem lastLine_take_le_lastLine (cs : List Char) (i : Nat) : lastLine (cs.take i) ≤ lastLine cs :=
  Nat.add_le_add_left ((List.take_sublist i cs).count_le '\n') 1

namespace Item

def line : Item → Nat
  | token t => t.line
  | diagnostic d => d.line

/-- What the item says is true of this span of the source. -/
def Placed (cs : List Char) (start stop : Nat) : Item → Prop
  | token t => t.kind ≠ .eof ∧ t.lexeme = String.ofList (cs.extract start stop) ∧
      t.line = lastLine (cs.take stop)
  | diagnostic ⟨.unexpectedCharacter, line⟩ => stop = start + 1 ∧ line = lastLine (cs.take start)
  | diagnostic ⟨.unterminatedString, line⟩ => stop = cs.length ∧ line = lastLine cs

/-- The line of an item is that of a place in its span. -/
theorem Placed.line_mem {cs : List Char} {start stop : Nat} {item : Item}
    (h : item.Placed cs start stop) (hle : start ≤ stop) :
    lastLine (cs.take start) ≤ item.line ∧ item.line ≤ lastLine (cs.take stop) := by
  have hmono := lastLine_take_le cs hle
  rcases item with t | ⟨_ | _, l⟩
  · obtain ⟨-, -, hl⟩ := h
    rw [line, hl]
    exact ⟨hmono, Nat.le_refl _⟩
  · obtain ⟨-, hl⟩ := h
    rw [line, hl]
    exact ⟨Nat.le_refl _, hmono⟩
  · obtain ⟨rfl, hl⟩ := h
    rw [line, hl, List.take_length]
    exact ⟨lastLine_take_le_lastLine cs start, Nat.le_refl _⟩

end Item

/-- The item of a segment says what is true of the span of that segment. -/
theorem Segment.placed_of_item? {before after : List Char} {s : Segment} {item : Item}
    (hs : s.Lexical) (he : s.EndsBefore after)
    (h : s.item? (lastLine before + newlines s.text) = some item) :
    item.Placed (before ++ (s.text ++ after)) before.length (before.length + s.text.length) := by
  have hline : lastLine before + newlines s.text = lastLine (before ++ s.text) := by
    rw [lastLine, lastLine, newlines_append, Nat.add_assoc]
  have htake : (before ++ (s.text ++ after)).take (before.length + s.text.length) =
      before ++ s.text := by
    rw [← List.length_append, ← List.append_assoc, List.take_left]
  cases item with
  | token t =>
    refine ⟨(wellFormed_of_item? h hs).kind_ne_eof, ?_, ?_⟩
    · rw [lexeme_of_item? h, List.extract_eq_take_drop, Nat.add_sub_cancel_left, List.drop_left,
        List.take_left]
    · rw [line_of_item? h, htake, hline]
  | diagnostic d =>
    cases s with
    | openString value =>
      cases h
      cases he
      refine ⟨?_, ?_⟩
      · rw [List.append_nil, List.length_append]
      · rw [hline, List.append_nil]
    | stray c =>
      cases h
      refine ⟨rfl, ?_⟩
      rw [List.take_left]
      exact congrArg (lastLine before + ·) (newlines_stray hs)
    | mark m | blank c | comment body | string value | number digits | word letters => cases h

/-! ## The findings in segments -/

namespace Finding

theorem ofSegments_append (offset line : Nat) (ss ts : List Segment) :
    ofSegments offset line (ss ++ ts) = ofSegments offset line ss ++
      ofSegments (offset + (ss.flatMap Segment.text).length)
        (line + newlines (ss.flatMap Segment.text)) ts := by
  induction ss generalizing offset line with
  | nil => rfl
  | cons s ss ih =>
    rw [List.cons_append, ofSegments_cons, ofSegments_cons, ih, List.flatMap_cons, newlines_append,
      List.length_append, List.append_assoc, Nat.add_assoc, Nat.add_assoc]

theorem ofSegments_singleton (offset line : Nat) (s : Segment) :
    ofSegments offset line [s] =
      (s.item? (line + newlines s.text)).toList.map (⟨offset, offset + s.text.length, ·⟩) := by
  rw [ofSegments_cons, ofSegments, List.append_nil]

/-- A finding is the item of one of the segments, on the span of that segment. -/
theorem exists_of_mem {offset line : Nat} {ss : List Segment} {f : Finding}
    (h : f ∈ ofSegments offset line ss) : ∃ before s after, ss = before ++ s :: after ∧
      f.start = offset + (before.flatMap Segment.text).length ∧
      f.stop = f.start + s.text.length ∧
      s.item? (line + newlines (before.flatMap Segment.text) + newlines s.text) = some f.item := by
  induction ss generalizing offset line with
  | nil => cases h
  | cons s ss ih =>
    rw [ofSegments_cons, List.mem_append] at h
    rcases h with h | h
    · obtain ⟨item, hitem, rfl⟩ := List.mem_map.1 h
      exact ⟨[], s, ss, rfl, rfl, rfl, Option.mem_toList.1 hitem⟩
    · obtain ⟨before, t, after, rfl, hstart, hstop, hitem⟩ := ih h
      refine ⟨s :: before, t, after, rfl, ?_, hstop, ?_⟩
      · rw [hstart, List.flatMap_cons, List.length_append, Nat.add_assoc]
      · rw [List.flatMap_cons, newlines_append, ← Nat.add_assoc, hitem]

theorem pairwise_ofSegments (offset line : Nat) (ss : List Segment) :
    (ofSegments offset line ss).Pairwise (·.stop ≤ ·.start) := by
  induction ss generalizing offset line with
  | nil => exact .nil
  | cons s ss ih =>
    rw [ofSegments_cons, List.pairwise_append]
    refine ⟨?_, ih _ _, ?_⟩
    · cases s.item? (line + newlines s.text) with
      | none => exact .nil
      | some item => exact List.pairwise_singleton _ _
    · intro f hf g hg
      obtain ⟨item, -, rfl⟩ := List.mem_map.1 hf
      obtain ⟨before, -, -, -, hstart, -⟩ := exists_of_mem hg
      rw [hstart]
      exact Nat.le_add_right _ _

/-- **A finding** says what is true of its span. -/
theorem placed_of_mem {cs : List Char} {f : Finding} (h : f ∈ ofText cs) :
    f.start < f.stop ∧ f.stop ≤ cs.length ∧ f.item.Placed cs f.start f.stop := by
  obtain ⟨before, s, after, hss, hstart, hstop, hitem⟩ := exists_of_mem h
  have hs := Segment.lexical_of_segments hss
  have hcs := Segment.flatMap_text_segments cs
  rw [hss, List.flatMap_append, List.flatMap_cons] at hcs
  have hplaced := Segment.placed_of_item? hs (Segment.endsBefore_of_segments hss) hitem
  have hpos := List.length_pos_iff.2 hs.text_ne_nil
  rw [Nat.zero_add] at hstart
  rw [hcs, ← hstart, ← hstop] at hplaced
  refine ⟨by omega, ?_, hplaced⟩
  rw [← hcs, List.length_append, List.length_append]
  omega

/-- A string is on the line of its closing quote. -/
example : ofText "é\n\"a\nb\"".toList =
    [⟨0, 1, .diagnostic ⟨.unexpectedCharacter, 1⟩⟩,
      ⟨2, 7, .token ⟨.string, "\"a\nb\"", some (.string "a\nb"), 3⟩⟩] := by decide +kernel

end Finding

/-! ## Lines in order -/

namespace Finding

theorem line_of_token? {f : Finding} {t : Token} (h : f.token? = some t) :
    f.item.line = t.line := by
  obtain ⟨start, stop, item⟩ := f
  cases item <;> cases h
  rfl

theorem line_of_diagnostic? {f : Finding} {d : Diagnostic} (h : f.diagnostic? = some d) :
    f.item.line = d.line := by
  obtain ⟨start, stop, item⟩ := f
  cases item <;> cases h
  rfl

theorem line_le_lastLine {cs : List Char} {f : Finding} (h : f ∈ ofText cs) :
    f.item.line ≤ lastLine cs := by
  obtain ⟨hlt, -, hplaced⟩ := placed_of_mem h
  obtain ⟨-, hle⟩ := hplaced.line_mem (Nat.le_of_lt hlt)
  exact Nat.le_trans hle (lastLine_take_le_lastLine cs f.stop)

/-- The lines of findings never decrease. -/
theorem pairwise_line (cs : List Char) : (ofText cs).Pairwise (·.item.line ≤ ·.item.line) := by
  refine (pairwise_ofSegments 0 1 _).imp_of_mem fun {f g} hf hg hfg => ?_
  obtain ⟨hlt, -, hplaced⟩ := placed_of_mem hf
  obtain ⟨hlt', -, hplaced'⟩ := placed_of_mem hg
  calc f.item.line ≤ lastLine (cs.take f.stop) := (hplaced.line_mem (Nat.le_of_lt hlt)).2
    _ ≤ lastLine (cs.take g.start) := lastLine_take_le cs hfg
    _ ≤ g.item.line := (hplaced'.line_mem (Nat.le_of_lt hlt')).1

end Finding

theorem pairwise_line_tokens (cs : List Char) :
    (Scan.ofText cs).tokens.Pairwise (·.line ≤ ·.line) ∧
      ∀ t ∈ (Scan.ofText cs).tokens, t.line ≤ lastLine cs := by
  have hle : ∀ t ∈ (Finding.ofText cs).filterMap Finding.token?, t.line ≤ lastLine cs := by
    intro t ht
    obtain ⟨f, hf, hft⟩ := List.mem_filterMap.1 ht
    rw [← Finding.line_of_token? hft]
    exact Finding.line_le_lastLine hf
  have hpairwise := (Finding.pairwise_line cs).filterMap (S := (·.line ≤ ·.line)) Finding.token?
    fun f g hfg t ht t' ht' => by rwa [Finding.line_of_token? ht, Finding.line_of_token? ht'] at hfg
  refine ⟨List.pairwise_append.2 ⟨hpairwise, List.pairwise_singleton _ _, ?_⟩, ?_⟩
  · intro t ht t' ht'
    rw [List.mem_singleton.1 ht']
    exact hle t ht
  · intro t ht
    rcases List.mem_append.1 ht with ht | ht
    · exact hle t ht
    · rw [List.mem_singleton.1 ht]
      exact Nat.le_refl _

theorem pairwise_line_errors (cs : List Char) :
    (Scan.ofText cs).errors.Pairwise (·.line ≤ ·.line) ∧
      ∀ d ∈ (Scan.ofText cs).errors, d.line ≤ lastLine cs := by
  refine ⟨(Finding.pairwise_line cs).filterMap _ fun f g hfg d hd d' hd' => ?_, fun d hd => ?_⟩
  · rwa [Finding.line_of_diagnostic? hd, Finding.line_of_diagnostic? hd'] at hfg
  · obtain ⟨f, hf, hfd⟩ := List.mem_filterMap.1 hd
    rw [← Finding.line_of_diagnostic? hfd]
    exact Finding.line_le_lastLine hf

/-! ## The findings of a run -/

namespace Cursor

/-- The cursor has taken in these findings and no others. -/
def HasFound (c : Cursor) (fs : List Finding) : Prop :=
  c.tokens = fs.filterMap Finding.token? ∧ c.errors = fs.filterMap Finding.diagnostic?

theorem HasFound.foldl_past {c : Cursor} {fs : List Finding} (h : c.HasFound fs) (ss : List Segment)
    (offset : Nat) : (ss.foldl past c).HasFound (fs ++ Finding.ofSegments offset c.line ss) := by
  induction ss generalizing c fs offset with
  | nil => rwa [Finding.ofSegments, List.append_nil]
  | cons s ss ih =>
    obtain ⟨htokens, herrors⟩ := h
    have hpast : (c.past s).HasFound (fs ++ (s.item? (c.line + newlines s.text)).toList.map
        (⟨offset, offset + s.text.length, ·⟩)) := by
      rw [past, HasFound]
      rcases s.item? (c.line + newlines s.text) with _ | _ | _ <;>
        simp [record, Finding.token?, Finding.diagnostic?, List.filterMap_cons, htokens, herrors]
    have hrest := ih hpast (offset + s.text.length)
    rwa [line_past, List.append_assoc, ← Finding.ofSegments_cons] at hrest

theorem hasFound_foldl_initial (ss : List Segment) :
    (ss.foldl past initial).HasFound (Finding.ofSegments 0 1 ss) := by
  have h : initial.HasFound [] := ⟨rfl, rfl⟩
  exact h.foldl_past ss 0

/-- From `c` to `c'` no finding is taken in, or only the next one of the source, and then from
`start` to `current` is its span. -/
def TakesIn (cs : List Char) (c c' : Cursor) : Prop :=
  ∃ found new ahead, Finding.ofText cs = found ++ new ++ ahead ∧ c.HasFound found ∧
    c'.HasFound (found ++ new) ∧ new.length ≤ 1 ∧
    ∀ f ∈ new, c'.start = byteLength (cs.take f.start) ∧ c'.current = byteLength (cs.take f.stop)

theorem takesIn_of_step {cs : List Char} {c c' : Cursor} (h : Reachable (utf8 cs) c)
    (hlt : c.current < (utf8 cs).length) (hstep : step (utf8 cs) c = some c') :
    TakesIn cs c c' := by
  obtain ⟨ss, s, rest, hss, hcs, rfl, hnext⟩ := exists_step_of_reachable h hlt
  rw [hnext] at hstep
  cases hstep
  have hnext := hasFound_foldl_initial (ss ++ [s])
  have hall := Finding.ofSegments_append 0 1 (ss ++ [s]) (Segment.segments rest)
  rw [List.append_assoc, List.singleton_append, ← hss, Finding.ofSegments_append 0 1 ss] at hall
  rw [List.foldl_append, List.foldl_cons, List.foldl_nil, Finding.ofSegments_append] at hnext
  refine ⟨_, _, _, hall, hasFound_foldl_initial ss, hnext, ?_, ?_⟩
  · rw [Finding.ofSegments_singleton, List.length_map]
    cases s.item? (1 + newlines (ss.flatMap Segment.text) + newlines s.text) <;> simp
  · intro f hf
    rw [Finding.ofSegments_singleton] at hf
    obtain ⟨item, -, rfl⟩ := List.mem_map.1 hf
    have hstart : cs.take (ss.flatMap Segment.text).length = ss.flatMap Segment.text := by
      rw [hcs, List.append_assoc, List.take_left]
    have hstop : cs.take ((ss.flatMap Segment.text).length + s.text.length) =
        ss.flatMap Segment.text ++ s.text := by
      rw [hcs, ← List.length_append, List.take_left]
    dsimp only
    rw [Nat.zero_add, hstart, hstop, start_past, current_past, current_foldl_initial,
      byteLength_append]
    exact ⟨rfl, rfl⟩

end Cursor

/-- **Spans and lines**: the findings of a source, which are its tokens but for the last and its
diagnostics, stand in order without overlap, and what each says is true of its span; a run of the
cursor takes them in at their spans; and lines never decrease up to that of the end. -/
theorem findings_in_place (source : String) :
    (Finding.ofText source.toList).Pairwise (·.stop ≤ ·.start) ∧
    (∀ f ∈ Finding.ofText source.toList, f.start < f.stop ∧ f.stop ≤ source.toList.length ∧
      f.item.Placed source.toList f.start f.stop) ∧
    scan source = ⟨(Finding.ofText source.toList).filterMap Finding.token? ++
      [Token.eof (lastLine source.toList)],
      (Finding.ofText source.toList).filterMap Finding.diagnostic?⟩ ∧
    Cursor.scan? source.toList = some (scan source) ∧
    (∀ c c', Cursor.Reachable (utf8 source.toList) c → c.current < (utf8 source.toList).length →
      Cursor.step (utf8 source.toList) c = some c' → Cursor.TakesIn source.toList c c') ∧
    (scan source).tokens.Pairwise (·.line ≤ ·.line) ∧
    (scan source).errors.Pairwise (·.line ≤ ·.line) ∧
    (∀ t ∈ (scan source).tokens, t.line ≤ lastLine source.toList) ∧
    ∀ d ∈ (scan source).errors, d.line ≤ lastLine source.toList := by
  obtain ⟨htokens, htokens'⟩ := pairwise_line_tokens source.toList
  obtain ⟨herrors, herrors'⟩ := pairwise_line_errors source.toList
  exact ⟨Finding.pairwise_ofSegments 0 1 _, fun _ => Finding.placed_of_mem, rfl,
    Cursor.scan?_eq_ofText _, fun _ _ => Cursor.takesIn_of_step, htokens, herrors, htokens',
    herrors'⟩

/-! ## Sources on one line -/

theorem lastLine_take_eq_one {cs : List Char} (h : '\n' ∉ cs) (n : Nat) :
    lastLine (cs.take n) = 1 := by
  have hmem : '\n' ∉ cs.take n := fun hmem => h ((List.take_sublist n cs).subset hmem)
  rw [lastLine, newlines_eq_zero hmem]

theorem Finding.line_eq_one {cs : List Char} (h : '\n' ∉ cs) {f : Finding} (hf : f ∈ ofText cs) :
    f.item.line = 1 := by
  obtain ⟨hlt, -, hplaced⟩ := placed_of_mem hf
  obtain ⟨hstart, hstop⟩ := hplaced.line_mem (Nat.le_of_lt hlt)
  rw [lastLine_take_eq_one h] at hstart hstop
  exact Nat.le_antisymm hstop hstart

/-- **On one line**: all that a source without a line feed scans to is on line one. -/
theorem Scan.lines_eq_one {cs : List Char} (h : '\n' ∉ cs) :
    (∀ t ∈ (ofText cs).tokens, t.line = 1) ∧ ∀ d ∈ (ofText cs).errors, d.line = 1 := by
  refine ⟨fun t ht => ?_, fun d hd => ?_⟩
  · rcases List.mem_append.1 ht with ht | ht
    · obtain ⟨f, hf, hft⟩ := List.mem_filterMap.1 ht
      rw [← Finding.line_of_token? hft, Finding.line_eq_one h hf]
    · rw [List.mem_singleton.1 ht, Token.eof, lastLine, newlines_eq_zero h]
  · obtain ⟨f, hf, hfd⟩ := List.mem_filterMap.1 hd
    rw [← Finding.line_of_diagnostic? hfd, Finding.line_eq_one h hf]

end LoxLexer
