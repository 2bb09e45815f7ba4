import LoxLexer.Event.Scan
import LoxLexer.Proofs.Scan.Spans
import LoxLexer.Scan

/-!
# Events agree with the scan

`events_in_order`: the events of a scan are its findings, one for one and in the order of their
spans, and then the summary, so tokens and diagnostics can be read off them. What an event holds is
written out there and in `Item.event`.

* `ofFinding?_traced`: a traced scan has one event for each finding.
* `lt_iff_stop_le_start`: of two findings the one that stands before the other comes first.
* `Cursor.events?_eq`: a run that logs what each step takes in ends with these events, so the order
  of the log is that of the source although tokens and diagnostics are kept apart.
-/

namespace LoxLexer

/-! ## Events of findings -/

namespace Item

/-- What the event of an item holds: a token is traced as it is written in a listing, and of a
diagnostic the message is reported, each with its line. -/
def event : Item → Event
  | token t => ⟨.trace, "lox_scanner::scanner", t.text, [("line", .count t.line)]⟩
  | diagnostic d => ⟨.debug, "lox_scanner::scanner", d.fault.message, [("line", .count d.line)]⟩

theorem fields_event (item : Item) : item.event.fields = [("line", .count item.line)] := by
  cases item <;> rfl

end Item

namespace Event

theorem ofFinding?_traced (f : Finding) : ofFinding? true f = some f.item.event := by
  obtain ⟨start, stop, item⟩ := f
  cases item <;> rfl

theorem ofFinding?_untraced (f : Finding) :
    ofFinding? false f = (ofFinding? true f).filter (·.level ≠ .trace) := by
  obtain ⟨start, stop, item⟩ := f
  cases item <;> rfl

end Event

namespace Finding

theorem filterMap_ofFinding?_traced (fs : List Finding) :
    fs.filterMap (Event.ofFinding? true) = fs.map (·.item.event) := by
  rw [funext Event.ofFinding?_traced, List.filterMap_eq_map']

theorem filter_trace (fs : List Finding) :
    (fs.map (·.item.event)).filter (·.level = .trace) =
      (fs.filterMap Finding.token?).map Event.ofToken := by
  induction fs with
  | nil => rfl
  | cons f fs ih =>
    obtain ⟨start, stop, item⟩ := f
    cases item with
    | token t => exact congrArg (Event.ofToken t :: ·) ih
    | diagnostic d => exact ih

theorem filter_debug (fs : List Finding) :
    (fs.map (·.item.event)).filter (·.level = .debug) =
      (fs.filterMap Finding.diagnostic?).map Event.ofDiagnostic := by
  induction fs with
  | nil => rfl
  | cons f fs ih =>
    obtain ⟨start, stop, item⟩ := f
    cases item with
    | token t => exact ih
    | diagnostic d => exact congrArg (Event.ofDiagnostic d :: ·) ih

/-- **Of two findings** the one whose span lies before that of the other comes first. -/
theorem lt_iff_stop_le_start {cs : List Char} {i j : Nat} {f g : Finding}
    (hf : (ofText cs)[i]? = some f) (hg : (ofText cs)[j]? = some g) :
    i < j ↔ f.stop ≤ g.start := by
  have hpairwise : (ofText cs).Pairwise (·.stop ≤ ·.start) := pairwise_ofSegments 0 1 _
  have hspan {k : Nat} {h : Finding} (hk : (ofText cs)[k]? = some h) : h.start < h.stop :=
    (placed_of_mem (List.mem_of_getElem? hk)).1
  have horder {k l : Nat} {h h' : Finding} (hk : (ofText cs)[k]? = some h)
      (hl : (ofText cs)[l]? = some h') (hkl : k < l) : h.stop ≤ h'.start := by
    obtain ⟨hk', rfl⟩ := List.getElem?_eq_some_iff.1 hk
    obtain ⟨hl', rfl⟩ := List.getElem?_eq_some_iff.1 hl
    exact List.pairwise_iff_getElem.1 hpairwise k l hk' hl' hkl
  refine ⟨horder hf hg, fun hle => ?_⟩
  have hf' := hspan hf
  have hg' := hspan hg
  rcases Nat.lt_trichotomy i j with hij | rfl | hji
  · exact hij
  · obtain rfl := Option.some.inj (hf.symm.trans hg)
    omega
  · have := horder hg hf hji
    omega

end Finding

/-! ## The log of a run -/

namespace Cursor

/-- A step past a segment emits the event of the segment's item. -/
theorem emitted_past (traced : Bool) (c : Cursor) (s : Segment) (offset stop : Nat) :
    emitted traced c (c.past s) =
      ((s.item? (c.line + newlines s.text)).toList.map (Finding.mk offset stop)).filterMap
        (Event.ofFinding? traced) := by
  rw [past]
  rcases s.item? (c.line + newlines s.text) with _ | t | d <;> cases traced <;>
    simp [record, emitted, Event.ofFinding?]

/-- **The log of a run** from between two characters of a text grows by the events of the findings
from there on. -/
theorem runLog_eq (traced : Bool) {pre : List Char} {c : Cursor} (hc : c.current = byteLength pre)
    (cs : List Char) (log : List Event) (offset : Nat) :
    runLog traced (utf8 (pre ++ cs)) c log = some ((Segment.segments cs).foldl past c,
      log ++ (Finding.ofSegments offset c.line (Segment.segments cs)).filterMap
        (Event.ofFinding? traced)) := by
  fun_induction Segment.segments cs generalizing pre c log offset with
  | case1 =>
    have hend : (utf8 (pre ++ [])).length = c.current := by rw [List.append_nil, length_utf8, hc]
    rw [runLog, if_pos (Nat.le_of_eq hend)]
    simp [Finding.ofSegments]
  | case2 d cs ih =>
    have hpast : (c.past (Segment.cut d cs).1).current =
        byteLength (pre ++ (Segment.cut d cs).1.text) := by
      rw [current_past, byteLength_append, hc]
    have hnext := ih hpast (log ++ emitted traced c (c.past (Segment.cut d cs).1))
      (offset + (Segment.cut d cs).1.text.length)
    have hlog : log ++ emitted traced c (c.past (Segment.cut d cs).1) ++
        (Finding.ofSegments (offset + (Segment.cut d cs).1.text.length)
          (c.past (Segment.cut d cs).1).line (Segment.segments (Segment.cut d cs).2)).filterMap
            (Event.ofFinding? traced) =
        log ++ (Finding.ofSegments offset c.line ((Segment.cut d cs).1 ::
          Segment.segments (Segment.cut d cs).2)).filterMap (Event.ofFinding? traced) := by
      rw [Finding.ofSegments_cons, List.filterMap_append, ← emitted_past, line_past,
        List.append_assoc]
    rw [List.append_assoc pre, Segment.text_cut, hlog] at hnext
    have hstep := step_cons hc d cs
    rw [runLog, if_neg (Nat.not_le.2 (current_lt_cons hc d cs))]
    split
    · next h => rw [hstep] at h; cases h
    · next c' h =>
      rw [hstep] at h
      cases h
      exact hnext

/-- **A run that logs** ends with the events of the scan. -/
theorem events?_eq (traced : Bool) (cs : List Char) :
    events? traced cs = some (Scan.events traced cs) := by
  have hinitial : initial.current = byteLength [] := rfl
  have hlog := runLog_eq traced hinitial cs [] 0
  have hline : ((Segment.segments cs).foldl past initial).line = lastLine cs := by
    rw [line_foldl_past, Segment.flatMap_text_segments]
    rfl
  rw [List.nil_append, List.nil_append] at hlog
  rw [events?, hlog, Option.map_some]
  dsimp only
  rw [summary, finish_foldl_initial, hline]
  rfl

end Cursor

/-! ## The stream -/

/-- Without tracing, the events of tokens are left out. -/
theorem Scan.events_untraced (cs : List Char) :
    Scan.events false cs = (Scan.events true cs).filter (·.level ≠ .trace) := by
  rw [Scan.events, Scan.events, List.filter_append, List.filter_filterMap,
    funext Event.ofFinding?_untraced]
  rfl

/-- The events of the findings are about lines that never decrease, up to that of the end. -/
theorem Finding.pairwise_lines (cs : List Char) :
    (((ofText cs).map (·.item.line)) ++ [lastLine cs]).Pairwise (· ≤ ·) := by
  refine List.pairwise_append.2 ⟨?_, List.pairwise_singleton _ _, ?_⟩
  · rw [List.pairwise_map]
    exact pairwise_line cs
  · intro line hline last hlast
    obtain ⟨f, hf, rfl⟩ := List.mem_map.1 hline
    rw [List.mem_singleton.1 hlast]
    exact line_le_lastLine hf

/-- **Events agree with the scan**: a traced scan reports its findings, one for one, and then how
many tokens and diagnostics there are and the line of the end. The trace events are the tokens but
for the end, and the debug events before the summary are the diagnostics. Of two findings the one
whose span lies before that of the other is reported first, and so the lines never decrease. An
untraced scan reports the same but for the trace events. A run that reports each thing as it is
taken in reports the same stream. -/
theorem events_in_order (source : String) :
    ∃ (E : List Event) (k : Nat) (lines : List Nat),
      (scan source).tokens = (scan source).body ++ [Token.eof k] ∧
      Scan.events true source.toList = E ++ [⟨.debug, "lox_scanner::scanner", "scan finished",
        [("tokens", .count (scan source).tokens.length),
          ("errors", .count (scan source).errors.length), ("lines", .count k)]⟩] ∧
      E.filter (·.level = .trace) = (scan source).body.map (fun t =>
        ⟨.trace, "lox_scanner::scanner", t.text, [("line", .count t.line)]⟩) ∧
      E.filter (·.level = .debug) = (scan source).errors.map (fun d =>
        ⟨.debug, "lox_scanner::scanner", d.fault.message, [("line", .count d.line)]⟩) ∧
      E = (Finding.ofText source.toList).map (·.item.event) ∧
      (∀ f ∈ Finding.ofText source.toList, f.item.Placed source.toList f.start f.stop) ∧
      (∀ (i j : Nat) (f g : Finding), (Finding.ofText source.toList)[i]? = some f →
        (Finding.ofText source.toList)[j]? = some g → (f.stop ≤ g.start ↔ i < j)) ∧
      E.map Event.fields = lines.map (fun line => [("line", .count line)]) ∧
      (lines ++ [k]).Pairwise (· ≤ ·) ∧
      Scan.events false source.toList =
        (Scan.events true source.toList).filter (·.level ≠ .trace) ∧
      ∀ traced, Cursor.events? traced source.toList = some (Scan.events traced source.toList) := by
  have hbody : (scan source).body = (Finding.ofText source.toList).filterMap Finding.token? :=
    List.dropLast_concat
  refine ⟨(Finding.ofText source.toList).map (·.item.event), lastLine source.toList,
    (Finding.ofText source.toList).map (·.item.line), ?_, ?_, ?_, ?_, rfl, ?_, ?_, ?_,
    Finding.pairwise_lines _, ?_, fun traced => Cursor.events?_eq traced _⟩
  · rw [hbody]
    rfl
  · rw [Scan.events, Finding.filterMap_ofFinding?_traced]
    rfl
  · rw [hbody]
    exact Finding.filter_trace _
  · exact Finding.filter_debug _
  · exact fun f hf => (Finding.placed_of_mem hf).2.2
  · exact fun i j f g hf hg => (Finding.lt_iff_stop_le_start hf hg).symm
  · simp only [List.map_map, Function.comp_def, Item.fields_event]
  · exact Scan.events_untraced _

end LoxLexer
