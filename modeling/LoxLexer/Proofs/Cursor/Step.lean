import LoxLexer.Proofs.Cursor.Loops

/-!
# A step reads one segment

`Cursor.past c s`: the cursor `c` moved past the segment `s`, with the segment's item taken in.
From the beginning of a segment that ends before the rest of the text, `step` succeeds and leads
past that segment (`step_eq_past`): no byte is read beyond the end, and every slice lies between
two characters.
-/

namespace LoxLexer

namespace Cursor

/-! ## Moving past a segment -/

/-- The cursor with one more item taken in, if there is one. -/
def record (c : Cursor) : Option Item → Cursor
  | some (.token t) => { c with tokens := c.tokens ++ [t] }
  | some (.diagnostic d) => { c with errors := c.errors ++ [d] }
  | none => c

/-- The cursor past a segment that it stands at. -/
def past (c : Cursor) (s : Segment) : Cursor :=
  let line := c.line + newlines s.text
  { c with start := c.current, current := c.current + byteLength s.text, line }.record
    (s.item? line)

@[simp] theorem start_record (c : Cursor) (item : Option Item) :
    (c.record item).start = c.start := by
  rcases item with _ | _ | _ <;> rfl

@[simp] theorem current_record (c : Cursor) (item : Option Item) :
    (c.record item).current = c.current := by
  rcases item with _ | _ | _ <;> rfl

@[simp] theorem line_record (c : Cursor) (item : Option Item) : (c.record item).line = c.line := by
  rcases item with _ | _ | _ <;> rfl

@[simp] theorem start_past (c : Cursor) (s : Segment) : (c.past s).start = c.current := by
  simp [past]

@[simp] theorem current_past (c : Cursor) (s : Segment) :
    (c.past s).current = c.current + byteLength s.text := by
  simp [past]

@[simp] theorem line_past (c : Cursor) (s : Segment) :
    (c.past s).line = c.line + newlines s.text := by
  simp [past]

theorem item?_of_tokens_past {c : Cursor} {s : Segment} {t : Token}
    (h : (c.past s).tokens = c.tokens ++ [t]) :
    s.item? (c.line + newlines s.text) = some (.token t) := by
  rw [past] at h
  cases hitem : s.item? (c.line + newlines s.text) with
  | none => simp [hitem, record] at h
  | some item =>
    cases item with
    | diagnostic d => simp [hitem, record] at h
    | token t' => simpa [hitem, record] using h

/-! ## The parts of a step -/

section
variable {pre rest : List Char} {c : Cursor} (hc : c.current = byteLength pre)
include hc

/-- Taking in the token of a segment, from the line that it ends on. -/
theorem push_eq_past (rest : List Char) (s : Segment) (kind : String → Kind)
    (literal : String → Option Literal)
    (h : ∀ line, s.item? line = some (.token ⟨kind (String.ofList s.text), String.ofList s.text,
      literal (String.ofList s.text), line⟩)) :
    push (utf8 (pre ++ (s.text ++ rest))) { c with line := c.line + newlines s.text }
      (byteLength (pre ++ s.text)) kind literal = some (c.past s) := by
  have hslice := slice?_append pre s.text rest
  rw [List.append_assoc, ← hc] at hslice
  simp only [push, hslice, past, h, record, Option.bind_eq_bind, Option.bind_some, Option.pure_def]
  rw [byteLength_append, hc]

theorem push_eq_past_of_flat (rest : List Char) (s : Segment) (hs : newlines s.text = 0)
    (kind : String → Kind) (literal : String → Option Literal)
    (h : ∀ line, s.item? line = some (.token ⟨kind (String.ofList s.text), String.ofList s.text,
      literal (String.ofList s.text), line⟩)) :
    push (utf8 (pre ++ (s.text ++ rest))) c (byteLength (pre ++ s.text)) kind literal =
      some (c.past s) := by
  have hpush := push_eq_past hc rest s kind literal h
  rwa [hs] at hpush

/-- Taking in the fault of a segment, from the line that it ends on. -/
theorem report_eq_past (s : Segment) {fault : Fault}
    (h : ∀ line, s.item? line = some (.diagnostic ⟨fault, line⟩)) :
    report { c with line := c.line + newlines s.text } (byteLength (pre ++ s.text)) fault =
      c.past s := by
  simp only [report, past, h, byteLength_append, hc]
  rfl

/-- The choice that a step makes by the first byte is that by the first character. -/
theorem step_eq (d : Char) : step (utf8 (pre ++ d :: rest)) c =
    let bytes := utf8 (pre ++ d :: rest)
    if d.isWhitespace then
      some { c with
        start := c.current
        current := c.current + 1
        line := c.line + newlines [d] }
    else if d = '"' then readString bytes c
    else if d.isDigit then readNumber bytes c
    else if isWordStart d then
      (readWhile bytes (fun b => isWordPart (ascii b)) (c.current + 1)).bind fun stop =>
        push bytes c stop Kind.ofWord fun _ => none
    else
      match Mark.ofChar? d with
      | some m => readMark bytes c m
      | none => (skipWhile bytes isContinuation (c.current + 1)).bind fun stop =>
          some (report c stop .unexpectedCharacter) := by
  obtain ⟨b, bs, he⟩ := List.exists_cons_of_ne_nil (String.utf8EncodeChar_ne_nil (c := d))
  have hb : b ∈ String.utf8EncodeChar d := he ▸ List.mem_cons_self
  have hget := getElem?_utf8_append pre (d :: rest)
  rw [utf8_cons, he, List.cons_append, List.head?_cons, ← hc] at hget
  have hquote : (ascii b = '"') = (d = '"') := (isUniform_eq (by decide)).apply_ascii hb
  have hline : newlines [ascii b] = newlines [d] := isUniform_newlines.apply_ascii hb
  have hmark := isUniform_ofChar?.apply_ascii hb
  cases hm : Mark.ofChar? d <;> rw [hm] at hmark <;>
    simp only [step, hget, Option.bind_eq_bind, Option.bind_some, Option.pure_def, hquote, hline,
      hmark, isUniform_isWhitespace.apply_ascii hb, isUniform_isDigit.apply_ascii hb,
      isUniform_isWordStart.apply_ascii hb]

theorem readString_closed {value : List Char} (h : '"' ∉ value) :
    readString (utf8 (pre ++ '"' :: (value ++ '"' :: rest))) c = some (c.past (.string value)) := by
  have hv := forall_bne_of_not_mem h
  have hq : Stops (· != '"') ('"' :: rest) := stops_cons.2 (by decide)
  have hend := stringEnd_utf8 (pre ++ ['"']) (value ++ '"' :: rest) c.line
  have hget := getElem?_utf8_append (pre ++ ['"'] ++ value) ('"' :: rest)
  have hslice := slice?_append (pre ++ ['"']) value ('"' :: rest)
  have hpush := push_eq_past hc rest (.string value) (fun _ => .string)
    (fun _ => some (.string (String.ofList value))) fun _ => rfl
  have hhead : (utf8 ('"' :: rest)).head? = some 34 := rfl
  have hstart : byteLength (pre ++ ['"']) = c.current + 1 := by
    rw [byteLength_ascii (by decide), hc]
  have hstop := byteLength_ascii (c := '"') (by decide) (pre ++ ['"'] ++ value)
  rw [takeWhile_append_of_stops hv hq, hstart] at hend
  rw [hstart] at hslice
  rw [hhead] at hget
  rw [Segment.newlines_string, Segment.text] at hpush
  simp only [List.append_assoc, List.cons_append, List.nil_append] at hend hget hslice hpush hstop
  rw [hstop] at hpush
  -- the quote is there, so the string does not end with the text
  have hlt := (List.getElem?_eq_some_iff.1 hget).1
  simp only [readString, hend, Option.bind_eq_bind, Option.bind_some, Nat.not_le.2 hlt, if_false,
    hget, hslice, hpush]

theorem readString_open {value : List Char} (h : '"' ∉ value) :
    readString (utf8 (pre ++ '"' :: value)) c = some (c.past (.openString value)) := by
  have hv : value.takeWhile (· != '"') = value := by
    have := takeWhile_append_of_stops (forall_bne_of_not_mem h) stops_nil
    rwa [List.append_nil] at this
  have hend := stringEnd_utf8 (pre ++ ['"']) value c.line
  have hreport := report_eq_past hc (.openString value) fun _ => rfl
  have hone : byteLength (pre ++ ['"']) = c.current + 1 := by rw [byteLength_ascii (by decide), hc]
  rw [hv, hone, List.append_assoc, List.singleton_append] at hend
  rw [Segment.newlines_openString, Segment.text] at hreport
  simp only [readString, hend, Option.bind_eq_bind, Option.bind_some, length_utf8, Nat.le_refl,
    if_true, hreport]
  rfl

theorem readNumber_utf8 {digits : List Char} (h : IsNumeral digits)
    (he : (Segment.number digits).EndsBefore rest) :
    readNumber (utf8 (pre ++ (digits ++ rest))) c = some (c.past (.number digits)) := by
  have hend := numberEnd_utf8 pre h he
  have hpush := push_eq_past_of_flat hc rest (.number digits) h.newlines_eq (fun _ => .number)
    (fun lexeme => some (.number (Decimal.ofText lexeme.toList).toBinary64))
    fun _ => by simp [Segment.item?, Segment.text]
  rw [← hc] at hend
  rw [Segment.text] at hpush
  simp only [readNumber, hend, Option.bind_eq_bind, Option.bind_some, hpush]

theorem readWord_utf8 {d : Char} {letters : List Char} (hd : isWordStart d = true)
    (hl : ∀ a ∈ letters, isWordPart a = true) (hr : Stops isWordPart rest) :
    ((readWhile (utf8 (pre ++ d :: (letters ++ rest))) (fun b => isWordPart (ascii b))
        (c.current + 1)).bind fun stop =>
      push (utf8 (pre ++ d :: (letters ++ rest))) c stop Kind.ofWord fun _ => none) =
      some (c.past (.word (d :: letters))) := by
  have hd' : d.toNat < 128 := isUniform_isWordStart.toNat_lt (by rw [hd]; decide)
  have hend := readWhile_utf8 isUniform_isWordPart (pre ++ [d]) (letters ++ rest) rfl
  have hpush := push_eq_past_of_flat hc rest (.word (d :: letters))
    (IsWord.newlines_eq ⟨d, letters, rfl, hd, hl⟩) Kind.ofWord (fun _ => none)
    fun _ => rfl
  rw [takeWhile_append_of_stops hl hr, byteLength_ascii hd', ← hc] at hend
  simp only [Segment.text, List.append_assoc, List.cons_append, List.nil_append] at hend hpush
  rw [hend, Option.bind_some, hpush]

theorem readMark_one {d : Char} {m : Mark} (hm : Mark.ofChar? d = some m)
    (he : (Segment.mark m).EndsBefore rest) :
    readMark (utf8 (pre ++ d :: rest)) c m = some (c.past (.mark m)) := by
  have hd : d.toNat < 128 := isUniform_ofChar?.toNat_lt (by rw [hm]; simp [Mark.ofChar?])
  have hpeek := peek?_utf8 (pre ++ [d]) rest
  have hpush := push_eq_past_of_flat hc rest (.mark m) m.newlines_spelling
    (fun _ => .mark m) (fun _ => none) fun _ => rfl
  rw [byteLength_ascii hd, ← hc, List.append_assoc, List.singleton_append] at hpeek
  rw [Segment.text, Mark.toList_spelling_of_ofChar? hm, byteLength_ascii hd, ← hc,
    List.singleton_append] at hpush
  have hslash : ¬ (m = .slash ∧ ascii ((utf8 rest).headD 0) = '/') := fun h =>
    he.2 h.1 ((ascii_ahead_eq_iff (by decide) (by decide) rest).1 h.2)
  simp only [readMark, hpeek, Option.bind_eq_bind, Option.bind_some, hslash, if_false]
  split
  · next m' hm' hnext =>
    exact absurd ((ascii_ahead_eq_iff (by decide) (by decide) rest).1 hnext)
      (he.1 (by rw [hm']; rfl))
  · exact hpush

theorem readMark_two {d : Char} {m m' : Mark} (hm : Mark.ofChar? d = some m)
    (hm' : m.withEqual? = some m') :
    readMark (utf8 (pre ++ d :: '=' :: rest)) c m = some (c.past (.mark m')) := by
  have hd : d.toNat < 128 := isUniform_ofChar?.toNat_lt (by rw [hm]; simp [Mark.ofChar?])
  have hpeek := peek?_utf8 (pre ++ [d]) ('=' :: rest)
  have hpush := push_eq_past_of_flat hc rest (.mark m') m'.newlines_spelling
    (fun _ => .mark m') (fun _ => none) fun _ => rfl
  have hstop := byteLength_ascii (c := '=') (by decide) (pre ++ [d])
  have hnext : ascii ((utf8 ('=' :: rest)).headD 0) = '=' :=
    (ascii_ahead_eq_iff (by decide) (by decide) _).2 rfl
  rw [byteLength_ascii hd, ← hc] at hpeek hstop
  rw [Segment.text, Mark.toList_spelling_of_withEqual? hm', Mark.toList_spelling_of_ofChar? hm]
    at hpush
  simp only [List.append_assoc, List.cons_append, List.nil_append] at hpeek hpush hstop
  rw [hstop] at hpush
  have hslash : ¬ (m = .slash ∧ '=' = '/') := fun h => absurd h.2 (by decide)
  simp only [readMark, hpeek, Option.bind_eq_bind, Option.bind_some, hnext, hm', hslash, if_false]
  exact hpush

theorem readMark_comment {body : List Char} (h : '\n' ∉ body)
    (he : (Segment.comment body).EndsBefore rest) :
    readMark (utf8 (pre ++ '/' :: '/' :: (body ++ rest))) c .slash =
      some (c.past (.comment body)) := by
  have hbody := forall_bne_of_not_mem h
  have hpeek := peek?_utf8 (pre ++ ['/']) ('/' :: (body ++ rest))
  have hend := skipWhile_utf8 (isUniform_bne (d := '\n') (by decide)) (pre ++ ['/', '/'])
    (body ++ rest)
  have hnext : ascii ((utf8 ('/' :: (body ++ rest))).headD 0) = '/' :=
    (ascii_ahead_eq_iff (by decide) (by decide) _).2 rfl
  have htwo : byteLength (pre ++ ['/', '/']) = c.current + 2 := by
    rw [byteLength_append, hc]
    rfl
  rw [takeWhile_append_of_stops hbody he, htwo] at hend
  rw [byteLength_ascii (by decide), ← hc] at hpeek
  simp only [List.append_assoc, List.cons_append, List.nil_append] at hpeek hend
  simp only [readMark, hpeek, Option.bind_eq_bind, Option.bind_some, hnext, and_self, if_true, hend]
  rw [past, Segment.newlines_comment h, Segment.text, byteLength_append, hc]
  rfl

/-- **A step** from the beginning of a segment that ends before the rest leads past that segment. -/
theorem step_eq_past {s : Segment} (hs : s.Lexical) (he : s.EndsBefore rest) :
    step (utf8 (pre ++ (s.text ++ rest))) c = some (c.past s) := by
  rcases hs with hs | ⟨d, rfl, hs⟩
  case inr =>
    have hd := Segment.lexical_stray_iff.1 (.inr ⟨d, rfl, hs⟩)
    simp only [IsOpening, not_or, Bool.not_eq_true, Option.isSome_eq_false_iff,
      Option.isNone_iff_eq_none] at hd
    obtain ⟨h1, h2, h3, h4, h5⟩ := hd
    have hreport := report_eq_past hc (.stray d) fun _ => rfl
    rw [Segment.text, Segment.newlines_stray (.inr ⟨d, rfl, hs⟩)] at hreport
    rw [Segment.text, List.singleton_append, step_eq hc]
    simp only [h1, h2, h3, h4, h5, hc, if_false, Bool.false_eq_true, skipWhile_tail,
      Option.bind_some]
    exact congrArg some hreport
  cases s with
  | mark m =>
    obtain ⟨d, ⟨hm, ht⟩ | ⟨m', hm, hm', ht⟩⟩ := m.spelling_cases
    all_goals
      obtain ⟨h1, h2, h3, h4⟩ := Mark.classes_of_ofChar? hm
      rw [Segment.text, ht]
      simp only [List.cons_append, List.nil_append]
      rw [step_eq hc]
      simp only [h1, h2, h3, h4, hm, if_false, Bool.false_eq_true]
    · exact readMark_one hc hm he
    · exact readMark_two hc hm hm'
  | blank d =>
    have hw := isWhitespace_iff.2 hs
    have hd := byteLength_ascii (isUniform_isWhitespace.toNat_lt (by rw [hw]; decide)) []
    rw [Segment.text, List.singleton_append, step_eq hc, if_pos hw, past, Segment.text,
      ← List.nil_append [d], hd]
    rfl
  | comment body =>
    obtain ⟨h1, h2, h3, h4⟩ := Mark.classes_of_ofChar? (c := '/') rfl
    rw [Segment.text]
    simp only [List.cons_append]
    rw [step_eq hc]
    simp only [h1, h2, h3, h4, if_false, Bool.false_eq_true]
    exact readMark_comment hc hs he
  | string value =>
    rw [Segment.text]
    simp only [List.append_assoc, List.cons_append, List.nil_append]
    rw [step_eq hc]
    exact readString_closed hc hs
  | number digits =>
    obtain ⟨d, digits, rfl⟩ := List.exists_cons_of_ne_nil (IsNumeral.ne_nil hs)
    have hd := IsNumeral.isDigit_head hs rfl
    obtain ⟨h1, h2, -⟩ := classes_of_isDigit hd
    rw [Segment.text, List.cons_append, step_eq hc]
    simp only [h1, h2, hd, if_true, if_false, Bool.false_eq_true]
    exact readNumber_utf8 hc hs he
  | word letters =>
    obtain ⟨d, letters, rfl, hd, hl⟩ := hs
    obtain ⟨h1, h2, h3⟩ := classes_of_isWordStart hd
    rw [Segment.text, List.cons_append, step_eq hc]
    simp only [h1, h2, h3, hd, if_true, if_false, Bool.false_eq_true]
    exact readWord_utf8 hc hd hl he
  | openString value =>
    cases he
    rw [Segment.text, List.append_nil, step_eq hc]
    exact readString_open hc hs
  | stray d => exact hs.elim

end

end Cursor

end LoxLexer
