import LoxLexer.Proofs.Alphabet
import LoxLexer.Segment.Cut
import LoxLexer.Segment.Grammar

/-!
# Where a segment ends

`Segment.EndsBefore s rest`: the text `rest` that follows the segment `s` does not go on with it. A
lexical segment that ends before what follows is the one that `cut` takes off
(`cut_eq_of_endsBefore`), and one that does not can be made longer (`exists_longer`). Hence `cut`
always gives a lexical segment that ends before the rest (`lexical_cut`, `endsBefore_cut`), and a
text is cut in one way only.
-/

namespace LoxLexer

/-! ## The first character of a segment -/

/-- An ordinary segment begins with the character. -/
def IsOpening (c : Char) : Prop :=
  c.isWhitespace = true ∨ c = '"' ∨ c.isDigit = true ∨ isWordStart c = true ∨
    (Mark.ofChar? c).isSome = true

theorem IsNumeral.isDigit_head {digits : List Char} (h : IsNumeral digits) {c : Char}
    (hc : digits.head? = some c) : c.isDigit = true := by
  rcases h with ⟨-, hd⟩ | ⟨whole, fraction, ⟨hne, hd⟩, -, rfl⟩
  · exact hd c (List.mem_of_mem_head? hc)
  · obtain ⟨d, whole, rfl⟩ := List.exists_cons_of_ne_nil hne
    cases hc
    exact hd _ List.mem_cons_self

theorem IsNumeral.isDigit_or_eq_point {digits : List Char} (h : IsNumeral digits) {c : Char}
    (hc : c ∈ digits) : c.isDigit = true ∨ c = '.' := by
  rcases h with ⟨-, hd⟩ | ⟨whole, fraction, ⟨-, hw⟩, ⟨-, hf⟩, rfl⟩
  · exact .inl (hd c hc)
  · rcases List.mem_append.1 hc with hc | hc
    · exact .inl (hw c hc)
    · exact (List.mem_cons.1 hc).symm.imp_left (hf c)

theorem IsWord.isWordPart_of_mem {letters : List Char} (h : IsWord letters) {c : Char}
    (hc : c ∈ letters) : isWordPart c = true := by
  obtain ⟨d, rest, rfl, hd, hrest⟩ := h
  rcases List.mem_cons.1 hc with rfl | hc
  · rw [isWordPart, hd, Bool.true_or]
  · exact hrest c hc

namespace Segment

theorem isOpening_of_ordinary {s : Segment} (h : s.Ordinary) {c : Char}
    (hc : s.text.head? = some c) : IsOpening c := by
  cases s with
  | mark m =>
    obtain ⟨d, ⟨hm, ht⟩ | ⟨m', hm, -, ht⟩⟩ := m.spelling_cases
    all_goals
      simp only [text, ht, List.head?_cons, Option.some.injEq] at hc
      subst hc
      simp [IsOpening, hm]
  | blank d =>
    cases hc
    exact .inl (isWhitespace_iff.2 h)
  | comment body =>
    cases hc
    exact .inr (.inr (.inr (.inr rfl)))
  | string value | openString value =>
    cases hc
    exact .inr (.inl rfl)
  | number digits =>
    exact .inr (.inr (.inl (IsNumeral.isDigit_head h hc)))
  | word letters =>
    obtain ⟨d, rest, rfl, hd, -⟩ := h
    cases hc
    exact .inr (.inr (.inr (.inl hd)))
  | stray d => exact h.elim

/-- An opening character is by itself a segment, or the opening quote of one. -/
theorem exists_ordinary_of_isOpening {c : Char} (h : IsOpening c) :
    ∃ s : Segment, s.Ordinary ∧ s.text = [c] := by
  rcases h with h | rfl | h | h | h
  · exact ⟨blank c, isWhitespace_iff.1 h, rfl⟩
  · exact ⟨openString [], List.not_mem_nil, rfl⟩
  · exact ⟨number [c], .inl ⟨List.cons_ne_nil _ _, by simpa using h⟩, rfl⟩
  · exact ⟨word [c], ⟨c, [], rfl, h, by simp⟩, rfl⟩
  · obtain ⟨m, hm⟩ := Option.isSome_iff_exists.1 h
    exact ⟨mark m, trivial, Mark.toList_spelling_of_ofChar? hm⟩

/-- Strays are the characters that open nothing. -/
theorem lexical_stray_iff {c : Char} : (stray c).Lexical ↔ ¬ IsOpening c := by
  constructor
  · rintro (h | ⟨d, hd, h⟩) hc
    · exact h.elim
    · cases hd
      obtain ⟨s, hs, ht⟩ := exists_ordinary_of_isOpening hc
      exact h s hs (by rw [ht]; rfl)
  · intro h
    exact .inr ⟨c, rfl, fun t ht hc => h (isOpening_of_ordinary ht hc)⟩

/-- A segment can be made of the first character of any text. -/
theorem exists_lexical_singleton (c : Char) : ∃ s : Segment, s.Lexical ∧ s.text = [c] := by
  by_cases h : IsOpening c
  · obtain ⟨s, hs, ht⟩ := exists_ordinary_of_isOpening h
    exact ⟨s, .inl hs, ht⟩
  · exact ⟨stray c, lexical_stray_iff.2 h, rfl⟩

/-! ## The end of a segment -/

/-- The text does not go on with the segment before it. -/
def EndsBefore (s : Segment) (rest : List Char) : Prop :=
  match s with
  | mark m => (m.withEqual?.isSome → rest.head? ≠ some '=') ∧ (m = .slash → rest.head? ≠ some '/')
  | comment _ => Stops (· != '\n') rest
  | number digits =>
    Stops Char.isDigit rest ∧ ('.' ∉ digits → ∀ tail, rest = '.' :: tail → Stops Char.isDigit tail)
  | word _ => Stops isWordPart rest
  | openString _ => rest = []
  | blank _ | string _ | stray _ => True

/-- Every segment ends before the end of the text. -/
@[simp] theorem endsBefore_nil (s : Segment) : s.EndsBefore [] := by
  cases s <;> simp [EndsBefore]

/-! ## A segment that has ended is cut off -/

theorem cutString_append_quote {value : List Char} (h : '"' ∉ value) (rest : List Char) :
    cutString (value ++ '"' :: rest) = (string value, rest) := by
  have hv := forall_bne_of_not_mem h
  have hq : Stops (· != '"') ('"' :: rest) := stops_cons.2 (by decide)
  simp only [cutString, takeWhile_append_of_stops hv hq, dropWhile_append_of_stops hv hq]

theorem cutString_of_not_mem {value : List Char} (h : '"' ∉ value) :
    cutString value = (openString value, []) := by
  have hv := forall_bne_of_not_mem h
  have hd := dropWhile_append_of_stops hv stops_nil
  rw [List.append_nil] at hd
  simp only [cutString, hd]

theorem cutNumber_append {digits rest : List Char} (h : IsNumeral digits)
    (he : (number digits).EndsBefore rest) :
    cutNumber (digits ++ rest) = (number digits, rest) := by
  obtain ⟨hr, hp⟩ := he
  rcases h with ⟨-, hd⟩ | ⟨whole, fraction, ⟨-, hw⟩, ⟨hne, hf⟩, rfl⟩
  · have hpoint : '.' ∉ digits := fun hm => absurd (hd _ hm) (by decide)
    simp only [cutNumber, takeWhile_append_of_stops hd hr, dropWhile_append_of_stops hd hr]
    split
    · next d tail =>
      have := stops_cons.1 (hp hpoint _ rfl)
      simp [this]
    · rfl
  · obtain ⟨d, fraction, rfl⟩ := List.exists_cons_of_ne_nil hne
    have hq : Stops Char.isDigit ('.' :: d :: (fraction ++ rest)) := stops_cons.2 (by decide)
    have hdigit : d.isDigit = true := hf d List.mem_cons_self
    have htake := takeWhile_append_of_stops hf hr
    have hdrop := dropWhile_append_of_stops hf hr
    rw [List.cons_append] at htake hdrop
    rw [List.append_assoc, List.cons_append, List.cons_append]
    simp only [cutNumber, takeWhile_append_of_stops hw hq, dropWhile_append_of_stops hw hq, hdigit,
      if_true, List.tail_cons, htake, hdrop]

theorem cutMark_of_endsBefore {m : Mark} {rest cs : List Char} {c : Char}
    (he : (mark m).EndsBefore rest) (h : m.spelling.toList ++ rest = c :: cs) :
    cutMark c cs = (mark m, rest) := by
  obtain ⟨d, ⟨hm, ht⟩ | ⟨m', hm, hm', ht⟩⟩ := m.spelling_cases
  all_goals
    simp only [ht, List.cons_append, List.nil_append, List.cons.injEq] at h
    obtain ⟨rfl, rfl⟩ := h
  · simp only [cutMark, hm]
    split
    · next hm' => exact absurd rfl (he.1 (by rw [hm']; rfl))
    · rfl
  · simp only [cutMark, hm, hm']

theorem cut_of_ofChar? {c : Char} {cs : List Char} {m : Mark} (hm : Mark.ofChar? c = some m)
    (hc : m = .slash → cs.head? ≠ some '/') : cut c cs = cutMark c cs := by
  obtain ⟨h1, h2, h3, h4⟩ := Mark.classes_of_ofChar? hm
  have hslash : ¬ (c = '/' ∧ cs.head? = some '/') := by
    rintro ⟨rfl, h⟩
    exact hc (Option.some.inj hm).symm h
  simp only [cut, h1, h2, h3, h4, hslash, if_false, Bool.false_eq_true]

/-- **A segment that ends before the rest of a text** is what is cut off the text. -/
theorem cut_eq_of_endsBefore {s : Segment} {rest cs : List Char} {c : Char} (hs : s.Lexical)
    (he : s.EndsBefore rest) (h : s.text ++ rest = c :: cs) : cut c cs = (s, rest) := by
  rcases hs with hs | ⟨_, rfl, hs⟩
  case inr =>
    cases h
    have hc := lexical_stray_iff.1 (.inr ⟨c, rfl, hs⟩)
    simp only [IsOpening, not_or, Bool.not_eq_true, Option.isSome_eq_false_iff,
      Option.isNone_iff_eq_none] at hc
    obtain ⟨h1, h2, h3, h4, h5⟩ := hc
    have hslash : c ≠ '/' := by
      rintro rfl
      cases h5
    simp [cut, cutMark, h1, h2, h3, h4, h5, hslash]
  cases s with
  | mark m =>
    have hcut := cutMark_of_endsBefore he h
    obtain ⟨d, ⟨hm, ht⟩ | ⟨m', hm, hm', ht⟩⟩ := m.spelling_cases
    all_goals
      simp only [text, ht, List.cons_append, List.nil_append, List.cons.injEq] at h
      obtain ⟨rfl, rfl⟩ := h
    · rw [cut_of_ofChar? hm he.2, hcut]
    · rw [cut_of_ofChar? hm (by rintro rfl; cases hm'), hcut]
  | blank d =>
    cases h
    simp [cut, isWhitespace_iff.2 hs]
  | comment body =>
    have hbody := forall_bne_of_not_mem hs
    have htake := takeWhile_append_of_stops hbody he
    have hdrop := dropWhile_append_of_stops hbody he
    obtain ⟨h1, h2, h3, h4⟩ := Mark.classes_of_ofChar? (c := '/') rfl
    simp only [text, List.cons_append, List.cons.injEq] at h
    obtain ⟨rfl, rfl⟩ := h
    simp [cut, h1, h3, h4, htake, hdrop]
  | string value =>
    cases h
    simpa [cut] using cutString_append_quote hs rest
  | number digits =>
    obtain ⟨d, digits, rfl⟩ := List.exists_cons_of_ne_nil (IsNumeral.ne_nil hs)
    cases h
    have hc := IsNumeral.isDigit_head hs rfl
    obtain ⟨h1, h2, -⟩ := classes_of_isDigit hc
    simpa [cut, h1, h2, hc] using cutNumber_append hs he
  | word letters =>
    obtain ⟨d, letters, rfl, hd, hl⟩ := hs
    cases h
    obtain ⟨h1, h2, h3⟩ := classes_of_isWordStart hd
    have hall : ∀ a ∈ c :: letters, isWordPart a = true := by
      simpa [isWordPart, hd] using hl
    have htake := takeWhile_append_of_stops hall he
    have hdrop := dropWhile_append_of_stops hall he
    rw [List.cons_append] at htake hdrop
    change cut c (letters ++ rest) = _
    simp only [cut, h1, h2, h3, hd, htake, hdrop, if_true, if_false, Bool.false_eq_true]
  | openString value =>
    cases he
    cases h
    simpa [cut] using cutString_of_not_mem hs
  | stray d => exact hs.elim

/-! ## A segment that has not ended can be made longer -/

theorem isNumeral_append_digit {digits : List Char} (h : IsNumeral digits) {c : Char}
    (hc : c.isDigit = true) : IsNumeral (digits ++ [c]) := by
  have snoc {cs : List Char} (hcs : IsDigits cs) : IsDigits (cs ++ [c]) := by
    refine ⟨by simp, fun d hd => ?_⟩
    rcases List.mem_append.1 hd with hd | hd
    · exact hcs.2 d hd
    · rw [List.mem_singleton.1 hd]
      exact hc
  rcases h with h | ⟨whole, fraction, hw, hf, rfl⟩
  · exact .inl (snoc h)
  · exact .inr ⟨whole, fraction ++ [c], hw, snoc hf, by simp⟩

theorem isNumeral_append_point {digits : List Char} (h : IsNumeral digits) (hp : '.' ∉ digits)
    {c : Char} (hc : c.isDigit = true) : IsNumeral (digits ++ ['.', c]) := by
  rcases h with h | ⟨whole, fraction, -, -, rfl⟩
  · exact .inr ⟨digits, [c], h, ⟨by simp, by simpa using hc⟩, rfl⟩
  · simp at hp

/-- **A segment that does not end before the rest of a text** is the beginning of a longer one. -/
theorem exists_longer {s : Segment} {rest : List Char} (hs : s.Lexical)
    (he : ¬ s.EndsBefore rest) : ∃ (t : Segment) (more rest' : List Char), t.Lexical ∧
      more ≠ [] ∧ t.text = s.text ++ more ∧ rest = more ++ rest' := by
  have of_stops {p : Char → Bool} {cs : List Char} (h : ¬ Stops p cs) :
      ∃ c tail, cs = c :: tail ∧ p c = true := by
    cases cs with
    | nil => simp at h
    | cons c tail => exact ⟨c, tail, rfl, by simpa using h⟩
  rcases hs with hs | ⟨_, rfl, -⟩
  case inr => exact absurd trivial he
  cases s with
  | mark m =>
    rcases Classical.not_and_iff_not_or_not.1 he with h | h
    · obtain ⟨hm, hr⟩ := Classical.not_imp.1 h
      obtain ⟨m', hm'⟩ := Option.isSome_iff_exists.1 hm
      obtain ⟨tail, rfl⟩ := List.head?_eq_some_iff.1 (Classical.not_not.1 hr)
      exact ⟨mark m', ['='], tail, .inl trivial, by simp, Mark.toList_spelling_of_withEqual? hm',
        rfl⟩
    · obtain ⟨rfl, hr⟩ := Classical.not_imp.1 h
      obtain ⟨tail, rfl⟩ := List.head?_eq_some_iff.1 (Classical.not_not.1 hr)
      exact ⟨comment [], ['/'], tail, .inl List.not_mem_nil, by simp, rfl, rfl⟩
  | comment body =>
    obtain ⟨c, tail, rfl, hc⟩ := of_stops he
    refine ⟨comment (body ++ [c]), [c], tail, .inl ?_, by simp, by simp [text], rfl⟩
    have := bne_iff_ne.1 hc
    simp only [Ordinary, List.mem_append, List.mem_singleton, not_or]
    exact ⟨hs, this.symm⟩
  | number digits =>
    rcases Classical.not_and_iff_not_or_not.1 he with h | h
    · obtain ⟨c, tail, rfl, hc⟩ := of_stops h
      exact ⟨number (digits ++ [c]), [c], tail, .inl (isNumeral_append_digit hs hc), by simp, rfl,
        rfl⟩
    · obtain ⟨hp, h⟩ := Classical.not_imp.1 h
      obtain ⟨_, h⟩ := Classical.not_forall.1 h
      obtain ⟨rfl, hd⟩ := Classical.not_imp.1 h
      obtain ⟨c, tail, rfl, hc⟩ := of_stops hd
      exact ⟨number (digits ++ ['.', c]), ['.', c], tail, .inl (isNumeral_append_point hs hp hc),
        by simp, rfl, rfl⟩
  | word letters =>
    obtain ⟨c, tail, rfl, hc⟩ := of_stops he
    obtain ⟨d, letters, rfl, hd, hl⟩ := hs
    refine ⟨word (d :: letters ++ [c]), [c], tail, .inl ⟨d, letters ++ [c], rfl, hd, ?_⟩, by simp,
      rfl, rfl⟩
    intro a ha
    rcases List.mem_append.1 ha with ha | ha
    · exact hl a ha
    · rw [List.mem_singleton.1 ha]
      exact hc
  | openString value =>
    obtain ⟨c, tail, rfl⟩ := List.exists_cons_of_ne_nil he
    by_cases hc : c = '"'
    · subst hc
      exact ⟨string value, ['"'], tail, .inl hs, by simp, rfl, rfl⟩
    · refine ⟨openString (value ++ [c]), [c], tail, .inl ?_, by simp, rfl, rfl⟩
      simp only [Ordinary, List.mem_append, List.mem_singleton, not_or]
      exact ⟨hs, Ne.symm hc⟩
  | blank d | string value => exact absurd trivial he
  | stray d => exact hs.elim

/-! ## What cutting gives -/

/-- A segment that a text begins with is the beginning of the one that is cut off. -/
theorem exists_endsBefore (s : Segment) (rest : List Char) (hs : s.Lexical) :
    ∃ (t : Segment) (rest' : List Char), t.Lexical ∧ t.EndsBefore rest' ∧ s.text <+: t.text ∧
      t.text ++ rest' = s.text ++ rest := by
  by_cases he : s.EndsBefore rest
  · exact ⟨s, rest, hs, he, List.prefix_refl _, rfl⟩
  · obtain ⟨t, more, rest', ht, hne, htext, hrest⟩ := exists_longer hs he
    have hlt : rest'.length < rest.length := by
      have := List.length_pos_iff.2 hne
      rw [hrest, List.length_append]
      omega
    obtain ⟨u, rest'', hu, hue, hpre, hutext⟩ := exists_endsBefore t rest' ht
    refine ⟨u, rest'', hu, hue, ?_, ?_⟩
    · exact (htext ▸ List.prefix_append _ _).trans hpre
    · rw [hutext, htext, hrest, List.append_assoc]
termination_by rest.length

/-- **Cutting**: the segment and the rest are the lexical segment and the rest of the text that it
ends before. -/
theorem cut_eq_iff {c : Char} {cs : List Char} {s : Segment} {rest : List Char} :
    cut c cs = (s, rest) ↔ s.Lexical ∧ s.EndsBefore rest ∧ s.text ++ rest = c :: cs := by
  refine ⟨fun h => ?_, fun ⟨hs, he, ht⟩ => cut_eq_of_endsBefore hs he ht⟩
  obtain ⟨s', hs', ht'⟩ := exists_lexical_singleton c
  obtain ⟨t, rest', ht, he, -, htext⟩ := exists_endsBefore s' cs hs'
  rw [ht', List.singleton_append] at htext
  rw [cut_eq_of_endsBefore ht he htext] at h
  cases h
  exact ⟨ht, he, htext⟩

theorem lexical_cut (c : Char) (cs : List Char) : (cut c cs).1.Lexical :=
  (cut_eq_iff.1 rfl).1

theorem endsBefore_cut (c : Char) (cs : List Char) : (cut c cs).1.EndsBefore (cut c cs).2 :=
  (cut_eq_iff.1 rfl).2.1

/-- All segments of a text are lexical. -/
theorem lexical_of_mem_segments {cs : List Char} {s : Segment} (h : s ∈ segments cs) :
    s.Lexical := by
  fun_induction segments cs with
  | case1 => cases h
  | case2 c cs ih =>
    rcases List.mem_cons.1 h with rfl | h
    · exact lexical_cut c cs
    · exact ih h

/-- A segment that ends before the text after it comes first, and then the segments of that text. -/
theorem segments_append {s : Segment} {rest : List Char} (hs : s.Lexical)
    (he : s.EndsBefore rest) : segments (s.text ++ rest) = s :: segments rest := by
  obtain ⟨c, cs, h⟩ := List.exists_cons_of_ne_nil (l := s.text ++ rest) (by simp [hs.text_ne_nil])
  rw [h, segments_cons, cut_eq_of_endsBefore hs he h]

/-- A segment is what its own text is cut into. -/
theorem segments_text {s : Segment} (hs : s.Lexical) : segments s.text = [s] := by
  have h := segments_append hs (endsBefore_nil s)
  rwa [List.append_nil, segments_nil] at h

/-- The segments from some place on are those of the text from there on. -/
theorem segments_of_append {cs : List Char} {ss ts : List Segment} (h : segments cs = ss ++ ts) :
    segments (ts.flatMap text) = ts := by
  induction ss generalizing cs with
  | nil =>
    rw [List.nil_append] at h
    rw [← h, flatMap_text_segments]
  | cons s ss ih =>
    cases cs with
    | nil => simp at h
    | cons c cs =>
      rw [segments_cons] at h
      exact ih (List.cons.inj h).2

theorem lexical_of_segments {cs : List Char} {ss ts : List Segment} {s : Segment}
    (h : segments cs = ss ++ s :: ts) : s.Lexical := by
  have hs : s ∈ segments cs := by
    rw [h]
    exact List.mem_append_right _ List.mem_cons_self
  exact lexical_of_mem_segments hs

theorem forall_lexical_of_segments {cs : List Char} {ss ts : List Segment}
    (h : segments cs = ss ++ ts) : ∀ s ∈ ss, s.Lexical := by
  intro s hs
  refine @lexical_of_mem_segments cs s ?_
  rw [h]
  exact List.mem_append_left ts hs

/-- In a string left open there is no further quote. -/
theorem quote_not_mem_of_segments {cs value : List Char} {ss ts : List Segment}
    (h : segments cs = ss ++ openString value :: ts) : '"' ∉ value := by
  rcases lexical_of_segments h with hs | ⟨_, hc, -⟩
  · exact hs
  · cases hc

/-- Each segment of a text ends before the text of those after it. -/
theorem endsBefore_of_segments {cs : List Char} {ss ts : List Segment} {s : Segment}
    (h : segments cs = ss ++ s :: ts) : s.EndsBefore (ts.flatMap text) := by
  have hs := segments_of_append h
  have hne : s.text ≠ [] := (lexical_of_segments h).text_ne_nil
  obtain ⟨c, cs', hcs⟩ := List.exists_cons_of_ne_nil (l := (s :: ts).flatMap text) (by simp [hne])
  rw [hcs, segments_cons] at hs
  have htext := text_cut c cs'
  rw [← hcs, List.flatMap_cons, (List.cons.inj hs).1] at htext
  have he := endsBefore_cut c cs'
  rwa [(List.cons.inj hs).1, List.append_cancel_left htext] at he

/-- Lexical segments with the same text are the same. -/
theorem Lexical.eq_of_text_eq {s t : Segment} (hs : s.Lexical) (ht : t.Lexical)
    (h : s.text = t.text) : s = t := by
  have h1 := segments_append hs (endsBefore_nil s)
  rw [h, segments_append ht (endsBefore_nil t)] at h1
  exact (List.cons.inj h1).1.symm

end Segment

end LoxLexer
