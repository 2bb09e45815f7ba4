import LoxLexer.Proofs.Segment.Boundary

/-!
# Segments in a row, and what may follow them

`Segment.Row rest ss`: the segments `ss` stand in a row before the text `rest`, that is, each is
lexical and ends before what follows. The segments of a text are a row before nothing
(`row_segments`), and a text that is a row and a rest is cut into that row and the segments of the
rest (`Row.segments_eq`). So what happens to the segments of a text when the text changes is a
question of where segments end, of which two things are said here.

* `endsBefore_take_two_iff`: only the next two characters tell whether a segment ends.
* `EndsBefore.of_breaks`: a segment that ends before a text, and is no string left open, ends also
  before one that goes like it up to a place where it breaks off (`Breaks`).

A text that goes on is cut as before up to its end, unless a segment is still open there: a string
left open, a comment without its line feed, or one that the next character goes on with
(`segments_append_of_parts`). An open comment takes in what comes up to the next line feed
(`segments_append_of_comment`), and a string left open goes on with what comes
(`segments_append_of_openString`).
-/

namespace LoxLexer

namespace Segment

/-! ## Rows -/

/-- Lexical segments, each of which ends before the text of those after it and `rest`. -/
inductive Row (rest : List Char) : List Segment → Prop
  | nil : Row rest []
  | cons {s : Segment} {ss : List Segment} : s.Lexical → s.EndsBefore (ss.flatMap text ++ rest) →
      Row rest ss → Row rest (s :: ss)

theorem row_cons_iff {rest : List Char} {s : Segment} {ss : List Segment} :
    Row rest (s :: ss) ↔ s.Lexical ∧ s.EndsBefore (ss.flatMap text ++ rest) ∧ Row rest ss := by
  refine ⟨?_, fun ⟨hs, he, h⟩ => .cons hs he h⟩
  rintro (_ | ⟨hs, he, h⟩)
  exact ⟨hs, he, h⟩

/-- **A row** before a text is cut off it, and the text is left. -/
theorem Row.segments_eq {rest : List Char} {ss : List Segment} (h : Row rest ss) :
    segments (ss.flatMap text ++ rest) = ss ++ segments rest := by
  induction h with
  | nil => rfl
  | cons hs he _ ih =>
    rw [List.flatMap_cons, List.append_assoc, segments_append hs he, ih, List.cons_append]

theorem row_segments (cs : List Char) : Row [] (segments cs) := by
  fun_induction segments cs with
  | case1 => exact .nil
  | case2 c cs ih =>
    refine .cons (lexical_cut c cs) ?_ ih
    rw [flatMap_text_segments, List.append_nil]
    exact endsBefore_cut c cs

theorem Row.eq_nil_of_flatMap_text {rest : List Char} {ss : List Segment} (h : Row rest ss)
    (htext : ss.flatMap text = []) : ss = [] := by
  cases h with
  | nil => rfl
  | cons hs _ _ => exact absurd (List.append_eq_nil_iff.1 htext).1 hs.text_ne_nil

/-! ## Two characters of lookahead -/

/-- Whether a segment ends is told by the next two characters. -/
theorem endsBefore_take_two_iff {s : Segment} {rest : List Char} :
    s.EndsBefore (rest.take 2) ↔ s.EndsBefore rest := by
  have hhead : (rest.take 2).head? = rest.head? := by
    rw [List.head?_take, if_neg (by decide)]
  have hstops (p : Char → Bool) : Stops p (rest.take 2) ↔ Stops p rest := by
    rw [Stops, Stops, hhead]
  cases s with
  | mark m => rw [EndsBefore, EndsBefore, hhead]
  | comment body => exact hstops _
  | word letters => exact hstops _
  | openString value => simp [EndsBefore]
  | number digits =>
    -- the point is the first of the two characters, and the digit after it the second
    refine and_congr (hstops _) (imp_congr_right fun _ => ?_)
    obtain _ | ⟨c, _ | ⟨d, rest⟩⟩ := rest <;> simp
  | blank c | string value | stray c => exact Iff.rfl

theorem EndsBefore.append {s : Segment} {rest : List Char} (h : s.EndsBefore rest)
    (hlength : 2 ≤ rest.length) (more : List Char) : s.EndsBefore (rest ++ more) := by
  rw [← endsBefore_take_two_iff] at h ⊢
  rwa [List.take_append_of_le_length hlength]

/-! ## Texts that break off -/

/-- The second text goes like the first up to a place where it breaks off: it ends there, or goes on
with a line feed, or with a blank in place of another character. The line feed is apart because it
ends comments: a blank does not take its place. -/
inductive Breaks : List Char → List Char → Prop
  | stop (rest : List Char) : Breaks rest []
  | newline (rest rest' : List Char) : Breaks rest ('\n' :: rest')
  | blank {c d : Char} (rest rest' : List Char) : c ≠ '\n' → d.isWhitespace = true →
      Breaks (c :: rest) (d :: rest')
  | cons {rest rest' : List Char} (c : Char) : Breaks rest rest' → Breaks (c :: rest) (c :: rest')

theorem Breaks.append_left {rest rest' : List Char} (h : Breaks rest rest') (front : List Char) :
    Breaks (front ++ rest) (front ++ rest') := by
  induction front with
  | nil => exact h
  | cons c front ih => exact .cons c ih

/-- What holds of blanks and of the character that a text begins with holds of the one that the text
begins with when it breaks off. -/
theorem Breaks.forall_head {rest rest' : List Char} (h : Breaks rest rest') {P : Char → Prop}
    (hblank : ∀ c, c.isWhitespace = true → P c) (hrest : ∀ c ∈ rest.head?, P c) :
    ∀ c ∈ rest'.head?, P c := by
  intro c hc
  cases h with
  | stop => cases hc
  | newline =>
    cases hc
    exact hblank '\n' (by decide)
  | blank _ _ _ hd =>
    cases hc
    exact hblank _ hd
  | cons _ _ =>
    cases hc
    exact hrest c rfl

/-- **Breaking off** ends no segment later: only a string left open can go on. -/
theorem EndsBefore.of_breaks {s : Segment} {rest rest' : List Char} (he : s.EndsBefore rest)
    (h : Breaks rest rest') (hs : ∀ value, s ≠ openString value) : s.EndsBefore rest' := by
  have hne {d : Char} (hd : d.isWhitespace = false) (hrest : rest.head? ≠ some d) :
      rest'.head? ≠ some d := by
    have hblank : ∀ c : Char, c.isWhitespace = true → c ≠ d := by
      rintro c hc rfl
      rw [hd] at hc
      cases hc
    have hall := h.forall_head hblank fun c hc hcd => hrest (by rw [← hcd, hc])
    exact fun hd' => hall d hd' rfl
  have hdigit : ∀ c : Char, c.isWhitespace = true → c.isDigit = false :=
    fun c hc => (classes_of_isWhitespace hc).2.1
  cases s with
  | mark m => exact ⟨fun hm => hne (by decide) (he.1 hm), fun hm => hne (by decide) (he.2 hm)⟩
  | comment body =>
    replace he : Stops (· != '\n') rest := he
    change Stops (· != '\n') rest'
    cases h with
    | stop => exact stops_nil
    | newline => exact stops_cons.2 (by decide)
    | blank _ _ hc _ => exact absurd (by simpa using he) hc
    | cons c _ => rwa [stops_cons] at he ⊢
  | number digits =>
    refine ⟨h.forall_head hdigit he.1, fun hp tail htail => ?_⟩
    -- the point is still there only if the text breaks off behind it
    cases h with
    | stop => cases htail
    | newline => cases htail
    | blank _ _ _ hd =>
      cases htail
      exact absurd hd (by decide)
    | cons c hrest =>
      cases htail
      exact hrest.forall_head hdigit (he.2 hp _ rfl)
  | word letters =>
    refine h.forall_head (fun c hc => ?_) he
    obtain ⟨-, hd, hw⟩ := classes_of_isWhitespace hc
    rw [isWordPart, hw, hd]
    rfl
  | openString value => exact absurd rfl (hs value)
  | blank c | string value | stray c => trivial

/-- A row without a string left open is a row also before a text that breaks off. -/
theorem Row.of_breaks {rest rest' : List Char} {ss : List Segment} (h : Row rest ss)
    (hb : Breaks rest rest') (hss : ∀ value, openString value ∉ ss) : Row rest' ss := by
  induction h with
  | nil => exact .nil
  | @cons s ss hs he _ ih =>
    refine .cons hs (he.of_breaks (hb.append_left _) ?_) (ih fun value hv => ?_)
    · rintro value rfl
      exact hss value List.mem_cons_self
    · exact hss value (List.mem_cons_of_mem s hv)

/-! ## Texts that go on -/

/-- Segments stand in a row exactly if those in front do, before the text of the others, and the
others do. -/
theorem row_append_iff {rest : List Char} {ss ts : List Segment} :
    Row rest (ss ++ ts) ↔ Row (ts.flatMap text ++ rest) ss ∧ Row rest ts := by
  induction ss with
  | nil => exact ⟨fun h => ⟨.nil, h⟩, And.right⟩
  | cons s ss ih =>
    rw [List.cons_append, row_cons_iff, row_cons_iff, ih, List.flatMap_append, List.append_assoc]
    simp only [and_assoc]

theorem Row.append {rest : List Char} {ss : List Segment} (h : Row rest ss)
    (hlength : 2 ≤ rest.length) (more : List Char) : Row (rest ++ more) ss := by
  induction h with
  | nil => exact .nil
  | @cons s ss hs he _ ih =>
    refine .cons hs ?_ ih
    rw [← List.append_assoc]
    refine he.append ?_ more
    rw [List.length_append]
    omega

/-- The character goes on with no segment but a comment and a string left open. -/
def Parts (c : Char) : Prop := isWordPart c = false ∧ c ∉ ['=', '/', '.']

theorem parts_quote : Parts '"' := ⟨by decide, by decide⟩

theorem parts_of_isWhitespace {c : Char} (h : c.isWhitespace = true) : Parts c := by
  obtain ⟨-, hd, hs⟩ := classes_of_isWhitespace h
  refine ⟨by rw [isWordPart, hs, hd]; rfl, fun hc => ?_⟩
  simp only [List.mem_cons, List.not_mem_nil, or_false] at hc
  rcases hc with rfl | rfl | rfl <;> exact absurd h (by decide)

/-- **A character that parts** may follow what follows a segment, or follow the segment itself if
that is no comment. -/
theorem EndsBefore.append_of_parts {s : Segment} {rest : List Char} {c : Char}
    (he : s.EndsBefore rest) (hc : Parts c) (hopen : ∀ value, s ≠ openString value)
    (hcomment : ∀ body, s = comment body → rest ≠ []) (more : List Char) :
    s.EndsBefore (rest ++ c :: more) := by
  obtain ⟨hpart, hmarks⟩ := hc
  simp only [List.mem_cons, List.not_mem_nil, or_false, not_or] at hmarks
  obtain ⟨hequal, hslash, hpoint⟩ := hmarks
  have hdigit : c.isDigit = false := (Bool.or_eq_false_iff.1 hpart).2
  have hhead {d : Char} (hd : c ≠ d) (hrest : rest.head? ≠ some d) :
      (rest ++ c :: more).head? ≠ some d := by
    cases rest with
    | nil => simpa using hd
    | cons a rest => exact hrest
  cases s with
  | mark m => exact ⟨fun hm => hhead hequal (he.1 hm), fun hm => hhead hslash (he.2 hm)⟩
  | comment body =>
    obtain ⟨d, rest, rfl⟩ := List.exists_cons_of_ne_nil (hcomment body rfl)
    exact he
  | number digits =>
    refine ⟨he.1.append_cons hdigit more, fun hp tail htail => ?_⟩
    cases rest with
    | nil =>
      cases htail
      exact absurd rfl hpoint
    | cons a rest =>
      cases htail
      exact (he.2 hp rest rfl).append_cons hdigit more
  | word letters => exact Stops.append_cons he hpart more
  | openString value => exact absurd rfl (hopen value)
  | blank d | string value | stray d => trivial

/-- A character that parts may follow a text that leaves no string and no comment open. -/
theorem Row.append_of_parts {ss : List Segment} (h : Row [] ss) {c : Char} (hc : Parts c)
    (hopen : ∀ value, openString value ∉ ss)
    (hlast : ∀ front body, ss ≠ front ++ [comment body]) (more : List Char) :
    Row (c :: more) ss := by
  induction h with
  | nil => exact .nil
  | @cons s ss hs he hss ih =>
    have hrest := ih (fun value hv => hopen value (List.mem_cons_of_mem s hv))
      fun front body hss => hlast (s :: front) body (congrArg (s :: ·) hss)
    rw [List.append_nil] at he
    refine .cons hs (he.append_of_parts hc ?_ ?_ more) hrest
    · rintro value rfl
      exact hopen value List.mem_cons_self
    · rintro body rfl htext
      obtain rfl := hss.eq_nil_of_flatMap_text htext
      exact hlast [] body rfl

/-- A text that leaves no string and no comment open is cut as before when a character follows that
parts. -/
theorem segments_append_of_parts {cs : List Char}
    (hopen : ∀ value, openString value ∉ segments cs)
    (hlast : ∀ front body, segments cs ≠ front ++ [comment body]) {c : Char} (hc : Parts c)
    (more : List Char) : segments (cs ++ c :: more) = segments cs ++ segments (c :: more) := by
  rw [← ((row_segments cs).append_of_parts hc hopen hlast more).segments_eq, flatMap_text_segments]

/-- A comment that a text ends in takes in what comes up to the next line feed. -/
theorem segments_append_of_comment {cs body : List Char} {ss : List Segment}
    (h : segments cs = ss ++ [comment body]) (more : List Char) :
    segments (cs ++ more) = ss ++ comment (body ++ more.takeWhile (· != '\n')) ::
      segments (more.dropWhile (· != '\n')) := by
  obtain ⟨hfront, -⟩ := row_append_iff.1 (h ▸ row_segments cs)
  have hbody : '\n' ∉ body := by
    rcases lexical_of_segments h with hbody | ⟨_, hc, -⟩
    · exact hbody
    · cases hc
  have hlonger : (comment (body ++ more.takeWhile (· != '\n'))).Lexical :=
    .inl fun hm => (List.mem_append.1 hm).elim hbody (not_mem_takeWhile_bne '\n' more)
  have hrow : Row ((comment body).text ++ more) ss := by
    simpa using hfront.append (by simp [text]) more
  have hsplit : (comment body).text ++ more =
      (comment (body ++ more.takeWhile (· != '\n'))).text ++ more.dropWhile (· != '\n') := by
    simp [text]
  rw [← flatMap_text_segments cs, h, List.flatMap_append, List.flatMap_singleton,
    List.append_assoc, hrow.segments_eq, hsplit,
    segments_append hlonger (stops_dropWhile more)]

/-- A string left open is the last segment. -/
theorem exists_eq_append_openString {cs value : List Char} (h : openString value ∈ segments cs) :
    ∃ front, segments cs = front ++ [openString value] := by
  obtain ⟨front, back, hcs⟩ := List.append_of_mem h
  have htext : back.flatMap text = [] := endsBefore_of_segments hcs
  have hrow := row_segments cs
  rw [hcs, row_append_iff, row_cons_iff] at hrow
  obtain rfl := hrow.2.2.2.eq_nil_of_flatMap_text htext
  exact ⟨front, hcs⟩

/-- What comes behind a string left open has no effect on the segments in front of it. -/
theorem segments_append_of_openString {cs value : List Char} {front : List Segment}
    (h : segments cs = front ++ [openString value]) (more : List Char) :
    segments (cs ++ more) = front ++ segments ('"' :: (value ++ more)) := by
  have hopen : ∀ v, openString v ∉ front := by
    intro v hv
    obtain ⟨before, after, rfl⟩ := List.append_of_mem hv
    rw [List.append_assoc, List.cons_append] at h
    have hend : (after ++ [openString value]).flatMap text = [] := endsBefore_of_segments h
    simp [text] at hend
  have hlast : ∀ before body, front ≠ before ++ [comment body] := by
    rintro before body rfl
    rw [List.append_assoc, List.singleton_append] at h
    have hend : Stops (· != '\n') ([openString value].flatMap text) := endsBefore_of_segments h
    exact absurd (stops_cons.1 hend) (by decide)
  obtain ⟨hfront, -⟩ := row_append_iff.1 (h ▸ row_segments cs)
  have hrow := (hfront.of_breaks (.stop _) hopen).append_of_parts parts_quote hopen hlast
    (value ++ more)
  rw [← hrow.segments_eq, ← flatMap_text_segments cs, h]
  simp [text]

end Segment

end LoxLexer
