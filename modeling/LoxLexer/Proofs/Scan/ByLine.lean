import LoxLexer.Proofs.Scan.Spans
import LoxLexer.Proofs.Scan.Trimming
import LoxLexer.Proofs.Text.Cut

/-!
# A text and its lines

A text in which no string holds a line feed scans to what its lines scan to one by one, without the
white space at their ends (`madeUpOf_byLine`), and its tokens are on the lines that they begin on
(`Finding.line_eq_lastLine`).

A line feed would be inside a string if one were open in front of it
(`HasStringsOnLines.not_open`). So it parts the segments of the lines, and what is scanned below a
line is scanned as by itself (`ofText_append_newline`).
-/

namespace LoxLexer

/-! ## Strings and lines -/

/-- After a quote there is a string, which holds what comes up to the next quote. -/
theorem Segment.isString_cutString (cs : List Char) : (cutString cs).1.isString = true ∧
    ∀ c ∈ cs.takeWhile (· != '"'), c ∈ (cutString cs).1.text := by
  unfold cutString
  split
  · exact ⟨rfl, fun c hc => List.mem_cons_of_mem _ ((List.takeWhile_sublist _).subset hc)⟩
  · exact ⟨rfl, fun c hc => by simp [text, hc]⟩

namespace HasStringsOnLines

variable {cs rest : List Char} (h : HasStringsOnLines (cs ++ '\n' :: rest))
include h

/-- In front of a line feed no string is open. -/
theorem not_open (value : List Char) : Segment.openString value ∉ Segment.segments cs := by
  intro hvalue
  obtain ⟨front, hfront⟩ := Segment.exists_eq_append_openString hvalue
  have hquote := forall_bne_of_not_mem (Segment.quote_not_mem_of_segments hfront)
  have hcut : Segment.cut '"' (value ++ '\n' :: rest) =
      Segment.cutString (value ++ '\n' :: rest) := by simp [Segment.cut]
  -- the string would go on past the line feed
  obtain ⟨hstring, hholds⟩ := Segment.isString_cutString (value ++ '\n' :: rest)
  refine h _ ?_ hstring (hholds '\n' ?_)
  · rw [Segment.segments_append_of_openString hfront, Segment.segments_cons, hcut]
    exact List.mem_append_right _ List.mem_cons_self
  · rw [List.takeWhile_append_of_pos hquote]
    simp

/-- Behind a line feed strings stand as they do by themselves. -/
theorem of_append : HasStringsOnLines rest := by
  intro s hs
  refine h s ?_
  rw [Segment.segments_append_newline h.not_open]
  exact List.mem_append_right _ (List.mem_cons_of_mem _ hs)

end HasStringsOnLines

/-- Where strings stand on lines, a token is on the line that it begins on. -/
theorem Finding.line_eq_lastLine {cs : List Char} (h : HasStringsOnLines cs) {f : Finding}
    (hf : f ∈ ofText cs) {t : Token} (ht : f.item = .token t) :
    t.line = lastLine (cs.take f.start) := by
  obtain ⟨before, s, after, hss, hstart, -, hitem⟩ := exists_of_mem hf
  rw [ht] at hitem
  have hs : s ∈ Segment.segments cs := by simp [hss]
  have hflat : newlines s.text = 0 := by
    by_cases hstring : s.isString = true
    · exact newlines_eq_zero (h s hs hstring)
    · refine Segment.newlines_text_eq_zero (Segment.lexical_of_mem_segments hs) ?_ ?_ ?_
      · rintro rfl
        cases hitem
      · rintro value rfl
        exact hstring rfl
      · rintro value rfl
        exact hstring rfl
  have htext : cs.take f.start = before.flatMap Segment.text := by
    have hcs := Segment.flatMap_text_segments cs
    rw [hss, List.flatMap_append] at hcs
    rw [hstart, Nat.zero_add, ← hcs, List.take_left]
  rw [Segment.line_of_item? hitem, htext, hflat]
  rfl

/-! ## Lines one below the other -/

theorem Token.below_zero_eq_id : below 0 = id := funext below_zero

namespace Scan

/-- What is scanned below a line is scanned as by itself. -/
theorem ofText_append_newline {cs : List Char}
    (h : ∀ value, Segment.openString value ∉ Segment.segments cs) (rest : List Char) :
    ofText (cs ++ '\n' :: rest) =
      (ofText cs).followedBy ((ofText rest).below (1 + newlines cs)) := by
  have hlexical {cs : List Char} : ∀ s ∈ Segment.segments cs, s.Lexical :=
    fun _ => Segment.lexical_of_mem_segments
  rw [ofText_eq_ofSegments, ofText_eq_ofSegments, ofText_eq_ofSegments,
    Segment.segments_append_newline h, ofSegments_append hlexical, Segment.flatMap_text_segments,
    ofSegments, if_pos rfl, Nat.add_comm _ 1, ofSegments_below hlexical]

theorem tokens_ofText_ne_nil (cs : List Char) : (ofText cs).tokens ≠ [] := by
  simp [ofText]

theorem body_followedBy (s : Scan) {t : Scan} (ht : t.tokens ≠ []) :
    (s.followedBy t).body = s.body ++ t.body := by
  rw [followedBy, body, List.dropLast_append_of_ne_nil ht]
  rfl

theorem body_below (n : Nat) (s : Scan) : (s.below n).body = s.body.map (Token.below n) := by
  rw [below, body, body, List.map_dropLast]

theorem isOpen_followedBy_below (n : Nat) (s t : Scan) :
    (s.followedBy (t.below n)).isOpen = (s.isOpen || t.isOpen) := by
  rw [followedBy, isOpen, List.any_append, below, List.any_map]
  rfl

theorem countStrays_followedBy_below (n : Nat) (s t : Scan) :
    countStrays (s.followedBy (t.below n)).errors =
      countStrays s.errors + countStrays t.errors := by
  rw [followedBy, countStrays, List.countP_append, below, List.countP_map]
  rfl

/-- What it is for a scan to be made up of a single one. -/
theorem madeUpOf_singleton_iff {s line : Scan} {n : Nat} : s.MadeUpOf [line] n ↔
    s.body = line.body ∧ s.isOpen = line.isOpen ∧
      countStrays line.errors ≤ countStrays s.errors ∧
      countStrays s.errors ≤ countStrays line.errors + n := by
  have hany : [line].any isOpen = line.isOpen := by simp
  have herrors : [line].flatMap Scan.errors = line.errors := by simp
  constructor
  · rintro ⟨hbody, hopen, hle, hle'⟩
    have hbody := hbody 0
    rw [List.zipIdx_singleton, List.flatMap_singleton] at hbody
    dsimp only at hbody
    rw [Token.below_zero_eq_id, List.map_id, List.map_id] at hbody
    rw [hany] at hopen
    rw [herrors] at hle hle'
    exact ⟨hbody, hopen, hle, hle'⟩
  · rintro ⟨hbody, hopen, hle, hle'⟩
    refine ⟨fun k => ?_, by rw [hany, hopen], by rwa [herrors], by rwa [herrors]⟩
    rw [List.zipIdx_singleton, List.flatMap_singleton, hbody]

/-- **Lines below a line**: a scan that lines make up, below one that a single line makes up. -/
theorem MadeUpOf.cons {s t line : Scan} {lines : List Scan} {m n : Nat}
    (hs : s.MadeUpOf [line] m) (ht : t.MadeUpOf lines n) (hne : t.tokens ≠ []) :
    (s.followedBy (t.below 1)).MadeUpOf (line :: lines) (m + n) := by
  obtain ⟨hbody, hopen, hle, hle'⟩ := madeUpOf_singleton_iff.1 hs
  obtain ⟨htbody, htopen, htle, htle'⟩ := ht
  have hcount : countStrays ((line :: lines).flatMap Scan.errors) =
      countStrays line.errors + countStrays (lines.flatMap Scan.errors) := List.countP_append
  refine ⟨fun k => ?_, ?_, ?_, ?_⟩
  · -- below the line the next index is that of one line down
    have hbelow : Token.below k ∘ Token.below 1 = Token.below (k + 1) := by
      funext token
      rw [Function.comp_apply, Token.below_below, Nat.add_comm]
    have hne' : (t.below 1).tokens ≠ [] := by simpa [below] using hne
    rw [body_followedBy s hne', body_below, List.map_append, List.map_map, hbelow, hbody, htbody,
      List.zipIdx_cons, List.flatMap_cons]
  · rw [isOpen_followedBy_below, hopen, htopen, List.any_cons]
  · rw [countStrays_followedBy_below, hcount]
    omega
  · rw [countStrays_followedBy_below, hcount]
    omega

/-- A line is made up of what is left when it is trimmed. -/
theorem madeUpOf_trim {line : List Char} (h : '\n' ∉ line) :
    (ofText line).MadeUpOf [ofText (trim line)] (line.countP isForeignSpace) := by
  obtain ⟨m, n, hle, htrim⟩ := ofText_trim h
  have hstrays : countStrays (ofText line).errors =
      m + (countStrays (ofText (trim line)).errors + n) := by
    simp [htrim, countStrays, List.countP_replicate]
  have hfault : (Fault.unexpectedCharacter == Fault.unterminatedString) = false := rfl
  refine madeUpOf_singleton_iff.2 ⟨?_, ?_, ?_, ?_⟩
  · rw [htrim, body, body]
  · simp [htrim, isOpen, hfault]
  · omega
  · omega

theorem byLine_append_cons {front : List Char} (h : '\n' ∉ front) (rest : List Char) :
    byLine (front ++ '\n' :: rest) = ofText (trim front) :: byLine rest := by
  rw [byLine, cutAfter_append_cons h, List.map_cons, trim_append_newline, byLine]

/-- **A text whose strings stand on lines** scans to what its lines make up one by one. -/
theorem madeUpOf_byLine {cs : List Char} (h : HasStringsOnLines cs) :
    (ofText cs).MadeUpOf (byLine cs) (cs.countP isForeignSpace) := by
  induction cs using linesInduction '\n' with
  | nil =>
    have hnil : ofText [] = ⟨[Token.eof 1], []⟩ := by
      rw [ofText_eq_ofSegments, Segment.segments_nil, ofSegments]
    rw [hnil]
    exact ⟨fun _ => rfl, rfl, Nat.le_refl _, Nat.le_refl _⟩
  | last line hne hline =>
    rw [byLine, cutAfter_of_not_mem hne hline]
    exact madeUpOf_trim hline
  | line front rest hfront ih =>
    have hcount : (front ++ '\n' :: rest).countP isForeignSpace =
        front.countP isForeignSpace + rest.countP isForeignSpace := by
      rw [List.countP_append, List.countP_cons_of_neg (by decide)]
    rw [ofText_append_newline h.not_open, newlines_eq_zero hfront, byLine_append_cons hfront,
      hcount]
    exact (madeUpOf_trim hfront).cons (ih h.of_append) (tokens_ofText_ne_nil rest)

namespace MadeUpOf

variable {s : Scan} {lines : List Scan} {n : Nat} (h : s.MadeUpOf lines n)
include h

theorem body_eq : s.body = lines.zipIdx.flatMap fun (line, i) => line.body.map (Token.below i) := by
  have hbody := h.body 0
  rwa [Token.below_zero_eq_id, List.map_id] at hbody

/-- The tokens of the lines are those of the whole, except that they are on other lines. -/
theorem map_content :
    (lines.flatMap Scan.body).map Token.content = s.body.map Token.content := by
  have hcontent (i : Nat) : Token.content ∘ Token.below i = Token.content :=
    funext fun t => Token.content_below i t
  have hfst : lines = lines.zipIdx.map Prod.fst := by simp
  rw [h.body_eq, List.map_flatMap, List.map_flatMap]
  conv => lhs; rw [hfst, List.flatMap_map]
  simp only [List.map_map, hcontent]

end MadeUpOf

end Scan

end LoxLexer
