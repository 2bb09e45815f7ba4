import LoxLexer.Segment.Basic

/-!
# Cutting source text into segments

`Segment.cut` takes the leading segment off a text that is not empty, and `Segment.segments` goes on
until nothing is left. One character of lookahead settles every class but two: a point belongs to a
number only if a digit follows it, and a quote opens a string that closes only if another quote
comes.

Main statements: `text_cut` (the segment and what is left make up the text), `text_cut_ne_nil` (the
segment is not empty, so cutting ends), `flatMap_text_segments` (the segments make up the text).
-/

namespace LoxLexer

namespace Segment

/-! ## The leading segment -/

/-- After an opening quote: up to the next quote, or to the end if there is none. -/
def cutString (cs : List Char) : Segment × List Char :=
  match cs.dropWhile (· != '"') with
  | [] => (openString cs, [])
  | _ :: rest => (string (cs.takeWhile (· != '"')), rest)

/-- A row of digits, with a point and a second row if a digit follows the point. -/
def cutNumber (cs : List Char) : Segment × List Char :=
  let whole := cs.takeWhile Char.isDigit
  let rest := cs.dropWhile Char.isDigit
  match rest with
  | '.' :: d :: _ =>
    if d.isDigit then
      (number (whole ++ '.' :: rest.tail.takeWhile Char.isDigit), rest.tail.dropWhile Char.isDigit)
    else (number whole, rest)
  | _ => (number whole, rest)

/-- A mark of two characters if an equals sign makes one, else a mark of one, else a stray. -/
def cutMark (c : Char) (cs : List Char) : Segment × List Char :=
  match Mark.ofChar? c with
  | none => (stray c, cs)
  | some m =>
    match m.withEqual?, cs with
    | some m', '=' :: rest => (mark m', rest)
    | _, _ => (mark m, cs)

/-- Cuts the leading segment off the text `c :: cs`. -/
def cut (c : Char) (cs : List Char) : Segment × List Char :=
  if c.isWhitespace then (blank c, cs)
  else if c = '"' then cutString cs
  else if c.isDigit then cutNumber (c :: cs)
  else if isWordStart c then
    (word ((c :: cs).takeWhile isWordPart), (c :: cs).dropWhile isWordPart)
  else if c = '/' ∧ cs.head? = some '/' then
    (comment (cs.tail.takeWhile (· != '\n')), cs.tail.dropWhile (· != '\n'))
  else cutMark c cs

/-! ## Nothing is lost -/

theorem text_cutString (cs : List Char) :
    (cutString cs).1.text ++ (cutString cs).2 = '"' :: cs := by
  have split := List.takeWhile_append_dropWhile (p := (· != '"')) (l := cs)
  unfold cutString
  split
  · simp [text]
  · next q rest h =>
    have hq : q = '"' := by
      have := List.head?_dropWhile_not (· != '"') cs
      rw [h] at this
      simpa using this
    rw [h, hq] at split
    simp [text, split]

theorem text_cutNumber (cs : List Char) : (cutNumber cs).1.text ++ (cutNumber cs).2 = cs := by
  have split := List.takeWhile_append_dropWhile (p := Char.isDigit) (l := cs)
  unfold cutNumber
  dsimp only
  split
  · next d tail h =>
    split
    · have := List.takeWhile_append_dropWhile (p := Char.isDigit) (l := d :: tail)
      rw [h] at split
      simp [text, h, this, split]
    · simp [text, split]
  · simp [text, split]

theorem text_cutMark (c : Char) (cs : List Char) :
    (cutMark c cs).1.text ++ (cutMark c cs).2 = c :: cs := by
  unfold cutMark
  split
  · simp [text]
  · next m hm =>
    split
    · next m' rest hm' =>
      simp [text, Mark.toList_spelling_of_withEqual? hm', Mark.toList_spelling_of_ofChar? hm]
    · simp [text, Mark.toList_spelling_of_ofChar? hm]

theorem text_cut (c : Char) (cs : List Char) : (cut c cs).1.text ++ (cut c cs).2 = c :: cs := by
  unfold cut
  split
  · simp [text]
  split
  · next h => rw [h]; exact text_cutString cs
  split
  · exact text_cutNumber (c :: cs)
  split
  · simp [text]
  split
  · next h =>
    obtain ⟨rfl, h⟩ := h
    obtain ⟨rest, rfl⟩ : ∃ rest, cs = '/' :: rest := by
      cases cs <;> simp_all
    simp [text]
  · exact text_cutMark c cs

/-! ## The leading segment is not empty -/

theorem text_cut_ne_nil (c : Char) (cs : List Char) : (cut c cs).1.text ≠ [] := by
  unfold cut
  split
  · simp [text]
  split
  · unfold cutString; split <;> simp [text]
  split
  · next h =>
    unfold cutNumber
    dsimp only
    split
    · split <;> simp [text, h]
    · simp [text, h]
  split
  · next h => simp [text, isWordPart, h]
  split
  · simp [text]
  · unfold cutMark
    split
    · simp [text]
    · next m _ =>
      split <;> exact Mark.toList_spelling_ne_nil _

theorem length_cut_lt (c : Char) (cs : List Char) : (cut c cs).2.length < (c :: cs).length := by
  have h := congrArg List.length (text_cut c cs)
  have := List.length_pos_iff.2 (text_cut_ne_nil c cs)
  simp only [List.length_append] at h
  omega

/-! ## All segments -/

def segments : List Char → List Segment
  | [] => []
  | c :: cs => (cut c cs).1 :: segments (cut c cs).2
termination_by cs => cs.length
decreasing_by exact length_cut_lt c cs

@[simp] theorem segments_nil : segments [] = [] := by rw [segments]

theorem segments_cons (c : Char) (cs : List Char) :
    segments (c :: cs) = (cut c cs).1 :: segments (cut c cs).2 := by rw [segments]

theorem flatMap_text_segments (cs : List Char) : (segments cs).flatMap text = cs := by
  fun_induction segments cs with
  | case1 => rfl
  | case2 c cs ih => rw [List.flatMap_cons, ih, text_cut]

end Segment

end LoxLexer
