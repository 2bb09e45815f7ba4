import LoxLexer.Proofs.Cursor.Bytes
import LoxLexer.Text.Unicode

/-!
# Cutting and trimming

`cutAfter` cuts a list into lines: a line is what comes up to a separator and that separator
(`cutAfter_append_cons`), and what comes behind the last separator is a line too if there is
anything (`cutAfter_of_not_mem`). Every list is made up so (`linesInduction`), and so has a line for
each separator (`length_cutAfter_append_cons`).

Hence a separator stands at the end of a line only (`not_mem_dropLast_of_mem_cutAfter`), and what
follows a separator has no effect on the lines before (`cutAfter_append_of_complete`).

A text is its trimmed form between white space (`exists_eq_trim`), and white space behind a text
makes no difference to that form (`trim_append`). So a line is trimmed to the same text with and
without its line feed, and the trimmed text has none (`newline_not_mem_trim`).

The bytes of a text tell the text (`fromUTF8?_eq_some_iff`), and the byte of a line feed occurs in
them only as a line feed (`lineFeed_mem_utf8_iff`). So it makes no difference whether a text is cut
into lines before or after it is turned into bytes (`cutAfter_utf8`).
-/

namespace LoxLexer

/-! ## Lines -/

section
variable {α : Type} [DecidableEq α] {sep : α}

theorem cutAfter_append_cons {front : List α} (h : sep ∉ front) (rest : List α) :
    cutAfter sep (front ++ sep :: rest) = (front ++ [sep]) :: cutAfter sep rest := by
  induction front with
  | nil => simp [cutAfter]
  | cons a front ih =>
    rw [List.mem_cons, not_or] at h
    rw [List.cons_append, cutAfter, if_neg (Ne.symm h.1), ih h.2]
    rfl

theorem cutAfter_of_not_mem {l : List α} (hne : l ≠ []) (h : sep ∉ l) : cutAfter sep l = [l] := by
  induction l with
  | nil => exact absurd rfl hne
  | cons a l ih =>
    rw [List.mem_cons, not_or] at h
    rw [cutAfter, if_neg (Ne.symm h.1)]
    cases l with
    | nil => rfl
    | cons b l => rw [ih (List.cons_ne_nil b l) h.2]

/-- Induction line by line. -/
theorem linesInduction (sep : α) {motive : List α → Prop} (nil : motive [])
    (last : ∀ l : List α, l ≠ [] → sep ∉ l → motive l)
    (line : ∀ front rest : List α, sep ∉ front → motive rest → motive (front ++ sep :: rest))
    (l : List α) : motive l := by
  by_cases h : sep ∈ l
  · obtain ⟨front, rest, hl, hfront⟩ := List.eq_append_cons_of_mem h
    have hlt : rest.length < l.length := by
      rw [hl, List.length_append, List.length_cons]
      omega
    rw [hl]
    exact line front rest hfront (linesInduction sep nil last line rest)
  · by_cases hne : l = []
    · exact hne ▸ nil
    · exact last l hne h
termination_by l.length

theorem not_mem_dropLast_of_mem_cutAfter {l line : List α} (h : line ∈ cutAfter sep l) :
    sep ∉ line.dropLast := by
  induction l using linesInduction sep with
  | nil => cases h
  | last l hne hl =>
    rw [cutAfter_of_not_mem hne hl, List.mem_singleton] at h
    rw [h]
    exact fun hmem => hl ((List.dropLast_sublist l).subset hmem)
  | line front rest hfront ih =>
    rw [cutAfter_append_cons hfront, List.mem_cons] at h
    rcases h with rfl | h
    · rwa [List.dropLast_concat]
    · exact ih h

/-- Up to a separator, each separator ends a line. -/
theorem length_cutAfter_append_cons (sep : α) (front rest : List α) :
    (cutAfter sep (front ++ sep :: rest)).length =
      front.count sep + 1 + (cutAfter sep rest).length := by
  induction front with
  | nil => simp [cutAfter, Nat.add_comm]
  | cons a front ih =>
    rw [List.cons_append, cutAfter]
    by_cases h : a = sep
    · rw [if_pos h, List.length_cons, ih, h, List.count_cons_self]
      omega
    · rw [if_neg h, List.count_cons_of_ne h, ← ih]
      -- what is cut behind `a` is not nothing, for there is a separator in it
      cases hcut : cutAfter sep (front ++ sep :: rest) with
      | nil =>
        rw [hcut, List.length_nil] at ih
        omega
      | cons line lines => rfl

/-! ## Complete lines -/

/-- A line that ends with its separator, and has it nowhere else. -/
def IsComplete (sep : α) (line : List α) : Prop := ∃ front, sep ∉ front ∧ line = front ++ [sep]

/-- Only the last line can lack its separator. -/
theorem isComplete_of_cutAfter {l line : List α} {lines lines' : List (List α)}
    (h : cutAfter sep l = lines ++ line :: lines') : ∀ p ∈ lines, IsComplete sep p := by
  induction l using linesInduction sep generalizing lines with
  | nil => simp [cutAfter] at h
  | last l hne hl =>
    rw [cutAfter_of_not_mem hne hl] at h
    cases lines with
    | nil => simp
    | cons p lines => simp at h
  | line front rest hfront ih =>
    rw [cutAfter_append_cons hfront] at h
    cases lines with
    | nil => simp
    | cons p lines =>
      obtain ⟨rfl, hrest⟩ := List.cons.inj h
      exact List.forall_mem_cons.2 ⟨⟨front, hfront, rfl⟩, ih hrest⟩

theorem isComplete_of_getLast? {l line : List α} (h : line ∈ cutAfter sep l)
    (hlast : line.getLast? = some sep) : IsComplete sep line := by
  obtain ⟨front, rfl⟩ := List.getLast?_eq_some_iff.1 hlast
  have hfront := not_mem_dropLast_of_mem_cutAfter h
  rw [List.dropLast_concat] at hfront
  exact ⟨front, hfront, rfl⟩

/-- Complete lines are cut off whatever follows them. -/
theorem cutAfter_append_of_complete {lines : List (List α)} (h : ∀ p ∈ lines, IsComplete sep p)
    (rest : List α) : cutAfter sep (lines.flatten ++ rest) = lines ++ cutAfter sep rest := by
  induction lines with
  | nil => rfl
  | cons line lines ih =>
    rw [List.forall_mem_cons] at h
    obtain ⟨front, hfront, rfl⟩ := h.1
    rw [List.flatten_cons, List.append_assoc, List.append_assoc, List.singleton_append,
      cutAfter_append_cons hfront, ih h.2, List.cons_append]

end

/-! ## Trimming -/

theorem exists_eq_trim (cs : List Char) : ∃ front back, cs = front ++ (trim cs ++ back) ∧
    (∀ c ∈ front, isWhiteSpace c = true) ∧ ∀ c ∈ back, isWhiteSpace c = true := by
  have hfront := List.takeWhile_append_dropWhile (p := isWhiteSpace) (l := cs)
  have hback := List.takeWhile_append_dropWhile (p := isWhiteSpace)
    (l := (cs.dropWhile isWhiteSpace).reverse)
  refine ⟨cs.takeWhile isWhiteSpace,
    ((cs.dropWhile isWhiteSpace).reverse.takeWhile isWhiteSpace).reverse, ?_,
    List.all_eq_true.1 List.all_takeWhile, fun c hc => ?_⟩
  · rw [trim, ← List.reverse_append, hback, List.reverse_reverse, hfront]
  · exact List.all_eq_true.1 List.all_takeWhile c (List.mem_reverse.1 hc)

/-- White space behind a text is trimmed off. -/
theorem trim_append (cs : List Char) {back : List Char} (h : ∀ c ∈ back, isWhiteSpace c = true) :
    trim (cs ++ back) = trim cs := by
  have hback := dropWhile_append_of_stops h stops_nil
  rw [List.append_nil] at hback
  have hreverse : ∀ c ∈ back.reverse, isWhiteSpace c = true := fun c hc =>
    h c (List.mem_reverse.1 hc)
  rw [trim, trim, List.dropWhile_append]
  split
  · next hnil => rw [hback, List.isEmpty_iff.1 hnil]
  · rw [List.reverse_append, List.dropWhile_append_of_pos hreverse]

theorem mem_of_mem_trim {cs : List Char} {c : Char} (h : c ∈ trim cs) : c ∈ cs := by
  obtain ⟨front, back, hcs, -⟩ := exists_eq_trim cs
  rw [hcs]
  exact List.mem_append_right front (List.mem_append_left back h)

theorem trim_append_newline (cs : List Char) : trim (cs ++ ['\n']) = trim cs :=
  trim_append cs (List.forall_mem_singleton.2 (by decide))

/-- Of a text with a line feed at its end at most, the trimmed form has none. -/
theorem newline_not_mem_trim {cs : List Char} (h : '\n' ∉ cs.dropLast) : '\n' ∉ trim cs := by
  rcases List.eq_nil_or_concat cs with rfl | ⟨front, c, rfl⟩
  · exact List.not_mem_nil
  rw [List.concat_eq_append, List.dropLast_concat] at h
  rw [List.concat_eq_append]
  by_cases hc : c = '\n'
  · rw [hc, trim_append_newline]
    exact fun hmem => h (mem_of_mem_trim hmem)
  · intro hmem
    rcases List.mem_append.1 (mem_of_mem_trim hmem) with hmem | hmem
    · exact h hmem
    · exact hc (List.mem_singleton.1 hmem).symm

/-! ## Lines of bytes -/

/-- Bytes are read as a text exactly when they are the bytes of that text. -/
theorem fromUTF8?_eq_some_iff {bytes : List UInt8} {text : String} :
    String.fromUTF8? ⟨bytes.toArray⟩ = some text ↔ bytes = utf8 text.toList := by
  constructor
  · intro h
    rw [String.fromUTF8?] at h
    split at h
    · have hbytes : text.toByteArray = ⟨bytes.toArray⟩ :=
        congrArg String.toByteArray (Option.some.inj h).symm
      rw [← String.utf8Encode_toList] at hbytes
      have hdata := congrArg ByteArray.data hbytes
      rw [List.utf8Encode, List.data_toByteArray] at hdata
      exact (List.toArray_inj hdata).symm
    · cases h
  · rintro rfl
    rw [Cursor.fromUTF8?_utf8, String.ofList_toList]

theorem lineFeed_mem_encodeChar_iff {c : Char} : lineFeed ∈ String.utf8EncodeChar c ↔ c = '\n' := by
  constructor
  · intro h
    have huniform := Cursor.isUniform_beq (d := '\n') (by decide)
    have hc : (Cursor.ascii lineFeed == '\n') = (c == '\n') := huniform.apply_ascii h
    exact beq_iff_eq.1 (hc.symm.trans (by decide))
  · rintro rfl
    decide

theorem lineFeed_mem_utf8_iff {cs : List Char} : lineFeed ∈ utf8 cs ↔ '\n' ∈ cs := by
  rw [utf8, List.mem_flatMap]
  simp only [lineFeed_mem_encodeChar_iff, exists_eq_right]

/-- **Lines of a text** are cut as those of its bytes. -/
theorem cutAfter_utf8 (cs : List Char) :
    cutAfter lineFeed (utf8 cs) = (cutAfter '\n' cs).map utf8 := by
  induction cs using linesInduction '\n' with
  | nil => rfl
  | last cs hne hcs =>
    have hbytes : utf8 cs ≠ [] := by
      have := byteLength_pos hne
      rw [← length_utf8] at this
      exact List.ne_nil_of_length_pos this
    rw [cutAfter_of_not_mem hne hcs,
      cutAfter_of_not_mem hbytes (mt lineFeed_mem_utf8_iff.1 hcs)]
    rfl
  | line front rest hfront ih =>
    have hfeed : utf8 ['\n'] = [lineFeed] := rfl
    have hbytes : utf8 (front ++ '\n' :: rest) = utf8 front ++ lineFeed :: utf8 rest := by
      rw [utf8_append]
      rfl
    rw [cutAfter_append_cons hfront, hbytes,
      cutAfter_append_cons (mt lineFeed_mem_utf8_iff.1 hfront), ih, List.map_cons, utf8_append,
      hfeed]

/-- A line feed that is not the last character is not the last byte. -/
theorem newline_not_mem_dropLast {cs : List Char} (h : lineFeed ∉ (utf8 cs).dropLast) :
    '\n' ∉ cs.dropLast := by
  rcases List.eq_nil_or_concat cs with rfl | ⟨front, c, rfl⟩
  · exact List.not_mem_nil
  rw [List.concat_eq_append, utf8_append, utf8_cons, utf8_nil, List.append_nil,
    List.dropLast_append_of_ne_nil String.utf8EncodeChar_ne_nil] at h
  rw [List.concat_eq_append, List.dropLast_concat]
  exact fun hmem => h (List.mem_append_left _ (lineFeed_mem_utf8_iff.2 hmem))

end LoxLexer
