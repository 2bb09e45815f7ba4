import LoxLexer.Segment.Basic
import LoxLexer.Token.Basic

/-!
# Classes of characters

Runs of a class at the beginning of a list, which are what `takeWhile` takes and `dropWhile` drops,
and that the classes by which a segment's first character is told are apart
(`classes_of_isWhitespace`, `classes_of_isDigit`, `classes_of_isWordStart`,
`Mark.classes_of_ofChar?`).
-/

namespace LoxLexer

/-! ## Runs of a class -/

/-- The list does not begin with an element of the class. -/
def Stops {α : Type} (p : α → Bool) (rest : List α) : Prop := ∀ a ∈ rest.head?, p a = false

section
variable {α : Type} {p : α → Bool}

@[simp] theorem stops_nil : Stops p [] := by simp [Stops]

@[simp] theorem stops_cons {a : α} {l : List α} : Stops p (a :: l) ↔ p a = false := by simp [Stops]

theorem Stops.append_cons {l : List α} (h : Stops p l) {a : α} (ha : p a = false)
    (more : List α) : Stops p (l ++ a :: more) := by
  cases l with
  | nil => exact stops_cons.2 ha
  | cons b l => exact stops_cons.2 (stops_cons.1 h)

theorem stops_dropWhile (l : List α) : Stops p (l.dropWhile p) := by
  intro a ha
  have h := List.head?_dropWhile_not p l
  rw [Option.mem_def.1 ha] at h
  exact h

theorem takeWhile_append_of_stops {l rest : List α} (h : ∀ a ∈ l, p a = true)
    (hr : Stops p rest) : (l ++ rest).takeWhile p = l := by
  rw [List.takeWhile_append_of_pos h]
  cases rest with
  | nil => simp
  | cons a rest => simp [stops_cons.1 hr]

theorem dropWhile_append_of_stops {l rest : List α} (h : ∀ a ∈ l, p a = true)
    (hr : Stops p rest) : (l ++ rest).dropWhile p = rest := by
  rw [List.dropWhile_append_of_pos h]
  cases rest with
  | nil => simp
  | cons a rest => simp [stops_cons.1 hr]

end

theorem forall_bne_of_not_mem {c : Char} {cs : List Char} (h : c ∉ cs) :
    ∀ d ∈ cs, (d != c) = true := by
  intro d hd
  rw [bne_iff_ne]
  rintro rfl
  exact h hd

theorem not_mem_takeWhile_bne (c : Char) (cs : List Char) : c ∉ cs.takeWhile (· != c) := by
  intro hc
  have h := List.all_eq_true.1 (List.all_takeWhile (l := cs) (p := (· != c))) c hc
  simp at h

/-! ## Classes of characters -/

theorem isWhitespace_iff {c : Char} : c.isWhitespace = true ↔ c ∈ [' ', '\t', '\r', '\n'] := by
  simp [Char.isWhitespace, or_assoc]

theorem isDigit_iff {c : Char} : c.isDigit = true ↔ 48 ≤ c.toNat ∧ c.toNat ≤ 57 :=
  Char.isDigit_iff_toNat

theorem isAlpha_iff {c : Char} :
    c.isAlpha = true ↔ (65 ≤ c.toNat ∧ c.toNat ≤ 90) ∨ (97 ≤ c.toNat ∧ c.toNat ≤ 122) := by
  have h : c.isAlpha = (decide ('A'.val ≤ c.val ∧ c.val ≤ 'Z'.val) ||
      (decide ('a'.val ≤ c.val) && decide (c.val ≤ 'z'.val))) := rfl
  simp only [h, Bool.or_eq_true, Bool.and_eq_true, decide_eq_true_eq, UInt32.le_iff_toNat_le]
  exact Iff.rfl

theorem isWordStart_iff {c : Char} : isWordStart c = true ↔ c.isAlpha = true ∨ c = '_' := by
  rw [isWordStart, Bool.or_eq_true, beq_iff_eq]

theorem isWordStart_of_isDigit {c : Char} (h : c.isDigit = true) : isWordStart c = false := by
  rw [← Bool.not_eq_true, isWordStart_iff, isAlpha_iff]
  rintro (hc | rfl)
  · have := isDigit_iff.1 h
    omega
  · exact absurd h (by decide)

/-- A blank is in no other class. -/
theorem classes_of_isWhitespace {c : Char} (h : c.isWhitespace = true) :
    c ≠ '"' ∧ c.isDigit = false ∧ isWordStart c = false := by
  have hc := isWhitespace_iff.1 h
  simp only [List.mem_cons, List.not_mem_nil, or_false] at hc
  rcases hc with rfl | rfl | rfl | rfl <;> decide

/-- A digit is in no other class but that of word parts. -/
theorem classes_of_isDigit {c : Char} (h : c.isDigit = true) :
    c.isWhitespace = false ∧ c ≠ '"' ∧ isWordStart c = false := by
  refine ⟨?_, ?_, isWordStart_of_isDigit h⟩
  · rw [← Bool.not_eq_true]
    intro hc
    rw [(classes_of_isWhitespace hc).2.1] at h
    cases h
  · rintro rfl
    exact absurd h (by decide)

/-- The first character of a word is in no other class. -/
theorem classes_of_isWordStart {c : Char} (h : isWordStart c = true) :
    c.isWhitespace = false ∧ c ≠ '"' ∧ c.isDigit = false := by
  refine ⟨?_, ?_, ?_⟩
  · rw [← Bool.not_eq_true]
    intro hc
    rw [(classes_of_isWhitespace hc).2.2] at h
    cases h
  · rintro rfl
    exact absurd h (by decide)
  · rw [← Bool.not_eq_true]
    intro hd
    rw [isWordStart_of_isDigit hd] at h
    cases h

namespace Mark

/-- A mark is spelled by one character, or by that of another mark and an equals sign. -/
theorem spelling_cases (m : Mark) : ∃ c, (ofChar? c = some m ∧ m.spelling.toList = [c]) ∨
    ∃ m', ofChar? c = some m' ∧ m'.withEqual? = some m ∧ m.spelling.toList = [c, '='] := by
  refine ⟨m.spelling.toList.headD ' ', ?_⟩
  cases m with
  | bangEqual => exact .inr ⟨bang, by decide⟩
  | equalEqual => exact .inr ⟨equal, by decide⟩
  | greaterEqual => exact .inr ⟨greater, by decide⟩
  | lessEqual => exact .inr ⟨less, by decide⟩
  | _ => exact .inl (by decide)

/-- The first character of a mark is in no other class. -/
theorem classes_of_ofChar? {c : Char} {m : Mark} (h : ofChar? c = some m) :
    c.isWhitespace = false ∧ c ≠ '"' ∧ c.isDigit = false ∧ isWordStart c = false := by
  unfold ofChar? at h
  split at h <;> cases h <;> decide

end Mark

/-! ## Line feeds -/

theorem newlines_eq_zero_iff {cs : List Char} : newlines cs = 0 ↔ '\n' ∉ cs := List.count_eq_zero

theorem newlines_eq_zero {cs : List Char} (h : '\n' ∉ cs) : newlines cs = 0 :=
  newlines_eq_zero_iff.2 h

theorem newlines_eq_add (c : Char) (cs : List Char) :
    newlines (c :: cs) = newlines [c] + newlines cs := newlines_append [c] cs

theorem newlines_le_length (cs : List Char) : newlines cs ≤ cs.length := List.count_le_length

end LoxLexer
