import LoxLexer.Proofs.Cursor.Run
import LoxLexer.Proofs.Segment.Row
import LoxLexer.Scan.Diagnosis

/-!
# The faults of a source are those of its diagnosis

`errors_exact`: the diagnostics of a scan are what a reader finds who sees one character at a time
and keeps in mind only the region of the text (`Diagnosis.Region`).

* `diagnose_eq`: what the reader finds is a fault for each stray character, on its line, and one at
  the end if a string is open there.
* `diagnose_text_append`: past a segment that ends before the rest of a text, the reader has found
  the segment's fault, if it is one, and is in code again. Only a slash leaves the reader in another
  region, where nothing but a second slash is read otherwise than in code; and before a second slash
  the first is no segment.
* `diagnose_row`: so the reader finds the faults of the segments one after the other.
-/

namespace LoxLexer

namespace Diagnosis

/-! ## One character -/

/-- Code can contain the characters that a segment begins with. -/
theorem isExpected_iff_isOpening {c : Char} : isExpected c = true ↔ IsOpening c := by
  have hmark : (Mark.ofChar? c).isSome = true ↔ c ∈ symbols ∧ c ≠ '"' := by
    constructor
    · intro h
      unfold Mark.ofChar? at h
      split at h <;> first | decide | cases h
    · rintro ⟨h, hq⟩
      simp only [symbols, List.mem_cons, List.not_mem_nil, or_false] at h
      rcases h with rfl | rfl | rfl | rfl | rfl | rfl | rfl | rfl | rfl | rfl | rfl | rfl | rfl |
        rfl | rfl | rfl
      all_goals first | rfl | exact absurd rfl hq
  have hquote : c = '"' → c ∈ symbols := by
    rintro rfl
    decide
  simp only [isExpected, IsOpening, isWordPart, isWhitespace_iff, hmark, Bool.or_eq_true,
    List.contains_iff_mem]
  grind

theorem next_code {c : Char} (hq : c ≠ '"') (hs : c ≠ '/') : Region.code.next c = .code := by
  unfold Region.next
  split <;> simp_all

/-- Only a second slash is read otherwise after a slash than in code. -/
theorem next_slash {c : Char} (hs : c ≠ '/') : Region.slash.next c = Region.code.next c := by
  unfold Region.next
  split <;> simp_all

theorem next_comment {c : Char} (h : c ≠ '\n') : Region.comment.next c = .comment := by
  unfold Region.next
  split <;> simp_all

theorem next_string {c : Char} (h : c ≠ '"') : Region.string.next c = .string := by
  unfold Region.next
  split <;> simp_all

theorem isOpening_of_isWordPart {c : Char} (h : isWordPart c = true) :
    IsOpening c ∧ c ≠ '"' ∧ c ≠ '/' := by
  refine ⟨?_, ?_, ?_⟩
  · rcases Bool.or_eq_true_iff.1 h with h | h
    · exact .inr (.inr (.inr (.inl h)))
    · exact .inr (.inr (.inl h))
  · rintro rfl
    exact absurd h (by decide)
  · rintro rfl
    exact absurd h (by decide)

theorem isOpening_of_mem_numeral {digits : List Char} (h : IsNumeral digits) {c : Char}
    (hc : c ∈ digits) : IsOpening c ∧ c ≠ '"' ∧ c ≠ '/' := by
  rcases h.isDigit_or_eq_point hc with hd | rfl
  · exact isOpening_of_isWordPart (by rw [isWordPart, hd, Bool.or_true])
  · exact ⟨isExpected_iff_isOpening.1 rfl, by decide, by decide⟩

/-- The reader passes over a character that is no fault where it stands. -/
theorem diagnose_cons_of_quiet {region : Region} {c : Char}
    (h : (region.isCode && !isExpected c) = false) (line : Nat) (cs : List Char) :
    diagnose region line (c :: cs) = diagnose (region.next c) (line + newlines [c]) cs := by
  rw [diagnose, h]
  rfl

/-- The reader passes over a run of characters that are no faults and keep it in its region. -/
theorem diagnose_append_of_quiet {region : Region} {run : List Char}
    (h : ∀ c ∈ run, (region.isCode && !isExpected c) = false ∧ region.next c = region) (line : Nat)
    (rest : List Char) :
    diagnose region line (run ++ rest) = diagnose region (line + newlines run) rest := by
  induction run generalizing line with
  | nil => rfl
  | cons c run ih =>
    obtain ⟨hc, hnext⟩ := h c List.mem_cons_self
    rw [List.cons_append, diagnose_cons_of_quiet hc, hnext,
      ih fun d hd => h d (List.mem_cons_of_mem c hd), newlines_eq_add c run, Nat.add_assoc]

/-! ## One segment -/

/-- After a slash, a text that does not begin with another is read as in code. -/
theorem diagnose_slash {rest : List Char} (h : rest.head? ≠ some '/') (line : Nat) :
    diagnose .slash line rest = diagnose .code line rest := by
  obtain _ | ⟨c, rest⟩ := rest
  · rfl
  · have hc : c ≠ '/' := fun hc => h (congrArg some hc)
    rw [diagnose, diagnose, next_slash hc]
    rfl

/-- In code, characters that are expected and are neither quotes nor slashes are passed over. -/
theorem diagnose_code_append {run : List Char}
    (h : ∀ c ∈ run, IsOpening c ∧ c ≠ '"' ∧ c ≠ '/') (line : Nat) (rest : List Char) :
    diagnose .code line (run ++ rest) = diagnose .code (line + newlines run) rest := by
  refine diagnose_append_of_quiet (fun c hc => ?_) line rest
  obtain ⟨hopening, hq, hs⟩ := h c hc
  exact ⟨by simp [isExpected_iff_isOpening.2 hopening], next_code hq hs⟩

theorem diagnose_mark {m : Mark} {rest : List Char} (he : (Segment.mark m).EndsBefore rest)
    (line : Nat) :
    diagnose .code line (m.spelling.toList ++ rest) = diagnose .code line rest := by
  by_cases hm : m = .slash
  · subst hm
    have hquiet : (Region.code.isCode && !isExpected '/') = false := by decide
    exact (diagnose_cons_of_quiet hquiet line rest).trans (diagnose_slash (he.2 rfl) line)
  · have hall : m.spelling.toList.all (fun c => isExpected c && c != '"' && c != '/') = true := by
      cases m <;> first | decide | exact absurd rfl hm
    have hrun : ∀ c ∈ m.spelling.toList, IsOpening c ∧ c ≠ '"' ∧ c ≠ '/' := by
      intro c hc
      have := List.all_eq_true.1 hall c hc
      simpa [isExpected_iff_isOpening, and_assoc] using this
    rw [diagnose_code_append hrun, m.newlines_spelling]
    rfl

/-- From inside a comment the reader comes back to code at the end of the line. -/
theorem diagnose_comment {body rest : List Char} (hbody : '\n' ∉ body)
    (hrest : Stops (· != '\n') rest) (line : Nat) :
    diagnose .comment line (body ++ rest) = diagnose .code line rest := by
  have hrun : ∀ c ∈ body, (Region.comment.isCode && !isExpected c) = false ∧
      Region.comment.next c = .comment :=
    fun c hc => ⟨rfl, next_comment (ne_of_mem_of_not_mem hc hbody)⟩
  rw [diagnose_append_of_quiet hrun, newlines_eq_zero hbody]
  obtain _ | ⟨c, rest⟩ := rest
  · rfl
  · obtain rfl : c = '\n' := by simpa using hrest
    rfl

/-- Inside a string the reader passes over all but a quote. -/
theorem diagnose_string {value : List Char} (hvalue : '"' ∉ value) (line : Nat)
    (rest : List Char) :
    diagnose .string line (value ++ rest) = diagnose .string (line + newlines value) rest :=
  diagnose_append_of_quiet
    (fun _ hc => ⟨rfl, next_string (ne_of_mem_of_not_mem hc hvalue)⟩) line rest

theorem diagnose_stray {c : Char} (hs : (Segment.stray c).Lexical) (line : Nat)
    (rest : List Char) :
    diagnose .code line (c :: rest) =
      ⟨.unexpectedCharacter, line⟩ :: diagnose .code line rest := by
  have hopening : ¬ IsOpening c := Segment.lexical_stray_iff.1 hs
  have hfault : (Region.code.isCode && !isExpected c) = true := by
    simpa [Region.isCode, ← Bool.not_eq_true, isExpected_iff_isOpening] using hopening
  have hnext : Region.code.next c = .code := by
    refine next_code ?_ ?_ <;> rintro rfl <;> exact hopening (isExpected_iff_isOpening.1 rfl)
  rw [diagnose, if_pos hfault, hnext, Segment.newlines_stray hs]
  rfl

/-- **Past a segment** that ends before the rest of a text, the reader has found the segment's
fault, if it is one, and is in code. -/
theorem diagnose_text_append {s : Segment} {rest : List Char} (hs : s.Lexical)
    (he : s.EndsBefore rest) (line : Nat) :
    diagnose .code line (s.text ++ rest) =
      ((s.item? (line + newlines s.text)).bind Item.diagnostic?).toList ++
        diagnose .code (line + newlines s.text) rest := by
  rcases hs with hs | ⟨c, rfl, hc⟩
  case inr =>
    have hs : (Segment.stray c).Lexical := .inr ⟨c, rfl, hc⟩
    have hstray := diagnose_stray hs line rest
    simpa [Segment.text, Segment.item?, Item.diagnostic?, Segment.newlines_stray hs] using hstray
  cases s with
  | mark m =>
    have hm := diagnose_mark he line
    simpa [Segment.item?, Item.diagnostic?, Segment.text, m.newlines_spelling] using hm
  | blank c =>
    refine diagnose_code_append (fun d hd => ?_) line rest
    have hc := isWhitespace_iff.2 hs
    obtain rfl := List.mem_singleton.1 hd
    refine ⟨.inl hc, (classes_of_isWhitespace hc).1, ?_⟩
    rintro rfl
    exact absurd hc (by decide)
  | comment body =>
    have hbody := diagnose_comment hs he line
    rw [Segment.newlines_comment hs]
    exact hbody
  | string value =>
    have hopen := diagnose_string hs line ('"' :: rest)
    rw [Segment.newlines_string, Segment.text, List.append_assoc]
    exact hopen
  | number digits => exact diagnose_code_append (fun _ => isOpening_of_mem_numeral hs) line rest
  | word letters =>
    have hrun : ∀ c ∈ letters, IsOpening c ∧ c ≠ '"' ∧ c ≠ '/' :=
      fun _ hc => isOpening_of_isWordPart (IsWord.isWordPart_of_mem hs hc)
    exact diagnose_code_append hrun line rest
  | openString value =>
    obtain rfl : rest = [] := he
    have hopen := diagnose_string hs line []
    rw [Segment.newlines_openString, Segment.text]
    exact hopen
  | stray c => exact hs.elim

/-! ## A whole text -/

/-- **The faults of segments in a row** are those that the reader finds in their text. -/
theorem diagnose_row {ss : List Segment} (h : Segment.Row [] ss) (line : Nat) :
    diagnose .code line (ss.flatMap Segment.text) = (Scan.ofSegments line ss).errors := by
  induction h generalizing line with
  | nil => rfl
  | @cons s ss hs he _ ih =>
    rw [List.append_nil] at he
    rw [List.flatMap_cons, diagnose_text_append hs he, ih, Scan.ofSegments_cons hs,
      Scan.errors_consOption]

theorem errors_eq_diagnose (cs : List Char) : (Scan.ofText cs).errors = diagnose .code 1 cs := by
  rw [Scan.ofText_eq_ofSegments, ← diagnose_row (Segment.row_segments cs),
    Segment.flatMap_text_segments]

theorem strays_cons (region : Region) (c : Char) (cs : List Char) :
    strays region (c :: cs) = (if region.isCode && !isExpected c then [0] else []) ++
      (strays (region.next c) cs).map (· + 1) := by
  have hrest : (fun i => (region.after ((c :: cs).take i)).isCode &&
      (c :: cs)[i]?.any (!isExpected ·)) ∘ Nat.succ =
      fun i => ((region.next c).after (cs.take i)).isCode && cs[i]?.any (!isExpected ·) := rfl
  rw [strays, List.length_cons, List.range_succ_eq_map, List.filter_cons, List.filter_map, hrest]
  change (if region.isCode && !isExpected c then _ else _) = _
  split <;> rfl

/-- **The reader's findings**: a fault for each stray character, on the line that it is on, and one
for a string that is open at the end, on the last line. -/
theorem diagnose_eq (region : Region) (line : Nat) (cs : List Char) :
    diagnose region line cs =
      (strays region cs).map (fun i => ⟨.unexpectedCharacter, line + newlines (cs.take i)⟩) ++
        if region.after cs = .string then [⟨.unterminatedString, line + newlines cs⟩] else [] := by
  induction cs generalizing region line with
  | nil => rfl
  | cons c cs ih =>
    have hnewlines (t : List Char) :
        line + newlines (c :: t) = line + newlines [c] + newlines t := by
      rw [Nat.add_assoc, newlines_eq_add]
    have hafter : region.after (c :: cs) = (region.next c).after cs := rfl
    have hshift : (fun i => Diagnostic.mk .unexpectedCharacter
          (line + newlines ((c :: cs).take i))) ∘ (· + 1) =
        fun i => ⟨.unexpectedCharacter, line + newlines [c] + newlines (cs.take i)⟩ :=
      funext fun i => congrArg (Diagnostic.mk _) (hnewlines (cs.take i))
    rw [strays_cons, diagnose, ih, hnewlines cs, hafter, List.map_append, List.map_map, hshift]
    split <;> rfl

end Diagnosis

open Diagnosis in
/-- **Exact diagnostics**: a scan, over characters as over bytes, reports what the reader finds who
sees one character at a time, which is a fault for each character in code that code cannot contain,
and then one for a string that is open at the end. So no fault but the last is that of a string, and
a run fails exactly if there are faults, with their number. -/
theorem errors_exact (source : String) :
    (scan source).errors = diagnose .code 1 source.toList ∧
    diagnose .code 1 source.toList =
      (strays .code source.toList).map
          (fun i => ⟨.unexpectedCharacter, lastLine (source.toList.take i)⟩) ++
        (if Region.code.after source.toList = .string then
          [⟨.unterminatedString, lastLine source.toList⟩] else []) ∧
    (Cursor.scan? source.toList).map Scan.errors = some (diagnose .code 1 source.toList) ∧
    (∀ d ∈ (scan source).errors.dropLast, d.fault = .unexpectedCharacter) ∧
    ((scan source).hadError = true ↔ (scan source).errors ≠ []) ∧
    (scan source).failure? =
      if (scan source).errors = [] then none else some (.lexical (scan source).errors.length) := by
  have herrors : (scan source).errors = diagnose .code 1 source.toList :=
    errors_eq_diagnose source.toList
  have hfound := diagnose_eq .code 1 source.toList
  have hadError_iff : (scan source).hadError = true ↔ (scan source).errors ≠ [] := by
    rw [Scan.hadError, Bool.not_eq_true', ← Bool.not_eq_true, List.isEmpty_iff]
  refine ⟨herrors, hfound, ?_, ?_, hadError_iff, ?_⟩
  · rw [Cursor.scan?_eq_ofText, Option.map_some, ← herrors]
    rfl
  · intro d hd
    have hstray : d ∈ (strays .code source.toList).map
        fun i => ⟨.unexpectedCharacter, lastLine (source.toList.take i)⟩ := by
      rw [herrors, hfound] at hd
      split at hd
      · rwa [List.dropLast_concat] at hd
      · rw [List.append_nil] at hd
        exact List.dropLast_subset _ hd
    obtain ⟨i, -, rfl⟩ := List.mem_map.1 hstray
    rfl
  · simp only [Scan.failure?, hadError_iff, ne_eq, ite_not]

end LoxLexer
