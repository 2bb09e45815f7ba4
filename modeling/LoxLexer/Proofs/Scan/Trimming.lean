import LoxLexer.Proofs.Scan.Composition
import LoxLexer.Proofs.Text.Cut
import LoxLexer.Scan

/-!
# White space at the ends of a line

What trimming a line takes away makes no token. The white space characters that are no blanks of the
language are reported where a token could begin, and in a comment or a string left open they are not
(`ofText_trim`).

* `ofSegments_whiteSpace_append`: white space in front of a text.
* `ofSegments_append_whiteSpace`: white space behind a text, by what the text leaves open.
-/

namespace LoxLexer

/-! ## The class of white space -/

theorem toNat_of_isWhiteSpace {c : Char} (h : isWhiteSpace c = true) :
    c.toNat ≤ 32 ∨ 133 ≤ c.toNat := by
  simp only [isWhiteSpace, inRanges, whiteSpaceRanges, List.any_cons, List.any_nil, Bool.or_eq_true,
    Bool.and_eq_true, decide_eq_true_eq, Bool.or_false] at h
  omega

/-- White space is in no class of the language but that of blanks. -/
theorem classes_of_isWhiteSpace {c : Char} (h : isWhiteSpace c = true) :
    c ≠ '"' ∧ c.isDigit = false ∧ isWordStart c = false ∧ Mark.ofChar? c = none := by
  have hn := toNat_of_isWhiteSpace h
  refine ⟨?_, ?_, ?_, ?_⟩
  · rintro rfl
    exact absurd h (by decide)
  · rw [← Bool.not_eq_true, isDigit_iff]
    omega
  · rw [← Bool.not_eq_true, isWordStart_iff, isAlpha_iff]
    rintro (hc | rfl)
    · omega
    · exact absurd h (by decide)
  · cases hm : Mark.ofChar? c with
    | none => rfl
    | some m =>
      unfold Mark.ofChar? at hm
      split at hm <;> cases hm <;> exact absurd h (by decide)

namespace Segment

theorem parts_of_isWhiteSpace {c : Char} (h : isWhiteSpace c = true) : Parts c := by
  obtain ⟨-, hd, hs, hm⟩ := classes_of_isWhiteSpace h
  refine ⟨by rw [isWordPart, hs, hd]; rfl, fun hc => ?_⟩
  simp only [List.mem_cons, List.not_mem_nil, or_false] at hc
  rcases hc with rfl | rfl | rfl <;> cases hm

theorem lexical_stray_of_isForeignSpace {c : Char} (h : isForeignSpace c = true) :
    (stray c).Lexical := by
  rw [isForeignSpace, Bool.and_eq_true, Bool.not_eq_true'] at h
  obtain ⟨hquote, hd, hs, hm⟩ := classes_of_isWhiteSpace h.1
  rw [lexical_stray_iff]
  rintro (hc | hc | hc | hc | hc)
  · exact absurd h.2 (by rw [hc]; decide)
  · exact hquote hc
  · exact absurd hd (by rw [hc]; decide)
  · exact absurd hs (by rw [hc]; decide)
  · exact absurd hm (Option.isSome_iff_ne_none.1 hc)

end Segment

/-! ## White space and a text -/

namespace Scan

/-- White space in front of a text makes no token, and is reported where it is no blank. -/
theorem ofSegments_whiteSpace_append {space : List Char}
    (h : ∀ c ∈ space, isWhiteSpace c = true) (hline : '\n' ∉ space) (line : Nat)
    (rest : List Char) :
    ofSegments line (Segment.segments (space ++ rest)) =
      ⟨(ofSegments line (Segment.segments rest)).tokens,
        List.replicate (space.countP isForeignSpace) ⟨.unexpectedCharacter, line⟩ ++
          (ofSegments line (Segment.segments rest)).errors⟩ := by
  induction space with
  | nil => rfl
  | cons c space ih =>
    rw [List.forall_mem_cons] at h
    rw [List.mem_cons, not_or] at hline
    have hrest := ih h.2 hline.2
    rw [List.cons_append]
    by_cases hc : c.isWhitespace = true
    · have hforeign : ¬ isForeignSpace c = true := by simp [isForeignSpace, hc]
      have hc' : '\n' ∉ [c] := by simpa using hline.1
      rw [ofSegments_blank hc, newlines_eq_zero hc', Nat.add_zero, hrest,
        List.countP_cons_of_neg hforeign]
    · have hforeign : isForeignSpace c = true := by simp [isForeignSpace, hc, h.1]
      have hcut : Segment.segments (c :: (space ++ rest)) =
          .stray c :: Segment.segments (space ++ rest) :=
        Segment.segments_append (Segment.lexical_stray_of_isForeignSpace hforeign) trivial
      rw [hcut, ofSegments, hrest, List.countP_cons_of_pos hforeign, List.replicate_succ]
      rfl

section
variable {cs space : List Char} {front : List Segment} (hline : '\n' ∉ space)
include hline

/-- A string left open takes in what comes without a quote. -/
theorem ofSegments_append_of_openString {value : List Char}
    (h : Segment.segments cs = front ++ [.openString value]) (hquote : '"' ∉ space) (line : Nat) :
    ofSegments line (Segment.segments (cs ++ space)) =
      ofSegments line (Segment.segments cs) := by
  have hfront := Segment.forall_lexical_of_segments h
  have hlonger : (Segment.openString (value ++ space)).Lexical :=
    .inl fun hm => (List.mem_append.1 hm).elim (Segment.quote_not_mem_of_segments h) hquote
  have hcut : Segment.segments ('"' :: (value ++ space)) = [.openString (value ++ space)] :=
    Segment.segments_text hlonger
  rw [Segment.segments_append_of_openString h, hcut, h, ofSegments_append hfront,
    ofSegments_append hfront]
  simp only [ofSegments, newlines_append, newlines_eq_zero hline, Nat.add_zero]

/-- A comment takes in what comes without a line feed. -/
theorem ofSegments_append_of_comment {body : List Char}
    (h : Segment.segments cs = front ++ [.comment body]) (line : Nat) :
    ofSegments line (Segment.segments (cs ++ space)) =
      ofSegments line (Segment.segments cs) := by
  have hfront := Segment.forall_lexical_of_segments h
  have hdrop := dropWhile_append_of_stops (forall_bne_of_not_mem hline) stops_nil
  rw [List.append_nil] at hdrop
  rw [Segment.segments_append_of_comment h, h, ofSegments_append hfront, ofSegments_append hfront,
    hdrop, Segment.segments_nil]
  rfl

end

/-- White space behind a text makes no token. It is reported where it is no blank, unless the text
leaves a string or a comment open. -/
theorem ofSegments_append_whiteSpace (cs : List Char) {space : List Char}
    (h : ∀ c ∈ space, isWhiteSpace c = true) (hline : '\n' ∉ space) (line : Nat) :
    ∃ n ≤ space.countP isForeignSpace, ofSegments line (Segment.segments (cs ++ space)) =
      ⟨(ofSegments line (Segment.segments cs)).tokens,
        (ofSegments line (Segment.segments cs)).errors ++
          List.replicate n ⟨.unexpectedCharacter, line + newlines cs⟩⟩ := by
  -- what is open at the end takes the white space in, and nothing is reported
  by_cases hopen : ∃ value, Segment.openString value ∈ Segment.segments cs
  · obtain ⟨value, hvalue⟩ := hopen
    obtain ⟨front, hfront⟩ := Segment.exists_eq_append_openString hvalue
    have hquote : '"' ∉ space := fun hq => (classes_of_isWhiteSpace (h _ hq)).1 rfl
    refine ⟨0, Nat.zero_le _, ?_⟩
    rw [ofSegments_append_of_openString hline hfront hquote, List.replicate_zero, List.append_nil]
  by_cases hlast : ∃ front body, Segment.segments cs = front ++ [.comment body]
  · obtain ⟨front, body, hfront⟩ := hlast
    refine ⟨0, Nat.zero_le _, ?_⟩
    rw [ofSegments_append_of_comment hline hfront, List.replicate_zero, List.append_nil]
  simp only [not_exists] at hopen hlast
  cases space with
  | nil => exact ⟨0, Nat.zero_le _, by simp⟩
  | cons c space =>
    have hcs : ∀ s ∈ Segment.segments cs, s.Lexical := fun _ => Segment.lexical_of_mem_segments
    have hc := Segment.parts_of_isWhiteSpace (h c List.mem_cons_self)
    have hspace := ofSegments_whiteSpace_append h hline (line + newlines cs) []
    rw [List.append_nil, Segment.segments_nil, ofSegments, List.append_nil] at hspace
    refine ⟨_, Nat.le_refl _, ?_⟩
    rw [Segment.segments_append_of_parts hopen hlast hc, ofSegments_append hcs,
      Segment.flatMap_text_segments, hspace, tokens_ofSegments hcs, Segment.flatMap_text_segments,
      followedBy]

/-- **Trimming a line** changes none of its tokens, and of its errors only leaves out unexpected
characters at its ends, no more than there are white space characters that are no blanks. -/
theorem ofText_trim {line : List Char} (h : '\n' ∉ line) :
    ∃ m n, m + n ≤ line.countP isForeignSpace ∧ ofText line = ⟨(ofText (trim line)).tokens,
      List.replicate m ⟨.unexpectedCharacter, 1⟩ ++
        ((ofText (trim line)).errors ++ List.replicate n ⟨.unexpectedCharacter, 1⟩)⟩ := by
  obtain ⟨front, back, hline, hfront, hback⟩ := exists_eq_trim line
  have hfront' : '\n' ∉ front := fun hm => h (by rw [hline]; simp [hm])
  have hback' : '\n' ∉ back := fun hm => h (by rw [hline]; simp [hm])
  have htrim : '\n' ∉ trim line := fun hm => h (mem_of_mem_trim hm)
  obtain ⟨n, hn, heq⟩ := ofSegments_append_whiteSpace (trim line) hback hback' 1
  rw [newlines_eq_zero htrim] at heq
  refine ⟨front.countP isForeignSpace, n, ?_, ?_⟩
  · calc front.countP isForeignSpace + n
        ≤ front.countP isForeignSpace + ((trim line).countP isForeignSpace +
            back.countP isForeignSpace) := by omega
      _ = line.countP isForeignSpace := by
          rw [← List.countP_append, ← List.countP_append, ← hline]
  · conv => lhs; rw [hline]
    rw [ofText_eq_ofSegments, ofText_eq_ofSegments,
      ofSegments_whiteSpace_append hfront hfront', heq]

end Scan

end LoxLexer
