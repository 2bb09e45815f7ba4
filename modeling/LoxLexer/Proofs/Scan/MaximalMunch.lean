import LoxLexer.Proofs.Cursor.Run
import LoxLexer.Proofs.Token.WellFormed
import Mathlib.Logic.ExistsUnique

/-!
# A scan reads off the longest segments

`scan_longest_segments`: a source falls in one way only into segments each of which is the longest
that what is left begins with, and its scan, over characters as over bytes, is what is read off them
in order.

The grammar's `Segment.Leading` and `Segmentation` speak of the longest lexical segment that a text
begins with. It is the one that ends before what follows (`leading_append_iff`), so every text that
is not empty has exactly one (`existsUnique_leading`), and `segments` is the only segmentation of a
text (`segmentation_iff`).
-/

namespace LoxLexer

/-! ## Cutting takes the longest segment -/

namespace Segment

/-- **The longest segment** that a text begins with is the lexical one that ends before the rest. -/
theorem leading_append_iff {s : Segment} {rest : List Char} :
    s.Leading (s.text ++ rest) ↔ s.Lexical ∧ s.EndsBefore rest := by
  refine ⟨fun h => ⟨h.lexical, ?_⟩,
    fun ⟨hs, he⟩ => ⟨hs, List.prefix_append _ _, fun t ht hpre => ?_⟩⟩
  · apply Classical.byContradiction
    intro he
    obtain ⟨t, more, rest', ht, hne, htext, rfl⟩ := exists_longer h.lexical he
    have hle := h.longest t ht (by rw [htext, ← List.append_assoc]; exact List.prefix_append _ _)
    have := List.length_pos_iff.2 hne
    rw [htext, List.length_append] at hle
    omega
  · obtain ⟨more, hmore⟩ := hpre
    obtain ⟨c, cs, hcs⟩ :=
      List.exists_cons_of_ne_nil (l := s.text ++ rest) (by simp [hs.text_ne_nil])
    obtain ⟨u, rest', hu, hue, hpre, hutext⟩ := exists_endsBefore t more ht
    -- both `u` and `s` are what is cut off the text
    have hcut := cut_eq_of_endsBefore hu hue (hutext.trans (hmore.trans hcs))
    rw [cut_eq_of_endsBefore hs he hcs] at hcut
    cases hcut
    exact hpre.length_le

theorem Leading.exists_append {s : Segment} {cs : List Char} (h : s.Leading cs) :
    ∃ rest, cs = s.text ++ rest ∧ s.Lexical ∧ s.EndsBefore rest := by
  obtain ⟨rest, rfl⟩ := h.begins
  exact ⟨rest, rfl, leading_append_iff.1 h⟩

theorem leading_cut (c : Char) (cs : List Char) : (cut c cs).1.Leading (c :: cs) := by
  rw [← text_cut c cs]
  exact leading_append_iff.2 ⟨lexical_cut c cs, endsBefore_cut c cs⟩

theorem Leading.eq_cut {s : Segment} {c : Char} {cs : List Char} (h : s.Leading (c :: cs)) :
    s = (cut c cs).1 := by
  obtain ⟨rest, htext, hs, he⟩ := h.exists_append
  rw [cut_eq_of_endsBefore hs he htext.symm]

/-- The longest segment that a text begins with is the only one of its length. -/
theorem existsUnique_leading {cs : List Char} (h : cs ≠ []) : ∃! s : Segment, s.Leading cs := by
  obtain ⟨c, cs, rfl⟩ := List.exists_cons_of_ne_nil h
  exact ⟨(cut c cs).1, leading_cut c cs, fun t ht => ht.eq_cut⟩

theorem segmentation_segments (cs : List Char) : Segmentation cs (segments cs) := by
  fun_induction segments cs with
  | case1 => exact .nil
  | case2 c cs ih =>
    rw [← text_cut c cs]
    exact .cons (by rw [text_cut]; exact leading_cut c cs) ih

theorem Segmentation.eq_segments {cs : List Char} {ss : List Segment} (h : Segmentation cs ss) :
    ss = segments cs := by
  induction h with
  | nil => exact segments_nil.symm
  | cons hs _ ih =>
    obtain ⟨hl, he⟩ := leading_append_iff.1 hs
    rw [segments_append hl he, ← ih]

/-- **The segmentation of a text** is unique, and cutting finds it. -/
theorem segmentation_iff {cs : List Char} {ss : List Segment} :
    Segmentation cs ss ↔ ss = segments cs :=
  ⟨Segmentation.eq_segments, fun h => h ▸ segmentation_segments cs⟩

end Segment

/-! ## The scan -/

/-- **Maximal munch.** Every text that is not empty begins with exactly one longest segment; the
segmentation of a source by the longest ones exists, is the only one and covers the source; and
scanning reads it off in order, where a word is reserved exactly if it is spelled like a reserved
word. -/
theorem scan_longest_segments (source : String) :
    (∀ cs : List Char, cs ≠ [] → ∃! s : Segment, s.Leading cs) ∧
    (∀ text k, Kind.ofWord text = .keyword k ↔ k.spelling = text) ∧
    (∀ text, Kind.ofWord text = .identifier ↔ ∀ k : Keyword, k.spelling ≠ text) ∧
    ∃ ss, (∀ ts, Segment.Segmentation source.toList ts ↔ ts = ss) ∧
      ss.flatMap Segment.text = source.toList ∧ scan source = Scan.ofSegments 1 ss ∧
      Cursor.scan? source.toList = some (Scan.ofSegments 1 ss) := by
  refine ⟨fun _ => Segment.existsUnique_leading, fun _ _ => Kind.ofWord_eq_keyword_iff,
    fun _ => Kind.ofWord_eq_identifier_iff, Segment.segments source.toList,
    fun _ => Segment.segmentation_iff, Segment.flatMap_text_segments _, ?_, ?_⟩
  · rw [scan, Scan.ofText_eq_ofSegments]
  · rw [Cursor.scan?_eq_ofText, Scan.ofText_eq_ofSegments]

end LoxLexer
