import LoxLexer.Proofs.Binary64.Bits
import LoxLexer.Proofs.Scan.Image
import LoxLexer.Scan
import Mathlib.Data.List.Forall2

/-!
# Equality of scanned tokens

Tokens are compared with their numbers as binary64 numbers, by which a NaN differs from itself and
different numerals can be equal. Among well-formed tokens neither makes a difference: the value is
determined by the lexeme (`WellFormed.content_eq`) and no numeral is read as a NaN
(`isNaN_nearest`). So the tokens of scans are equal exactly when they agree in kind, lexeme and line
(`Scanned.equalLists_iff`), and then they are the same (`Scanned.eq_of_forall₂`).
-/

namespace LoxLexer

/-! ## Numbers -/

namespace Binary64

/-- A number that is no NaN equals itself. -/
theorem equal_self {x : Binary64} (h : x.isNaN = false) : x.equal x = true := by
  simp [equal, h]

end Binary64

/-! ## Tokens -/

namespace Token

/-- Tokens that are read off the same segment have the same content. -/
theorem content_eq_of_item? {s : Segment} {line line' : Nat} {t u : Token}
    (ht : s.item? line = some (.token t)) (hu : s.item? line' = some (.token u)) :
    t.content = u.content := by
  cases s <;> cases ht <;> cases hu <;> rfl

theorem eq_of_content_eq {s t : Token} (h : s.content = t.content) (hline : s.line = t.line) :
    s = t := by
  cases s
  cases t
  cases h
  cases hline
  rfl

namespace WellFormed

/-- Kind and value are determined by the lexeme. -/
theorem content_eq {s t : Token} (hs : s.WellFormed) (ht : t.WellFormed)
    (h : s.lexeme = t.lexeme) : s.content = t.content := by
  obtain ⟨a, ha, hatext, hitem⟩ := hs.exists_segment
  obtain ⟨b, hb, hbtext, hitem'⟩ := ht.exists_segment
  have hab : a = b := ha.eq_of_text_eq hb (by rw [hatext, hbtext, h])
  subst hab
  exact content_eq_of_item? hitem hitem'

theorem equalLiterals_self {t : Token} (h : t.WellFormed) :
    equalLiterals t.literal t.literal = true := by
  cases h with
  | mark | keyword | identifier => rfl
  | number line hd => exact Binary64.equal_self (Binary64.isNaN_nearest _ _)
  | string line hv => simp [equalLiterals, Literal.equal]

end WellFormed

/-! ## Tokens of a scan -/

/-- What a scan can give: a well-formed token, or the end of the source. -/
def Scanned (t : Token) : Prop := t.WellFormed ∨ ∃ line, t = eof line

theorem SequenceFrom.scanned_of_mem {line : Nat} {ts : List Token} (h : SequenceFrom line ts)
    {t : Token} (ht : t ∈ ts) : t.Scanned := by
  induction h with
  | @eof line last _ => exact .inr ⟨last, List.mem_singleton.1 ht⟩
  | cons hw _ _ ih =>
    rcases List.mem_cons.1 ht with rfl | ht
    · exact .inl hw
    · exact ih ht

theorem scanned_of_mem_scan {source : String} {t : Token} (h : t ∈ (scan source).tokens) :
    t.Scanned := by
  rw [scan_eq_ofSegments] at h
  exact (sequenceFrom_tokens (fun _ => Segment.lexical_of_mem_segments) 1).scanned_of_mem h

/-- The same kind, lexeme and line, whatever the values. -/
def Agree (s t : Token) : Prop := s.kind = t.kind ∧ s.lexeme = t.lexeme ∧ s.line = t.line

theorem agree_of_equal {s t : Token} (h : s.equal t = true) : s.Agree t := by
  simp only [equal, Bool.and_eq_true, beq_iff_eq] at h
  obtain ⟨⟨⟨hkind, hlexeme⟩, -⟩, hline⟩ := h
  exact ⟨hkind, hlexeme, hline⟩

namespace Scanned

/-- **Scanned tokens that agree** are the same. -/
theorem eq_of_agree {s t : Token} (hs : s.Scanned) (ht : t.Scanned) (h : s.Agree t) : s = t := by
  obtain ⟨hkind, hlexeme, hline⟩ := h
  rcases hs with hs | ⟨line, rfl⟩ <;> rcases ht with ht | ⟨line', rfl⟩
  · exact eq_of_content_eq (hs.content_eq ht hlexeme) hline
  · exact absurd hkind hs.kind_ne_eof
  · exact absurd hkind.symm ht.kind_ne_eof
  · exact congrArg eof hline

theorem equal_self {t : Token} (h : t.Scanned) : t.equal t = true := by
  have hliterals : equalLiterals t.literal t.literal = true := by
    rcases h with h | ⟨line, rfl⟩
    · exact h.equalLiterals_self
    · rfl
  simp [equal, hliterals]

/-- **Lists of scanned tokens are equal** exactly when they agree token by token. -/
theorem equalLists_iff {ts us : List Token} (hts : ∀ t ∈ ts, t.Scanned)
    (hus : ∀ u ∈ us, u.Scanned) : equalLists ts us = true ↔ List.Forall₂ Agree ts us := by
  induction ts generalizing us with
  | nil => cases us <;> simp [equalLists]
  | cons t ts ih =>
    obtain _ | ⟨u, us⟩ := us
    · simp [equalLists]
    · rw [List.forall_mem_cons] at hts hus
      have hequal : t.equal u = true ↔ t.Agree u := by
        refine ⟨agree_of_equal, fun h => ?_⟩
        obtain rfl := hts.1.eq_of_agree hus.1 h
        exact hts.1.equal_self
      rw [equalLists, Bool.and_eq_true, List.forall₂_cons, hequal, ih hts.2 hus.2]

theorem eq_of_forall₂ {ts us : List Token} (hts : ∀ t ∈ ts, t.Scanned)
    (hus : ∀ u ∈ us, u.Scanned) (h : List.Forall₂ Agree ts us) : ts = us := by
  induction h with
  | nil => rfl
  | cons hagree _ ih =>
    rw [List.forall_mem_cons] at hts hus
    rw [hts.1.eq_of_agree hus.1 hagree, ih hts.2 hus.2]

end Scanned

theorem forall₂_agree_refl (ts : List Token) : List.Forall₂ Agree ts ts := by
  induction ts with
  | nil => exact .nil
  | cons t ts ih => exact .cons ⟨rfl, rfl, rfl⟩ ih

end Token

end LoxLexer
