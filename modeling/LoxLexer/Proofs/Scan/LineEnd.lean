import LoxLexer.Proofs.Scan.Reading
import LoxLexer.Proofs.Segment.Row
import LoxLexer.Scan.Edit

/-!
# Line ends make no difference

`scan_crlf`: with a carriage return before each line feed, a source scans to the same tokens and
diagnostics on the same lines, and only in the texts of strings are the line ends seen.

A segment other than a comment ends where it did (`EndsBefore.crlf`), and a line feed that is a
blank becomes two blanks. A comment takes in the carriage return before the line feed that ends it,
so the segments behind it are cut off a text that begins with the line feed alone.
-/

namespace LoxLexer

/-! ## Characters -/

theorem crlf_cons (c : Char) (cs : List Char) :
    crlf (c :: cs) = (if c = '\n' then ['\r', '\n'] else [c]) ++ crlf cs := rfl

theorem crlf_eq_self {cs : List Char} (h : newlines cs = 0) : crlf cs = cs := by
  induction cs with
  | nil => rfl
  | cons c cs ih =>
    obtain ⟨hc, hcs⟩ : c ≠ '\n' ∧ newlines cs = 0 := by
      rw [newlines_cons] at h
      split at h <;> simp_all
    rw [crlf_cons, if_neg hc, ih hcs]
    rfl

theorem not_mem_crlf {c : Char} {cs : List Char} (h : c ∉ cs) (hc : c ∉ ['\r', '\n']) :
    c ∉ crlf cs := by
  intro hmem
  obtain ⟨d, hd, hcd⟩ := List.mem_flatMap.1 hmem
  split at hcd
  · exact hc hcd
  · exact h (List.mem_singleton.1 hcd ▸ hd)

theorem head?_crlf (cs : List Char) :
    (crlf cs).head? = cs.head?.map fun c => if c = '\n' then '\r' else c := by
  cases cs with
  | nil => rfl
  | cons c cs =>
    rw [crlf_cons]
    split <;> simp [*]

theorem Stops.crlf {p : Char → Bool} {cs : List Char} (h : Stops p cs) (hp : p '\r' = false) :
    Stops p (crlf cs) := by
  cases cs with
  | nil => exact h
  | cons c cs =>
    rw [crlf_cons]
    split
    · exact stops_cons.2 hp
    · exact stops_cons.2 (stops_cons.1 h)

/-! ## Segments -/

namespace Segment

/-- The segment with the line ends of its text changed. Only strings can hold any. -/
def crlf : Segment → Segment
  | string value => string (LoxLexer.crlf value)
  | openString value => openString (LoxLexer.crlf value)
  | s => s

theorem lexical_crlf {s : Segment} (hs : s.Lexical) : s.crlf.Lexical := by
  have hquote {value : List Char} (h : '"' ∉ value) : '"' ∉ LoxLexer.crlf value :=
    not_mem_crlf h (by decide)
  cases s with
  | string value | openString value =>
    rcases hs with hs | ⟨_, h, -⟩
    · exact .inl (hquote hs)
    · cases h
  | mark m | blank c | comment body | number digits | word letters | stray c => exact hs

theorem text_crlf {s : Segment} (hs : s.Lexical) (hfeed : s ≠ blank '\n') :
    s.crlf.text = LoxLexer.crlf s.text := by
  cases s with
  | string value => simp [crlf, text, crlf_cons]
  | openString value => simp [crlf, text, crlf_cons]
  | mark m | blank c | comment body | number digits | word letters | stray c =>
    exact (crlf_eq_self (newlines_text_eq_zero hs hfeed (by simp) (by simp))).symm

/-- **A segment ends where it did** when the line ends change, if it is no comment. -/
theorem EndsBefore.crlf {s : Segment} {rest : List Char} (he : s.EndsBefore rest)
    (hcomment : ∀ body, s ≠ comment body) : s.crlf.EndsBefore (LoxLexer.crlf rest) := by
  have hhead {d : Char} (hd : d ≠ '\r') (hrest : rest.head? ≠ some d) :
      (LoxLexer.crlf rest).head? ≠ some d := by
    rw [head?_crlf]
    intro h
    obtain ⟨c, hc, hcd⟩ := Option.map_eq_some_iff.1 h
    split at hcd
    · exact hd hcd.symm
    · exact hrest (hcd ▸ hc)
  cases s with
  | mark m => exact ⟨fun hm => hhead (by decide) (he.1 hm), fun hm => hhead (by decide) (he.2 hm)⟩
  | comment body => exact absurd rfl (hcomment body)
  | number digits =>
    refine ⟨Stops.crlf he.1 (by decide), fun hp tail htail => ?_⟩
    cases rest with
    | nil => cases htail
    | cons c rest =>
      rw [crlf_cons] at htail
      split at htail
      · cases htail
      · cases htail
        exact Stops.crlf (he.2 hp rest rfl) (by decide)
  | word letters => exact Stops.crlf he (by decide)
  | openString value =>
    obtain rfl : rest = [] := he
    rfl
  | blank c | string value | stray c => trivial

end Segment

def Item.crlf : Item → Item
  | token t => token t.crlf
  | diagnostic d => diagnostic d

/-- What a segment is read as changes by its line ends only. -/
theorem Segment.item?_crlf {s : Segment} (hs : s.Lexical) (line : Nat) :
    s.crlf.item? line = (s.item? line).map Item.crlf := by
  have hkeep {t : Token} (hlexeme : newlines t.lexeme.toList = 0)
      (hliteral : t.literal.map Literal.crlf = t.literal) : t.crlf = t := by
    rw [Token.crlf, crlf_eq_self hlexeme, hliteral, String.ofList_toList]
  have hnewlines := newlines_text_eq_zero hs
  cases s with
  | mark m | number digits | word letters =>
    refine congrArg (fun t => some (Item.token t)) (hkeep ?_ rfl).symm
    rw [String.toList_ofList]
    exact hnewlines (by simp) (by simp) (by simp)
  | string value =>
    simp [Segment.item?, Segment.crlf, Item.crlf, Token.crlf, Literal.crlf, text, crlf_cons]
  | openString value | blank c | comment body | stray c => rfl

namespace Scan

/-- The scan with the line ends in its tokens changed. -/
def crlf (s : Scan) : Scan := ⟨s.tokens.map Token.crlf, s.errors⟩

theorem crlf_consOption (item : Option Item) (s : Scan) :
    (s.consOption item).crlf = s.crlf.consOption (item.map Item.crlf) := by
  rcases item with _ | _ | _ <;> rfl

open Segment in
/-- A comment takes in the carriage return before the line feed that it ends at, and of the two
blanks one is left. -/
theorem ofSegments_crlf_comment {body rest : List Char} (hs : (comment body).Lexical)
    (h : Stops (· != '\n') rest) (line : Nat) :
    ofSegments line (segments ((comment body).text ++ LoxLexer.crlf rest)) =
      ofSegments line (segments (LoxLexer.crlf rest)) := by
  have halone : segments (comment body).text = [] ++ [comment body] := segments_text hs
  rw [segments_append_of_comment halone, List.nil_append, ofSegments]
  cases rest with
  | nil => rfl
  | cons c rest =>
    obtain rfl : c = '\n' := by simpa using h
    exact (ofSegments_blank (c := '\r') (by decide) line ('\n' :: LoxLexer.crlf rest)).symm

open Segment in
/-- **Other line ends**: what is read off a row of segments when their line ends change. -/
theorem ofSegments_crlf {ss : List Segment} (h : Row [] ss) (line : Nat) :
    ofSegments line (segments (LoxLexer.crlf (ss.flatMap text))) = (ofSegments line ss).crlf := by
  induction h generalizing line with
  | nil => rw [List.flatMap_nil, crlf_nil, segments_nil]; rfl
  | @cons s ss hs he _ ih =>
    rw [List.append_nil] at he
    rw [List.flatMap_cons, crlf_append, ofSegments_cons hs, crlf_consOption, ← item?_crlf hs, ← ih]
    by_cases hcomment : ∃ body, s = comment body
    · obtain ⟨body, rfl⟩ := hcomment
      have hlines : newlines (comment body).text = 0 :=
        newlines_text_eq_zero hs (by simp) (by simp) (by simp)
      rw [crlf_eq_self hlines, ofSegments_crlf_comment hs he, hlines]
      rfl
    by_cases hfeed : s = blank '\n'
    · subst hfeed
      have hreturn := ofSegments_blank (c := '\r') (by decide) line
        ('\n' :: LoxLexer.crlf (ss.flatMap text))
      exact hreturn.trans (ofSegments_blank (by decide) line _)
    · have hcut := segments_append (lexical_crlf hs) (he.crlf (not_exists.1 hcomment))
      rw [← text_crlf hs hfeed, hcut, ofSegments_cons (lexical_crlf hs), text_crlf hs hfeed,
        newlines_crlf]

end Scan

/-- **Line ends**: with a carriage return before each line feed, a source scans to the same kinds of
token with the same numbers, on the same lines, and to the same diagnostics, and what changes in
lexemes and in the values of strings is that carriage returns come before their line feeds. -/
theorem scan_crlf (source : String) :
    scan (String.ofList (crlf source.toList)) =
      ⟨(scan source).tokens.map Token.crlf, (scan source).errors⟩ := by
  have h := Scan.ofSegments_crlf (Segment.row_segments source.toList) 1
  rw [Segment.flatMap_text_segments, ← scan_eq_ofSegments] at h
  rw [scan_eq_ofSegments, String.toList_ofList, h]
  rfl

end LoxLexer
