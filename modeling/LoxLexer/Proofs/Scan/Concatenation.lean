import LoxLexer.Proofs.Scan.Composition
import LoxLexer.Proofs.Token.Adjacency
import Mathlib.Data.List.Flatten

/-!
# Lexemes with nothing between them

`scan_join_iff`: lexemes written one right after the other are read back exactly if no two and no
three neighbours among them fuse.

The tokens of a scan are read off those segments that are neither blank nor fault
(`map_lexeme_body`), so if their lexemes make up the whole source, there is nothing else in it
(`filter_isToken_eq_self`), and the segments of the source are those of the lexemes one by one. Then
it is a question of where the lexemes end, which `Segment.row_iff_standAlone` answers.
-/

namespace LoxLexer

/-- The text scans by itself to one token, which it is the lexeme of, and without a diagnostic. -/
def IsLexeme (x : String) : Prop := (scan x).errors = [] ∧ (scan x).body.map Token.lexeme = [x]

instance (x : String) : Decidable (IsLexeme x) := inferInstanceAs (Decidable (_ ∧ _))

/-- The tokens of texts that are scanned one by one, without the ends of the texts. -/
def scanEach (texts : List String) : List Token := texts.flatMap fun x => (scan x).body

/-! ## Sources of tokens alone -/

namespace Segment

def isToken : Segment → Bool
  | mark _ | string _ | number _ | word _ => true
  | _ => false

/-- If the segments that are tokens have all the text, there are no others. -/
theorem filter_isToken_eq_self {ss : List Segment} (h : ∀ s ∈ ss, s.Lexical)
    (htext : (ss.filter isToken).flatMap text = ss.flatMap text) : ss.filter isToken = ss := by
  induction ss with
  | nil => rfl
  | cons s ss ih =>
    by_cases hs : s.isToken = true
    · rw [List.filter_cons_of_pos hs] at htext ⊢
      rw [List.flatMap_cons, List.flatMap_cons, List.append_cancel_left_eq] at htext
      rw [ih (fun t ht => h t (List.mem_cons_of_mem s ht)) htext]
    · rw [List.filter_cons_of_neg hs, List.flatMap_cons] at htext
      have hsub : List.Sublist ((ss.filter isToken).flatMap text) (ss.flatMap text) :=
        List.filter_sublist.flatMap text
      have hpos := List.length_pos_iff.2 (h s List.mem_cons_self).text_ne_nil
      have hle := hsub.length_le
      rw [htext, List.length_append] at hle
      omega

/-- Each segment is cut off its own text. -/
theorem flatMap_segments_text {ss : List Segment} (h : ∀ s ∈ ss, s.Lexical) :
    ss.flatMap (fun s => segments s.text) = ss := by
  induction ss with
  | nil => rfl
  | cons s ss ih =>
    rw [List.flatMap_cons, segments_text (h s List.mem_cons_self),
      ih fun t ht => h t (List.mem_cons_of_mem s ht)]
    rfl

/-- The line that a segment ends on makes no difference to its token but for that line. -/
theorem exists_item?_of_item? {s : Segment} {line : Nat} {t : Token}
    (h : s.item? line = some (.token t)) (line' : Nat) :
    ∃ t', s.item? line' = some (.token t') ∧ t'.content = t.content := by
  cases s <;> cases h <;> exact ⟨_, rfl, rfl⟩

end Segment

namespace Scan

theorem body_consOption {s : Scan} (hs : s.tokens ≠ []) (item : Option Item) :
    (s.consOption item).body = (item.bind Item.token?).toList ++ s.body := by
  rw [body, tokens_consOption, List.dropLast_append_of_ne_nil hs]
  rfl

theorem tokens_ofSegments_ne_nil (line : Nat) (ss : List Segment) :
    (ofSegments line ss).tokens ≠ [] := by
  induction ss generalizing line with
  | nil => simp [ofSegments]
  | cons s ss ih => cases s <;> simp [ofSegments, cons, ih]

theorem body_ofSegments_cons {s : Segment} (hs : s.Lexical) (line : Nat) (ss : List Segment) :
    (ofSegments line (s :: ss)).body =
      ((s.item? (line + newlines s.text)).bind Item.token?).toList ++
        (ofSegments (line + newlines s.text) ss).body := by
  rw [ofSegments_cons hs, body_consOption (tokens_ofSegments_ne_nil _ ss)]

/-- The lexemes of a scan are the texts of those segments that are tokens. -/
theorem map_lexeme_body {ss : List Segment} (h : ∀ s ∈ ss, s.Lexical) (line : Nat) :
    (ofSegments line ss).body.map (fun t => t.lexeme.toList) =
      (ss.filter Segment.isToken).map Segment.text := by
  induction ss generalizing line with
  | nil => rfl
  | cons s ss ih =>
    rw [body_ofSegments_cons (h s List.mem_cons_self), List.map_append,
      ih fun t ht => h t (List.mem_cons_of_mem s ht)]
    cases s <;> simp [Segment.item?, Segment.isToken, Item.token?, List.filter_cons]

/-- What tokens are read off segments on whichever lines, except for those lines. -/
theorem ofSegments_of_reads {ss : List Segment} {ts : List Token}
    (h : List.Forall₂ Segment.Reads ss ts) (line : Nat) :
    (ofSegments line ss).errors = [] ∧
      (ofSegments line ss).body.map Token.content = ts.map Token.content := by
  induction h generalizing line with
  | nil => exact ⟨rfl, rfl⟩
  | @cons s t ss ts hs hss ih =>
    obtain ⟨herrors, hbody⟩ := ih (line + newlines s.text)
    obtain ⟨hs, line', ht⟩ := hs
    obtain ⟨t', ht', hcontent⟩ := Segment.exists_item?_of_item? ht (line + newlines s.text)
    rw [body_ofSegments_cons hs, ofSegments_cons hs, errors_consOption, herrors, List.map_append,
      hbody, ht']
    exact ⟨rfl, congrArg (· :: _) hcontent⟩

end Scan

/-! ## Lexemes one by one -/

/-- The segments of texts that are cut one by one make up the texts one after the other. -/
theorem flatMap_text_flatMap_segments (texts : List String) :
    (texts.flatMap fun x => Segment.segments x.toList).flatMap Segment.text =
      (String.join texts).toList := by
  rw [List.flatMap_assoc, String.toList_join]
  simp only [Segment.flatMap_text_segments]

/-- If lexemes with nothing between them are read back, the source is cut into them. -/
theorem map_text_segments_of_body {lexemes : List String}
    (h : (scan (String.join lexemes)).body.map Token.lexeme = lexemes) :
    (Segment.segments (String.join lexemes).toList).map Segment.text =
      lexemes.map String.toList := by
  have hlexical : ∀ s ∈ Segment.segments (String.join lexemes).toList, s.Lexical :=
    fun _ => Segment.lexical_of_mem_segments
  have hbody := Scan.map_lexeme_body hlexical 1
  have hlexemes : (scan (String.join lexemes)).body.map (fun t => t.lexeme.toList) =
      lexemes.map String.toList := by
    conv_rhs => rw [← h, List.map_map]
    rfl
  rw [← scan_eq_ofSegments, hlexemes] at hbody
  have htext : ((Segment.segments (String.join lexemes).toList).filter Segment.isToken).flatMap
      Segment.text = (Segment.segments (String.join lexemes).toList).flatMap Segment.text := by
    rw [List.flatMap_def, ← hbody, Segment.flatMap_text_segments, String.toList_join,
      List.flatMap_def]
  rw [hbody, Segment.filter_isToken_eq_self hlexical htext]

/-- If lexemes with nothing between them are read back, the source is cut as they are one by one. -/
theorem segments_join_of_body {lexemes : List String}
    (h : (scan (String.join lexemes)).body.map Token.lexeme = lexemes) :
    Segment.segments (String.join lexemes).toList =
      lexemes.flatMap fun x => Segment.segments x.toList := by
  rw [← Segment.flatMap_segments_text (fun _ => Segment.lexical_of_mem_segments),
    ← List.flatMap_map, map_text_segments_of_body h, List.flatMap_map]

/-- A lexeme is the text of one segment, and its token is read off that. -/
theorem IsLexeme.exists_reads {x : String} (h : IsLexeme x) :
    ∃ s t, Segment.segments x.toList = [s] ∧ (scan x).body = [t] ∧ s.Reads t := by
  obtain ⟨-, hbody⟩ := h
  have hjoin : String.join [x] = x := by simp
  have hback : (scan (String.join [x])).body.map Token.lexeme = [x] := by rw [hjoin, hbody]
  have htext := map_text_segments_of_body hback
  rw [hjoin] at htext
  obtain ⟨s, hs, -⟩ := List.map_eq_singleton_iff.1 htext
  have hlexical : s.Lexical := by
    have hmem : s ∈ Segment.segments x.toList := by simp [hs]
    exact Segment.lexical_of_mem_segments hmem
  have hscan : (scan x).body = ((s.item? (1 + newlines s.text)).bind Item.token?).toList := by
    rw [scan_eq_ofSegments, hs, Scan.body_ofSegments_cons hlexical]
    exact List.append_nil _
  rw [hscan] at hbody ⊢
  cases hitem : s.item? (1 + newlines s.text) with
  | none => simp [hitem] at hbody
  | some item =>
    cases item with
    | token t => exact ⟨s, t, hs, rfl, hlexical, _, hitem⟩
    | diagnostic d => simp [hitem, Item.token?] at hbody

/-- The segments of lexemes that are cut one by one, and what is read off them. -/
theorem reads_scanEach {lexemes : List String} (h : ∀ x ∈ lexemes, IsLexeme x) :
    List.Forall₂ Segment.Reads (lexemes.flatMap fun x => Segment.segments x.toList)
      (scanEach lexemes) := by
  induction lexemes with
  | nil => exact .nil
  | cons x lexemes ih =>
    obtain ⟨s, t, hs, ht, hreads⟩ := (h x List.mem_cons_self).exists_reads
    have hrest := ih fun y hy => h y (List.mem_cons_of_mem x hy)
    rw [scanEach, List.flatMap_cons, List.flatMap_cons, hs, ht]
    exact .cons hreads hrest

theorem map_lexeme_scanEach {lexemes : List String} (h : ∀ x ∈ lexemes, IsLexeme x) :
    (scanEach lexemes).map Token.lexeme = lexemes := by
  induction lexemes with
  | nil => rfl
  | cons x lexemes ih =>
    have hrest := ih fun y hy => h y (List.mem_cons_of_mem x hy)
    rw [scanEach, List.flatMap_cons, List.map_append, (h x List.mem_cons_self).2]
    exact congrArg (x :: ·) hrest

/-- **Lexemes with nothing between them** are read back, with their kinds and values and without a
diagnostic, exactly if no two and no three neighbours among them fuse. -/
theorem scan_join_iff (lexemes : List String) (h : ∀ x ∈ lexemes, IsLexeme x) :
    (scanEach lexemes).map Token.lexeme = lexemes ∧
    ((scan (String.join lexemes)).errors = [] ∧
        (scan (String.join lexemes)).body.map Token.content =
          (scanEach lexemes).map Token.content ↔
      (∀ x y, [x, y] <:+: scanEach lexemes → x.fuses y = false) ∧
        ∀ x y z, [x, y, z] <:+: scanEach lexemes → x.fusesAtPoint y z = false) := by
  have hreads := reads_scanEach h
  have hlexemes := map_lexeme_scanEach h
  refine ⟨hlexemes, ?_⟩
  rw [← Token.standAlone_iff, ← Segment.row_iff_standAlone hreads]
  constructor
  · rintro ⟨-, hbody⟩
    have hback : (scan (String.join lexemes)).body.map Token.lexeme = lexemes := by
      have := congrArg (List.map fun content => content.2.1) hbody
      rw [List.map_map, List.map_map] at this
      exact this.trans hlexemes
    rw [← segments_join_of_body hback]
    exact Segment.row_segments _
  · intro hrow
    have hsegments := hrow.segments_eq
    rw [Segment.segments_nil, List.append_nil, List.append_nil,
      flatMap_text_flatMap_segments] at hsegments
    rw [scan_eq_ofSegments, hsegments]
    exact Scan.ofSegments_of_reads hreads 1

/-- A point between a number that has one already and another, and three equals signs in two
marks. -/
theorem scan_join_iff_point :
    (∀ x ∈ ["1.5", ".", "2", "==", "=", "\"=\"", "or"], IsLexeme x) ∧
    (scanEach ["1.5", ".", "2", "==", "=", "\"=\"", "or"]).map Token.lexeme =
      ["1.5", ".", "2", "==", "=", "\"=\"", "or"] ∧
    ((scan (String.join ["1.5", ".", "2", "==", "=", "\"=\"", "or"])).errors = [] ∧
        (scan (String.join ["1.5", ".", "2", "==", "=", "\"=\"", "or"])).body.map Token.content =
          (scanEach ["1.5", ".", "2", "==", "=", "\"=\"", "or"]).map Token.content ↔
      (∀ x y, [x, y] <:+: scanEach ["1.5", ".", "2", "==", "=", "\"=\"", "or"] →
          x.fuses y = false) ∧
        ∀ x y z, [x, y, z] <:+: scanEach ["1.5", ".", "2", "==", "=", "\"=\"", "or"] →
          x.fusesAtPoint y z = false) :=
  have hlexemes : ∀ x ∈ ["1.5", ".", "2", "==", "=", "\"=\"", "or"], IsLexeme x := by
    decide +kernel
  ⟨hlexemes, scan_join_iff ["1.5", ".", "2", "==", "=", "\"=\"", "or"] hlexemes⟩

/-- With no point yet in the first number, the three are one. -/
example : Token.standAlone (scanEach ["1", ".", "2"]) = false ∧
    (scan (String.join ["1", ".", "2"])).body.map Token.lexeme = ["1.2"] := by
  decide +kernel

end LoxLexer
