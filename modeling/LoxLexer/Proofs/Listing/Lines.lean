import LoxLexer.Listing
import LoxLexer.Proofs.Listing.Decoding
import LoxLexer.Proofs.Text.Cut
import LoxLexer.Proofs.Token.Number
import Mathlib.Algebra.BigOperators.Ring.List

/-!
# Listings line by line

`line_per_token_iff`: the listing of a scan has one line for each token exactly if no token spans
lines. `gutters_show_lines`: any tokens without line feeds have one line each, and the gutters show
the lines that they are on.

* `length_lines_tokenListing`, `hasLinePerToken_iff`: lexemes and values stand in a listing as they
  are, so each line feed in them ends a line there. Of a number's text and the name of a kind there
  is none.
* `Token.Scanned.valueHeight_eq`: a scanned token has as many line feeds in its value as in its
  lexeme.
* `linesShown?_rowsBelow`, `gutter_eq_bar_iff`: gutters are read from the top, with the line of the
  token above as the state, and the bar is where that line does not change.
-/

namespace LoxLexer

/-! ## Line feeds in the texts of tokens -/

theorem Binary64.newlines_text (x : Binary64) : newlines x.text = 0 := by
  have hsign : newlines (if x.isNegative then ['-'] else []) = 0 := by split <;> rfl
  cases hnan : x.isNaN with
  | true =>
    have htext : x.text = "NaN".toList := by simp [text, hnan]
    rw [htext]
    decide
  | false =>
    cases hinfinite : x.isInfinite with
    | true =>
      have htext : x.text = (if x.isNegative then ['-'] else []) ++ "inf".toList := by
        simp [text, hnan, hinfinite]
      rw [htext, newlines_append, hsign]
      decide
    | false =>
      have hx := isFinite_of_not hnan hinfinite
      obtain ⟨whole, fraction, htext, hwhole, hfraction, -⟩ :=
        Decimal.text_of_places_pos (decimal_spec hx).2
      have hnumeral : IsNumeral x.decimal.text := .inr ⟨whole, fraction, hwhole, hfraction, htext⟩
      rw [text_eq hx, newlines_append, hsign, hnumeral.newlines_eq]

theorem Kind.newlines_name (k : Kind) : newlines k.name.toList = 0 := by
  cases k with
  | mark m => cases m <;> decide
  | keyword k => cases k <;> decide +kernel
  | identifier | string | number | eof => decide

namespace Token

/-- The line feeds in the value. -/
def valueHeight (t : Token) : Nat :=
  match t.literal with
  | some (.string value) => newlines value.toList
  | _ => 0

theorem newlines_text (t : Token) : newlines t.text.toList = t.height + t.valueHeight := by
  have hvalue : newlines ((t.literal.map Literal.text).getD "null").toList = t.valueHeight := by
    rw [valueHeight]
    rcases t.literal with _ | _ | x
    · decide
    · rfl
    · rw [Option.map_some, Option.getD_some, Literal.text, String.toList_ofList, x.newlines_text]
  rw [toList_text, newlines_append, newlines_cons, newlines_append, newlines_cons, hvalue,
    Kind.newlines_name, height]
  simp

theorem newline_not_mem_text_iff {t : Token} : '\n' ∉ t.text.toList ↔
    '\n' ∉ t.lexeme.toList ∧
      ∀ value, t.literal = some (.string value) → '\n' ∉ value.toList := by
  have hvalue : t.valueHeight = 0 ↔
      ∀ value, t.literal = some (.string value) → '\n' ∉ value.toList := by
    rw [valueHeight]
    rcases t.literal with _ | value | x <;> simp [newlines_eq_zero_iff]
  rw [← hvalue, ← newlines_eq_zero_iff, ← newlines_eq_zero_iff, newlines_text, ← height,
    Nat.add_eq_zero_iff]

/-- A scanned token's value has the line feeds of its lexeme. -/
theorem Scanned.valueHeight_eq {t : Token} (h : t.Scanned) : t.valueHeight = t.height := by
  rcases h with h | ⟨line, rfl⟩
  · cases h with
    | mark m => exact m.newlines_spelling.symm
    | keyword k => exact k.isWord_spelling.newlines_eq.symm
    | identifier line hl => simp [valueHeight, height, hl.newlines_eq]
    | number line hd => simp [valueHeight, height, hd.newlines_eq]
    | string line hv => simp [valueHeight, height, newlines_cons]
  · rfl

end Token

/-! ## Rows -/

namespace Listing

theorem newlines_gutter (previous : Option Nat) (line : Nat) :
    newlines (gutter previous line).toList = 0 := by
  rw [gutter]
  split
  · decide
  · refine newlines_eq_zero ?_
    rw [toList_lineGutter]
    intro hmem
    simp only [List.mem_append, List.mem_replicate, List.mem_singleton] at hmem
    rcases hmem with ⟨-, hc⟩ | hc | hc
    · exact absurd hc (by decide)
    · exact absurd (isDigit_of_mem_toDigits hc) (by decide)
    · exact absurd hc (by decide)

theorem length_lines_ofRows (rows : List String) : (lines (ofRows rows)).length =
    rows.length + (rows.map fun row => newlines row.toList).sum := by
  induction rows with
  | nil => rfl
  | cons row rows ih =>
    rw [lines] at ih ⊢
    rw [toList_ofRows_cons, length_cutAfter_append_cons, ih, List.length_cons, List.map_cons,
      List.sum_cons, newlines]
    omega

theorem lines_ofRows {rows : List String} (h : ∀ row ∈ rows, '\n' ∉ row.toList) :
    lines (ofRows rows) = rows.map fun row => row.toList ++ ['\n'] := by
  induction rows with
  | nil => rfl
  | cons row rows ih =>
    rw [List.forall_mem_cons] at h
    rw [lines] at ih ⊢
    rw [toList_ofRows_cons, cutAfter_append_cons h.1, ih h.2, List.map_cons]

theorem newlines_rowsBelow (previous : Option Nat) (tokens : List Token) :
    (rowsBelow previous tokens).map (fun row => newlines row.toList) =
      tokens.map fun t => newlines t.text.toList := by
  induction tokens generalizing previous with
  | nil => rfl
  | cons t tokens ih =>
    rw [rowsBelow, List.map_cons, List.map_cons, ih, String.toList_append, newlines_append,
      newlines_gutter, Nat.zero_add]

theorem length_rowsBelow (previous : Option Nat) (tokens : List Token) :
    (rowsBelow previous tokens).length = tokens.length := by
  induction tokens generalizing previous with
  | nil => rfl
  | cons t tokens ih => rw [rowsBelow, List.length_cons, List.length_cons, ih]

theorem getElem?_rowsBelow (previous : Option Nat) (tokens : List Token) (i : Nat) :
    (rowsBelow previous tokens)[i]? =
      tokens[i]?.map fun t => gutter (lineAbove? previous tokens i) t.line ++ t.text := by
  induction tokens generalizing previous i with
  | nil => rfl
  | cons t tokens ih =>
    cases i with
    | zero => rfl
    | succ i =>
      rw [rowsBelow, List.getElem?_cons_succ, List.getElem?_cons_succ, ih]
      cases i <;> rfl

/-- A line feed in a token's text ends a line of the listing, and so does that behind it. -/
theorem length_lines_tokenListing (tokens : List Token) :
    (lines (tokenListing tokens)).length =
      tokens.length + (tokens.map fun t => newlines t.text.toList).sum := by
  rw [tokenListing, length_lines_ofRows, rows, length_rowsBelow, newlines_rowsBelow]

/-- The rows of tokens without line feeds in their texts are the lines of the listing. -/
theorem lines_tokenListing {tokens : List Token} (h : ∀ t ∈ tokens, '\n' ∉ t.text.toList) :
    lines (tokenListing tokens) = (rows tokens).map fun row => row.toList ++ ['\n'] := by
  refine lines_ofRows fun row hrow => ?_
  have hmem : newlines row.toList ∈ (rows tokens).map fun row => newlines row.toList :=
    List.mem_map_of_mem hrow
  rw [rows, newlines_rowsBelow, List.mem_map] at hmem
  obtain ⟨t, ht, hcount⟩ := hmem
  rw [newlines_eq_zero (h t ht)] at hcount
  exact newlines_eq_zero_iff.1 hcount.symm

/-- **A listing has a line for each token** exactly if there is no line feed in their texts. -/
theorem hasLinePerToken_iff {tokens : List Token} :
    HasLinePerToken tokens ↔ ∀ t ∈ tokens, '\n' ∉ t.text.toList := by
  constructor
  · rintro ⟨hlength, -⟩ t ht hmem
    rw [length_lines_tokenListing] at hlength
    -- no line is left for a line feed in a token
    have hle : newlines t.text.toList ≤ (tokens.map fun t => newlines t.text.toList).sum :=
      List.le_sum_of_mem (List.mem_map_of_mem ht)
    have hpos : 0 < newlines t.text.toList := List.count_pos_iff.2 hmem
    omega
  · intro h
    have hlines := lines_tokenListing h
    refine ⟨?_, fun i t hi => ?_⟩
    · rw [hlines, List.length_map, rows, length_rowsBelow]
    · rw [hlines, List.getElem?_map, rows, getElem?_rowsBelow, hi]
      simp

/-- Lines of tokens below a token on the previous line show the lines that the tokens are on. -/
theorem linesShown?_rowsBelow (previous : Option Nat) (tokens : List Token) (rest : List Char) :
    linesShown? previous ((rowsBelow previous tokens).map fun row => row.toList ++ rest) =
      some (tokens.map Token.line) := by
  induction tokens generalizing previous with
  | nil => rfl
  | cons t tokens ih =>
    rw [rowsBelow, List.map_cons, linesShown?, String.toList_append, List.append_assoc,
      lineShown?_gutter, Option.bind_eq_bind, Option.bind_some, ih]
    rfl

/-- The bar is the gutter of a token on the line of the token above. -/
theorem gutter_eq_bar_iff {previous : Option Nat} {line : Nat} :
    gutter previous line = bar ↔ previous = some line := by
  rw [gutter]
  by_cases h : previous = some line
  · rw [if_pos h]
    exact iff_of_true rfl h
  · rw [if_neg h]
    refine iff_of_false (fun hbar => ?_) h
    have hprefix := not_prefix_lineGutter line []
    rw [hbar, List.append_nil] at hprefix
    exact absurd hprefix (by decide)

theorem lineAbove?_eq_some_iff {tokens : List Token} {i line : Nat} :
    lineAbove? none tokens i = some line ↔
      ∃ (j : Nat) (above : Token), i = j + 1 ∧ tokens[j]? = some above ∧ above.line = line := by
  cases i with
  | zero => simp [lineAbove?]
  | succ j => simp [lineAbove?, Option.map_eq_some_iff]

end Listing

/-! ## Listings of scans -/

/-- **One line for each token**: the listing of a scan has it exactly if no token spans lines, which
only a string can. Each line feed in a string ends a line twice more, once in the lexeme and once in
the value. -/
theorem line_per_token_iff (source : String) :
    (Listing.HasLinePerToken (scan source).tokens ↔
      ∀ t ∈ (scan source).tokens, '\n' ∉ t.lexeme.toList) ∧
    (Listing.lines (tokenListing (scan source).tokens)).length =
      (scan source).tokens.length + 2 * ((scan source).tokens.map Token.height).sum := by
  have hscanned : ∀ t ∈ (scan source).tokens, newlines t.text.toList = 2 * t.height := by
    intro t ht
    rw [Token.newlines_text, (Token.scanned_of_mem_scan ht).valueHeight_eq, Nat.two_mul]
  constructor
  · rw [Listing.hasLinePerToken_iff]
    refine forall₂_congr fun t ht => ?_
    rw [← newlines_eq_zero_iff, ← newlines_eq_zero_iff, hscanned t ht, ← Token.height]
    omega
  · rw [Listing.length_lines_tokenListing, List.map_congr_left hscanned, List.sum_map_mul_left]

/-- A string over two lines has two lines more than its token should. -/
theorem not_hasLinePerToken_string : ¬ Listing.HasLinePerToken (scan "\"a\nb\"").tokens := by
  intro h
  have hlength : (Listing.lines (tokenListing (scan "\"a\nb\"").tokens)).length ≠
      (scan "\"a\nb\"").tokens.length := by decide +kernel
  exact hlength h.length_eq

/-! ## Listings of any tokens -/

/-- **Gutters show the lines** of any tokens whose lexemes and values have no line feed, in whatever
order they stand: each token has a line, its gutter is the bar exactly below a token on the same
line and shows the number of its line otherwise, and who reads the gutters from the top has the
lines of the tokens. -/
theorem gutters_show_lines (tokens : List Token)
    (h : ∀ t ∈ tokens, '\n' ∉ t.lexeme.toList ∧
      ∀ value, t.literal = some (.string value) → '\n' ∉ value.toList) :
    Listing.HasLinePerToken tokens ∧
    Listing.linesShown? none (Listing.lines (tokenListing tokens)) =
      some (tokens.map Token.line) ∧
    ∀ (i : Nat) (t : Token), tokens[i]? = some t → ∃ gutter : String,
      (Listing.lines (tokenListing tokens))[i]? = some (gutter ++ t.text ++ "\n").toList ∧
      (gutter = "   | " ∨
        gutter.toList = (Nat.toDigits 10 t.line).leftpad 4 ' ' ++ [' ']) ∧
      (gutter = "   | " ↔
        ∃ (j : Nat) (above : Token), i = j + 1 ∧ tokens[j]? = some above ∧
          above.line = t.line) := by
  have htext : ∀ t ∈ tokens, '\n' ∉ t.text.toList := fun t ht =>
    Token.newline_not_mem_text_iff.2 (h t ht)
  have hlines := Listing.hasLinePerToken_iff.2 htext
  refine ⟨hlines, ?_, fun i t hi => ⟨_, hlines.line_eq i t hi, ?_, ?_⟩⟩
  · rw [Listing.lines_tokenListing htext]
    exact Listing.linesShown?_rowsBelow none tokens ['\n']
  · rw [Listing.gutter]
    split
    · exact .inl rfl
    · exact .inr (by simp [Listing.lineGutter])
  · rw [← Listing.lineAbove?_eq_some_iff]
    exact Listing.gutter_eq_bar_iff

/-- Lines that go up and down, a number of five digits, and a value that is no number. -/
theorem gutters_show_lines_unsorted :
    let tokens : List Token := [⟨.number, "1", some (.number ⟨0x7FF8000000000000⟩), 0⟩,
      ⟨.string, "", some (.string "é"), 0⟩, ⟨.identifier, "a", none, 12345⟩, Token.eof 7]
    (∀ t ∈ tokens, '\n' ∉ t.lexeme.toList ∧
      ∀ value, t.literal = some (.string value) → '\n' ∉ value.toList) ∧
    Listing.HasLinePerToken tokens ∧
    Listing.linesShown? none (Listing.lines (tokenListing tokens)) = some [0, 0, 12345, 7] := by
  intro tokens
  have h : ∀ t ∈ tokens, '\n' ∉ t.lexeme.toList ∧
      ∀ value, t.literal = some (.string value) → '\n' ∉ value.toList := by
    simp [tokens, Token.eof]
  exact ⟨h, (gutters_show_lines tokens h).1, (gutters_show_lines tokens h).2.1⟩

end LoxLexer
