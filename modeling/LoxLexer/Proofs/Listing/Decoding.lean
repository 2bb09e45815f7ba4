import LoxLexer.Listing
import LoxLexer.Proofs.Token.Equality
import Mathlib.Data.List.TFAE
import Mathlib.Tactic.TFAE

/-!
# Listings lose nothing

`listing_faithful`: two sources have the same token listing exactly when their tokens are equal, and
diagnostic listings tell all lists of diagnostics apart.

A token listing is read from the left. The gutter shows the line (`lineShown?_gutter`), and so is no
other's (`gutter_append_inj`); the name of
the kind goes up to the first space (`name_append_inj`); and the lexeme is the segment that the text
behind that space begins with, because it ends before any blank (`content_eq_of_append`). The lexeme
determines the value, so what is left is known to begin with the value's text and a line feed, and
the next row is found although strings stand in the listing as they are.
-/

namespace LoxLexer

/-! ## Gutters -/

namespace Listing

theorem isDigit_of_mem_toDigits {n : Nat} {c : Char} (h : c ∈ Nat.toDigits 10 n) :
    c.isDigit = true := Nat.isDigit_of_mem_toDigits (by decide) (by decide) h

theorem exists_toDigits_eq_cons (n : Nat) :
    ∃ d digits, Nat.toDigits 10 n = d :: digits ∧ d.isDigit = true := by
  obtain ⟨d, digits, h⟩ := List.exists_cons_of_ne_nil (Nat.toDigits_ne_nil (n := n) (b := 10))
  exact ⟨d, digits, h, isDigit_of_mem_toDigits (h ▸ List.mem_cons_self)⟩

/-- Digits before anything but a digit are read to their end. -/
theorem takeWhile_toDigits_append (n : Nat) {rest : List Char} (h : Stops Char.isDigit rest) :
    (Nat.toDigits 10 n ++ rest).takeWhile Char.isDigit = Nat.toDigits 10 n :=
  takeWhile_append_of_stops (fun _ => isDigit_of_mem_toDigits) h

theorem dropWhile_toDigits_append (n : Nat) {rest : List Char} (h : Stops Char.isDigit rest) :
    (Nat.toDigits 10 n ++ rest).dropWhile Char.isDigit = rest :=
  dropWhile_append_of_stops (fun _ => isDigit_of_mem_toDigits) h

theorem toList_lineGutter (line : Nat) : (lineGutter line).toList =
    List.replicate (4 - (Nat.toDigits 10 line).length) ' ' ++ (Nat.toDigits 10 line ++ [' ']) := by
  simp [lineGutter, List.leftpad]

/-- Behind the spaces of a line gutter stands the number. -/
theorem dropWhile_lineGutter (line : Nat) (rest : List Char) :
    ((lineGutter line).toList ++ rest).dropWhile (· == ' ') =
      Nat.toDigits 10 line ++ ' ' :: rest := by
  obtain ⟨d, digits, hdigits, hd⟩ := exists_toDigits_eq_cons line
  have hspace : (d == ' ') = false := by
    rw [beq_eq_false_iff_ne]
    rintro rfl
    exact absurd hd (by decide)
  have hstops : Stops (· == ' ') (Nat.toDigits 10 line ++ ' ' :: rest) := by
    rw [hdigits]
    exact stops_cons.2 hspace
  have hspaces : ∀ c ∈ List.replicate (4 - (Nat.toDigits 10 line).length) ' ', (c == ' ') = true :=
    fun c hc => beq_iff_eq.2 (List.eq_of_mem_replicate hc)
  have hdrop := dropWhile_append_of_stops hspaces hstops
  rw [toList_lineGutter, List.append_assoc, List.append_assoc, List.singleton_append, hdrop]

/-- A line gutter is told from the bar by what stands behind its spaces. -/
theorem not_prefix_lineGutter (line : Nat) (rest : List Char) :
    bar.toList.isPrefixOf ((lineGutter line).toList ++ rest) = false := by
  rw [← Bool.not_eq_true, List.isPrefixOf_iff_prefix]
  rintro ⟨tail, h⟩
  have hdrop := dropWhile_lineGutter line rest
  have hbar : (bar.toList ++ tail).dropWhile (· == ' ') = '|' :: ' ' :: tail := rfl
  obtain ⟨d, digits, hdigits, hd⟩ := exists_toDigits_eq_cons line
  rw [← h, hbar, hdigits] at hdrop
  obtain ⟨rfl, -⟩ := List.cons.inj hdrop
  exact absurd hd (by decide)

/-- **A gutter shows the line** of its token. -/
theorem lineShown?_gutter (previous : Option Nat) (line : Nat) (rest : List Char) :
    lineShown? previous ((gutter previous line).toList ++ rest) = some line := by
  rw [gutter, lineShown?]
  by_cases h : previous = some line
  · have hbar : bar.toList.isPrefixOf (bar.toList ++ rest) = true := by
      rw [List.isPrefixOf_iff_prefix]
      exact List.prefix_append _ _
    rw [if_pos h, if_pos hbar, h]
  · have hstops : Stops Char.isDigit (' ' :: rest) := stops_cons.2 (by decide)
    have hshown : Nat.toDigits 10 line ≠ [] ∧ (' ' :: rest).head? = some ' ' :=
      ⟨Nat.toDigits_ne_nil, rfl⟩
    rw [if_neg h, not_prefix_lineGutter, if_neg Bool.false_ne_true, dropWhile_lineGutter]
    dsimp only
    rw [takeWhile_toDigits_append line hstops, dropWhile_toDigits_append line hstops, if_pos hshown,
      Decimal.digitsValue, Nat.ofDigitChars_ten_toDigits]

end Listing

/-! ## Names of kinds -/

/-- Lists that agree up to the first separator and beyond it. -/
theorem append_cons_inj_of_not_mem {sep : Char} {a b x y : List Char} (ha : sep ∉ a) (hb : sep ∉ b)
    (h : a ++ sep :: x = b ++ sep :: y) : a = b ∧ x = y := by
  have hstops (z : List Char) : Stops (· != sep) (sep :: z) := stops_cons.2 (by simp)
  have htake := congrArg (List.takeWhile (· != sep)) h
  rw [takeWhile_append_of_stops (forall_bne_of_not_mem ha) (hstops x),
    takeWhile_append_of_stops (forall_bne_of_not_mem hb) (hstops y)] at htake
  subst htake
  exact ⟨rfl, (List.cons.inj (List.append_cancel_left h)).2⟩

namespace Kind

/-- A kind is found by its name. -/
theorem ofName?_name (k : Kind) : ofName? k.name = some k := by
  cases k with
  | mark m => cases m <;> decide +kernel
  | keyword k => cases k <;> decide +kernel
  | identifier | string | number | eof => decide +kernel

theorem space_not_mem_name (k : Kind) : ' ' ∉ k.name.toList := by
  cases k with
  | mark m => cases m <;> decide
  | keyword k => cases k <;> decide +kernel
  | identifier | string | number | eof => decide

/-- A name and the space behind it tell the kind. -/
theorem name_append_inj {k k' : Kind} {x y : List Char}
    (h : k.name.toList ++ ' ' :: x = k'.name.toList ++ ' ' :: y) : k = k' ∧ x = y := by
  obtain ⟨hname, hxy⟩ := append_cons_inj_of_not_mem k.space_not_mem_name k'.space_not_mem_name h
  have hk : some k = some k' := by
    rw [← ofName?_name k, ← ofName?_name k', String.toList_injective hname]
  exact ⟨Option.some.inj hk, hxy⟩

end Kind

/-! ## Tokens -/

namespace Token

theorem toList_text (t : Token) : t.text.toList = t.kind.name.toList ++
    ' ' :: (t.lexeme.toList ++ ' ' :: ((t.literal.map Literal.text).getD "null").toList) := by
  simp [text]

theorem text_eq_of_content_eq {s t : Token} (h : s.content = t.content) : s.text = t.text := by
  cases s
  cases t
  cases h
  rfl

/-- **A lexeme before a space** tells the token: it is the segment that the text begins with. -/
theorem WellFormed.content_eq_of_append {s t : Token} (hs : s.WellFormed) (ht : t.WellFormed)
    {x y : List Char} (h : s.lexeme.toList ++ ' ' :: x = t.lexeme.toList ++ ' ' :: y) :
    s.content = t.content := by
  have hblank (z : List Char) : ∀ c ∈ (' ' :: z).head?, c.isWhitespace = true := by
    rintro c ⟨⟩
    decide
  obtain ⟨a, ha, hatext, hitem⟩ := hs.exists_segment
  obtain ⟨b, hb, hbtext, hitem'⟩ := ht.exists_segment
  have hsegments := congrArg Segment.segments h
  rw [← hatext, ← hbtext,
    Segment.segments_append ha (Segment.endsBefore_of_item? hitem (hblank x)),
    Segment.segments_append hb (Segment.endsBefore_of_item? hitem' (hblank y))] at hsegments
  obtain ⟨rfl, -⟩ := List.cons.inj hsegments
  exact content_eq_of_item? hitem hitem'

/-- A token's text and the line feed behind it tell the token, but for its line. -/
theorem Scanned.content_eq_of_append {s t : Token} (hs : s.Scanned) (ht : t.Scanned)
    {x y : List Char} (h : s.text.toList ++ '\n' :: x = t.text.toList ++ '\n' :: y) :
    s.content = t.content ∧ x = y := by
  have hcontent : s.content = t.content := by
    rw [toList_text, toList_text, List.append_assoc, List.append_assoc, List.cons_append,
      List.cons_append, List.append_assoc, List.append_assoc] at h
    obtain ⟨hkind, h⟩ := Kind.name_append_inj h
    rcases hs with hs | ⟨line, rfl⟩ <;> rcases ht with ht | ⟨line', rfl⟩
    · exact hs.content_eq_of_append ht h
    · exact absurd hkind hs.kind_ne_eof
    · exact absurd hkind.symm ht.kind_ne_eof
    · rfl
  rw [text_eq_of_content_eq hcontent] at h
  exact ⟨hcontent, (List.cons.inj (List.append_cancel_left h)).2⟩

end Token

/-! ## Rows -/

namespace Listing

theorem toList_ofRows_cons (row : String) (rows : List String) :
    (ofRows (row :: rows)).toList = row.toList ++ '\n' :: (ofRows rows).toList := by
  simp [ofRows]

theorem ofRows_cons_ne (row : String) (rows : List String) : ofRows (row :: rows) ≠ ofRows [] := by
  intro h
  have hlist := congrArg String.toList h
  rw [toList_ofRows_cons] at hlist
  simp [ofRows] at hlist

/-- A gutter tells the line to a reader who knows that of the row above. -/
theorem gutter_append_inj {previous : Option Nat} {line line' : Nat} {x y : List Char}
    (h : (gutter previous line).toList ++ x = (gutter previous line').toList ++ y) :
    line = line' ∧ x = y := by
  have hshown := congrArg (lineShown? previous) h
  rw [lineShown?_gutter, lineShown?_gutter] at hshown
  obtain rfl := Option.some.inj hshown
  exact ⟨rfl, List.append_cancel_left h⟩

/-- **Rows of scanned tokens** below the same line tell the tokens. -/
theorem eq_of_rowsBelow {ts us : List Token} (hts : ∀ t ∈ ts, t.Scanned)
    (hus : ∀ u ∈ us, u.Scanned) {previous : Option Nat}
    (h : ofRows (rowsBelow previous ts) = ofRows (rowsBelow previous us)) : ts = us := by
  induction ts generalizing us previous with
  | nil =>
    cases us with
    | nil => rfl
    | cons u us => exact absurd h.symm (ofRows_cons_ne _ _)
  | cons t ts ih =>
    rw [List.forall_mem_cons] at hts
    cases us with
    | nil => exact absurd h (ofRows_cons_ne _ _)
    | cons u us =>
      rw [List.forall_mem_cons] at hus
      have hlist := congrArg String.toList h
      rw [rowsBelow, rowsBelow, toList_ofRows_cons, toList_ofRows_cons, String.toList_append,
        String.toList_append, List.append_assoc, List.append_assoc] at hlist
      obtain ⟨hline, hlist⟩ := gutter_append_inj hlist
      obtain ⟨hcontent, hrest⟩ := hts.1.content_eq_of_append hus.1 hlist
      rw [← hline] at hrest
      rw [Token.eq_of_content_eq hcontent hline,
        ih hts.2 hus.2 (String.toList_injective hrest)]

end Listing

/-! ## Diagnostics -/

namespace Diagnostic

theorem toList_text (d : Diagnostic) : d.text.toList =
    "[line ".toList ++
      (Nat.toDigits 10 d.line ++ ']' :: (" Error: ".toList ++ d.fault.message.toList)) := by
  simp [text]

/-- **A diagnostic's text** and the line feed behind it tell the diagnostic. -/
theorem eq_of_append {d e : Diagnostic} {x y : List Char}
    (h : d.text.toList ++ '\n' :: x = e.text.toList ++ '\n' :: y) : d = e ∧ x = y := by
  have hbracket (n : Nat) : ']' ∉ Nat.toDigits 10 n := fun hmem =>
    absurd (Listing.isDigit_of_mem_toDigits hmem) (by decide)
  obtain ⟨fault, line⟩ := d
  obtain ⟨fault', line'⟩ := e
  rw [toList_text, toList_text, List.append_assoc, List.append_assoc, List.append_assoc,
    List.append_assoc] at h
  obtain ⟨hdigits, hmessage⟩ := append_cons_inj_of_not_mem (hbracket line) (hbracket line')
    (List.append_cancel_left h)
  have hline : line = line' := by
    have hread := congrArg (Nat.ofDigitChars 10 · 0) hdigits
    simpa only [Nat.ofDigitChars_ten_toDigits] using hread
  subst hline
  -- the two messages part at their third letter
  cases fault <;> cases fault' <;> simp [Fault.message] at hmessage <;> exact ⟨rfl, hmessage⟩

end Diagnostic

theorem eq_of_errorListing_eq {ds es : List Diagnostic} (h : errorListing ds = errorListing es) :
    ds = es := by
  induction ds generalizing es with
  | nil =>
    cases es with
    | nil => rfl
    | cons e es => exact absurd h.symm (Listing.ofRows_cons_ne _ _)
  | cons d ds ih =>
    cases es with
    | nil => exact absurd h (Listing.ofRows_cons_ne _ _)
    | cons e es =>
      have hlist := congrArg String.toList h
      rw [errorListing, errorListing, List.map_cons, List.map_cons, Listing.toList_ofRows_cons,
        Listing.toList_ofRows_cons] at hlist
      obtain ⟨rfl, hrest⟩ := Diagnostic.eq_of_append hlist
      rw [ih (String.toList_injective hrest)]

/-- **Listings lose nothing**: the tokens of two sources are equal, numbers compared as binary64
numbers, exactly when they agree one by one in kind, lexeme and line, and exactly when their
listings are the same text. Diagnostics are the same exactly when their listings are. -/
theorem listing_faithful :
    (∀ a b : String, List.TFAE [
      Token.equalLists (scan a).tokens (scan b).tokens = true,
      List.Forall₂ (fun s t => s.kind = t.kind ∧ s.lexeme = t.lexeme ∧ s.line = t.line)
        (scan a).tokens (scan b).tokens,
      tokenListing (scan a).tokens = tokenListing (scan b).tokens]) ∧
    ∀ ds es : List Diagnostic, errorListing ds = errorListing es ↔ ds = es := by
  refine ⟨fun a b => ?_, fun ds es => ⟨eq_of_errorListing_eq, congrArg errorListing⟩⟩
  have ha : ∀ t ∈ (scan a).tokens, t.Scanned := fun _ => Token.scanned_of_mem_scan
  have hb : ∀ t ∈ (scan b).tokens, t.Scanned := fun _ => Token.scanned_of_mem_scan
  tfae_have 1 ↔ 2 := Token.Scanned.equalLists_iff ha hb
  tfae_have 2 → 3 := fun h => congrArg tokenListing (Token.Scanned.eq_of_forall₂ ha hb h)
  tfae_have 3 → 2 := by
    intro h
    rw [Listing.eq_of_rowsBelow ha hb h]
    exact Token.forall₂_agree_refl _
  tfae_finish

end LoxLexer
