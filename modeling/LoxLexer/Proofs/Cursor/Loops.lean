import LoxLexer.Proofs.Cursor.Bytes
import LoxLexer.Proofs.Scan.Reading

/-!
# Where the cursor's loops stop

Each loop of the cursor, started between two characters of a text, reads no byte beyond the end and
stops between two characters: after the run of characters of its class (`skipWhile_utf8`,
`readWhile_utf8`), after the rest of a character (`skipWhile_tail`), at the closing quote or the end
(`stringEnd_utf8`), after a numeral (`numberEnd_utf8`).
-/

namespace LoxLexer

namespace Cursor

/-! ## Over bytes -/

section
variable (p : UInt8 → Bool) (a b : List UInt8)

theorem skipWhile_append :
    skipWhile (a ++ b) p a.length = some (a.length + (b.takeWhile p).length) := by
  induction b generalizing a with
  | nil => rw [skipWhile, if_pos (by simp)]; rfl
  | cons x b ih =>
    have hnext : skipWhile (a ++ x :: b) p (a.length + 1) =
        some (a.length + 1 + (b.takeWhile p).length) := by simpa using ih (a ++ [x])
    rw [skipWhile, if_neg (by simp), List.getElem?_append_right (Nat.le_refl _), Nat.sub_self]
    cases hx : p x with
    | true =>
      simp only [Option.bind_eq_bind, Option.bind_some, List.getElem?_cons_zero, hx, if_true, hnext,
        List.takeWhile_cons_of_pos hx, List.length_cons, Option.some.injEq]
      omega
    | false => simp [hx]

theorem readWhile_append (hp : p 0 = false) :
    readWhile (a ++ b) p a.length = some (a.length + (b.takeWhile p).length) := by
  induction b generalizing a with
  | nil => rw [readWhile, peek?, if_pos (by simp)]; simp [hp]
  | cons x b ih =>
    have hnext : readWhile (a ++ x :: b) p (a.length + 1) =
        some (a.length + 1 + (b.takeWhile p).length) := by simpa using ih (a ++ [x])
    have hlt : a.length < (a ++ x :: b).length := by simp
    rw [readWhile, peek?, if_neg (by simp), List.getElem?_append_right (Nat.le_refl _),
      Nat.sub_self]
    cases hx : p x with
    | true =>
      simp only [Option.bind_eq_bind, Option.bind_some, List.getElem?_cons_zero, hx, if_true, hlt,
        hnext, List.takeWhile_cons_of_pos hx, List.length_cons, Option.some.injEq]
      omega
    | false => simp [hx]

theorem stringEnd_append (line : Nat) :
    stringEnd (a ++ b) a.length line =
      some (a.length + (b.takeWhile (ascii · != '"')).length,
        line + newlines ((b.takeWhile (ascii · != '"')).map ascii)) := by
  induction b generalizing a line with
  | nil => rw [stringEnd, if_pos (by simp)]; rfl
  | cons x b ih =>
    have hnext : stringEnd (a ++ x :: b) (a.length + 1) (line + newlines [ascii x]) =
        some (a.length + 1 + (b.takeWhile (ascii · != '"')).length, line + newlines [ascii x] +
          newlines ((b.takeWhile (ascii · != '"')).map ascii)) := by
      simpa using ih (a ++ [x]) (line + newlines [ascii x])
    rw [stringEnd, if_neg (by simp), List.getElem?_append_right (Nat.le_refl _), Nat.sub_self]
    by_cases hx : ascii x = '"'
    · simp [hx]
    · have htake : (x :: b).takeWhile (ascii · != '"') = x :: b.takeWhile (ascii · != '"') :=
        List.takeWhile_cons_of_pos (bne_iff_ne.2 hx)
      have hcons := newlines_append [ascii x] ((b.takeWhile (ascii · != '"')).map ascii)
      rw [List.singleton_append] at hcons
      simp only [Option.bind_eq_bind, Option.bind_some, List.getElem?_cons_zero, hx, if_false,
        hnext, htake, List.map_cons, hcons, List.length_cons, Option.some.injEq, Prod.mk.injEq]
      omega

end

/-! ## Over characters -/

section
variable {q : Char → Bool} (hq : IsUniform q) (pre post : List Char)
include hq

theorem skipWhile_utf8 : skipWhile (utf8 (pre ++ post)) (fun b => q (ascii b)) (byteLength pre) =
    some (byteLength (pre ++ post.takeWhile q)) := by
  have h := skipWhile_append (fun b => q (ascii b)) (utf8 pre) (utf8 post)
  rwa [takeWhile_utf8 hq, length_utf8, length_utf8, ← utf8_append, ← byteLength_append] at h

theorem readWhile_utf8 (h0 : q '\x00' = false) :
    readWhile (utf8 (pre ++ post)) (fun b => q (ascii b)) (byteLength pre) =
      some (byteLength (pre ++ post.takeWhile q)) := by
  have h := readWhile_append (fun b => q (ascii b)) (utf8 pre) (utf8 post) h0
  rwa [takeWhile_utf8 hq, length_utf8, length_utf8, ← utf8_append, ← byteLength_append] at h

end

theorem newlines_ascii (cs : List Char) : newlines ((utf8 cs).map ascii) = newlines cs := by
  induction cs with
  | nil => rfl
  | cons c cs ih =>
    have hone : newlines ((String.utf8EncodeChar c).map ascii) = newlines [c] := by
      rcases encodeChar_cases c with ⟨hc, he⟩ | ⟨hc, -⟩
      · rw [he, List.map_singleton, ascii_toUInt8 hc]
      · have hq : IsUniform (· == '\n') := isUniform_beq (by decide)
        have hne : (c == '\n') = false := beq_eq_false_iff_ne.2 (ne_of_beyond hc (by decide))
        rw [newlines_eq_zero, newlines_eq_zero]
        · simpa using (beq_eq_false_iff_ne.1 hne).symm
        · intro hm
          obtain ⟨b, hb, he⟩ := List.mem_map.1 hm
          have := hq.apply_ascii hb
          simp [he, hne] at this
    rw [utf8_cons, List.map_append, newlines_append, hone, ih, ← newlines_append]
    rfl

theorem stringEnd_utf8 (pre post : List Char) (line : Nat) :
    stringEnd (utf8 (pre ++ post)) (byteLength pre) line =
      some (byteLength (pre ++ post.takeWhile (· != '"')),
        line + newlines (post.takeWhile (· != '"'))) := by
  have hq : IsUniform (· != '"') := isUniform_bne (by decide)
  have h := stringEnd_append (utf8 pre) (utf8 post) line
  rwa [takeWhile_utf8 hq, newlines_ascii, length_utf8, length_utf8, ← utf8_append,
    ← byteLength_append] at h

/-- After the first byte of a character, skipping continuation bytes leads past it. -/
theorem skipWhile_tail (pre cs : List Char) (c : Char) :
    skipWhile (utf8 (pre ++ c :: cs)) isContinuation (byteLength pre + 1) =
      some (byteLength (pre ++ [c])) := by
  obtain ⟨b, bs, he, hbs⟩ : ∃ b bs, String.utf8EncodeChar c = b :: bs ∧
      ∀ b' ∈ bs, isContinuation b' = true := by
    rcases encodeChar_cases c with ⟨-, he⟩ | ⟨-, b, bs, he, -, hbs⟩
    · exact ⟨_, [], he, by simp⟩
    · exact ⟨b, bs, he, hbs⟩
  have hsize : c.utf8Size = bs.length + 1 := by
    rw [← String.length_utf8EncodeChar, he, List.length_cons]
  have hbytes : utf8 (pre ++ c :: cs) = utf8 pre ++ [b] ++ (bs ++ utf8 cs) := by
    rw [utf8_append, utf8_cons, he]
    simp
  have h := skipWhile_append isContinuation (utf8 pre ++ [b]) (bs ++ utf8 cs)
  rw [takeWhile_append_of_stops hbs (stops_utf8 cs), ← hbytes, List.length_append, length_utf8,
    List.length_singleton] at h
  rw [h, byteLength_append]
  simp only [byteLength, hsize]
  exact congrArg some (by omega)

/-! ## Looking ahead -/

theorem peek?_utf8 (pre post : List Char) :
    peek? (utf8 (pre ++ post)) (byteLength pre) = some ((utf8 post).headD 0) := by
  rw [peek?, getElem?_utf8_append, List.headD_eq_head?_getD]
  cases h : utf8 post with
  | nil => simp [h]
  | cons b bs =>
    have hlt : byteLength pre < (utf8 (pre ++ post)).length := by simp [h]
    rw [if_neg (Nat.not_le.2 hlt)]
    rfl

/-- The byte ahead is in a uniform class that zero is not in exactly if the next character is. -/
theorem IsUniform.apply_ahead {q : Char → Bool} (hq : IsUniform q) (h0 : q '\x00' = false)
    (post : List Char) : q (ascii ((utf8 post).headD 0)) = true ↔ ∃ c ∈ post.head?, q c = true := by
  cases post with
  | nil =>
    change q '\x00' = true ↔ _
    simp [h0]
  | cons c cs =>
    obtain ⟨b, bs, he⟩ := List.exists_cons_of_ne_nil (String.utf8EncodeChar_ne_nil (c := c))
    have hb : q (ascii b) = q c := hq.apply_ascii (he ▸ List.mem_cons_self)
    simp [he, hb]

theorem ascii_ahead_eq_iff {d : Char} (hd : d.toNat < 128) (h0 : d ≠ '\x00') (post : List Char) :
    ascii ((utf8 post).headD 0) = d ↔ post.head? = some d := by
  have h := (isUniform_beq hd).apply_ahead (beq_eq_false_iff_ne.2 h0.symm) post
  simp only [beq_iff_eq] at h
  rw [h]
  constructor
  · rintro ⟨c, hc, rfl⟩
    exact hc
  · exact fun hc => ⟨d, hc, rfl⟩

/-! ## Numerals -/

theorem byteLength_ascii {c : Char} (h : c.toNat < 128) (pre : List Char) :
    byteLength (pre ++ [c]) = byteLength pre + 1 := by
  have hsize : c.utf8Size = 1 :=
    Char.utf8Size_eq_one_iff.2 (UInt32.le_iff_toNat_le.2 (Nat.le_of_lt_succ h))
  simp [byteLength_append, byteLength, hsize]

theorem toNat_lt_of_isDigit {c : Char} (h : c.isDigit = true) : c.toNat < 128 :=
  isUniform_isDigit.toNat_lt (by rw [h]; decide)

/-- After the first digit of a row, reading digits leads past the row. -/
theorem readWhile_digits (pre : List Char) {d : Char} {ds rest : List Char}
    (h : ∀ c ∈ d :: ds, c.isDigit = true) (hr : Stops Char.isDigit rest) :
    readWhile (utf8 (pre ++ (d :: ds ++ rest))) (fun b => (ascii b).isDigit) (byteLength pre + 1) =
      some (byteLength (pre ++ d :: ds)) := by
  have hread := readWhile_utf8 isUniform_isDigit (pre ++ [d]) (ds ++ rest) rfl
  have htake := takeWhile_append_of_stops (fun c hc => h c (List.mem_cons_of_mem _ hc)) hr
  rw [byteLength_ascii (toNat_lt_of_isDigit (h d List.mem_cons_self)), htake] at hread
  simpa using hread

theorem exists_peek? (bytes : List UInt8) (i : Nat) : ∃ b, peek? bytes i = some b := by
  unfold peek?
  split
  · exact ⟨0, rfl⟩
  · next h => exact ⟨_, List.getElem?_eq_getElem (Nat.lt_of_not_le h)⟩

theorem numberEnd_digits (pre : List Char) {d : Char} {ds rest : List Char}
    (h : ∀ c ∈ d :: ds, c.isDigit = true) (hr : Stops Char.isDigit rest)
    (hp : ∀ tail, rest = '.' :: tail → Stops Char.isDigit tail) :
    numberEnd (utf8 (pre ++ (d :: ds ++ rest))) (byteLength pre + 1) =
      some (byteLength (pre ++ d :: ds)) := by
  have hpeek := peek?_utf8 (pre ++ d :: ds) rest
  rw [List.append_assoc] at hpeek
  obtain ⟨b, hb⟩ := exists_peek? (utf8 (pre ++ (d :: ds ++ rest))) (byteLength (pre ++ d :: ds) + 1)
  have hcond : ¬ (ascii ((utf8 rest).headD 0) = '.' ∧ (ascii b).isDigit = true) := by
    rintro ⟨hpoint, hdigit⟩
    obtain ⟨tail, rfl⟩ := List.head?_eq_some_iff.1
      ((ascii_ahead_eq_iff (by decide) (by decide) rest).1 hpoint)
    -- the byte after the point is the first one of the text after the point
    have hnext := peek?_utf8 (pre ++ d :: ds ++ ['.']) tail
    rw [byteLength_ascii (by decide), List.append_assoc, List.append_assoc, List.singleton_append,
      hb] at hnext
    rw [Option.some.inj hnext] at hdigit
    obtain ⟨c, hc, hdc⟩ := (isUniform_isDigit.apply_ahead rfl tail).1 hdigit
    rw [hp tail rfl c hc] at hdc
    cases hdc
  simp only [numberEnd, readWhile_digits pre h hr, Option.bind_eq_bind, Option.bind_some, hpeek, hb,
    hcond, if_false]
  rfl

theorem numberEnd_point (pre : List Char) {d e : Char} {ds es rest : List Char}
    (h : ∀ c ∈ d :: ds, c.isDigit = true) (he : ∀ c ∈ e :: es, c.isDigit = true)
    (hr : Stops Char.isDigit rest) :
    numberEnd (utf8 (pre ++ (d :: ds ++ '.' :: (e :: es ++ rest)))) (byteLength pre + 1) =
      some (byteLength (pre ++ (d :: ds ++ '.' :: e :: es))) := by
  have hq : Stops Char.isDigit ('.' :: (e :: es ++ rest)) := stops_cons.2 (by decide)
  have hpoint := peek?_utf8 (pre ++ d :: ds) ('.' :: (e :: es ++ rest))
  have hdot := getElem?_utf8_append (pre ++ d :: ds) ('.' :: (e :: es ++ rest))
  have hdigit := peek?_utf8 (pre ++ d :: ds ++ ['.']) (e :: es ++ rest)
  have hread := readWhile_utf8 isUniform_isDigit (pre ++ d :: ds ++ ['.']) (e :: es ++ rest) rfl
  rw [takeWhile_append_of_stops he hr] at hread
  rw [byteLength_ascii (by decide)] at hdigit hread
  simp only [List.append_assoc, List.singleton_append] at hpoint hdot hdigit hread
  have hhead : (utf8 ('.' :: (e :: es ++ rest))).head? = some 46 := rfl
  have hcond : ascii ((utf8 ('.' :: (e :: es ++ rest))).headD 0) = '.' ∧
      (ascii ((utf8 (e :: es ++ rest)).headD 0)).isDigit = true :=
    ⟨(ascii_ahead_eq_iff (by decide) (by decide) _).2 rfl,
      (isUniform_isDigit.apply_ahead rfl _).2 ⟨e, rfl, he e List.mem_cons_self⟩⟩
  simp only [numberEnd, readWhile_digits pre h hq, Option.bind_eq_bind, Option.bind_some, hpoint,
    hdigit, hcond, and_self, if_true, hdot, hhead, hread]

theorem numberEnd_utf8 (pre : List Char) {digits rest : List Char} (h : IsNumeral digits)
    (he : (Segment.number digits).EndsBefore rest) :
    numberEnd (utf8 (pre ++ (digits ++ rest))) (byteLength pre + 1) =
      some (byteLength (pre ++ digits)) := by
  rcases h with ⟨hne, hd⟩ | ⟨whole, fraction, ⟨hne, hw⟩, ⟨hne', hf⟩, rfl⟩
  · obtain ⟨d, ds, rfl⟩ := List.exists_cons_of_ne_nil hne
    exact numberEnd_digits pre hd he.1 (he.2 fun hm => absurd (hd _ hm) (by decide))
  · obtain ⟨d, ds, rfl⟩ := List.exists_cons_of_ne_nil hne
    obtain ⟨e, es, rfl⟩ := List.exists_cons_of_ne_nil hne'
    rw [List.append_assoc, List.cons_append]
    exact numberEnd_point pre hw hf he.1

end Cursor

end LoxLexer
