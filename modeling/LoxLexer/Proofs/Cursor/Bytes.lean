import LoxLexer.Proofs.Alphabet
import LoxLexer.Scan.Cursor
import LoxLexer.Text.Cut

/-!
# The bytes of a text

What the UTF-8 bytes of a character are (`encodeChar_cases`): an ASCII character is its own byte,
and any other one begins with a byte and goes on with continuation bytes that are all beyond ASCII.
So a class of characters that does not tell characters beyond ASCII apart can be tested byte by
byte (`apply_ascii`), offsets between characters are the boundaries (`isBoundary_append`), and the
slice between two of them is the text between them (`slice?_append`).
-/

namespace LoxLexer

@[simp] theorem utf8_nil : utf8 [] = [] := rfl

@[simp] theorem utf8_cons (c : Char) (cs : List Char) :
    utf8 (c :: cs) = String.utf8EncodeChar c ++ utf8 cs := rfl

@[simp] theorem utf8_append (s t : List Char) : utf8 (s ++ t) = utf8 s ++ utf8 t :=
  List.flatMap_append

@[simp] theorem length_utf8 (cs : List Char) : (utf8 cs).length = byteLength cs := by
  induction cs with
  | nil => rfl
  | cons c cs ih => simp [byteLength, ih]

theorem byteLength_toList (s : String) : byteLength s.toList = s.utf8ByteSize := by
  rw [← length_utf8, String.utf8ByteSize, ← String.utf8Encode_toList, List.utf8Encode,
    List.size_toByteArray]
  rfl

theorem utf8ByteSize_ofList (cs : List Char) :
    (String.ofList cs).utf8ByteSize = (utf8 cs).length := by
  rw [← byteLength_toList, String.toList_ofList, length_utf8]

theorem length_le_byteLength (cs : List Char) : cs.length ≤ byteLength cs := by
  induction cs with
  | nil => exact Nat.le_refl _
  | cons c cs ih =>
    have := c.utf8Size_pos
    simp only [List.length_cons, byteLength]
    omega

theorem byteLength_pos {cs : List Char} (h : cs ≠ []) : 0 < byteLength cs :=
  Nat.lt_of_lt_of_le (List.length_pos_iff.2 h) (length_le_byteLength cs)

namespace Cursor

/-! ## The bytes of a character -/

theorem isContinuation_of_lt {b : UInt8} (h : b.toNat < 128) : isContinuation b = false := by
  have hle := UInt8.le_iff_toNat_le.1 (UInt8.and_le_left (a := b) (b := 0xC0))
  refine beq_eq_false_iff_ne.2 fun he => ?_
  rw [he] at hle
  exact absurd (Nat.lt_of_le_of_lt hle h) (by decide)

/-- The bytes of longer characters: some low bits under a mark. -/
theorem isContinuation_or {x m k : UInt8} (h : m &&& 0xC0 = 0) :
    isContinuation (x &&& m ||| k) = isContinuation k := by
  have hx : (x &&& m ||| k) &&& 0xC0 = k &&& 0xC0 := by
    apply UInt8.toBitVec_inj.1
    have hm := congrArg UInt8.toBitVec h
    simp only [UInt8.toBitVec_and, UInt8.toBitVec_or] at hm ⊢
    rw [BitVec.and_or_distrib_right, BitVec.and_assoc, hm]
    simp
  rw [isContinuation, isContinuation, hx]

/-- The first byte of a longer character. -/
theorem lead_or {x m k : UInt8} (hm : m &&& 0xC0 = 0) (hk : k &&& 0xC0 = 0xC0) :
    128 ≤ (x &&& m ||| k).toNat ∧ isContinuation (x &&& m ||| k) = false := by
  have hc : isContinuation k = false := by
    rw [isContinuation, hk]
    decide
  refine ⟨?_, by rw [isContinuation_or hm, hc]⟩
  have hle := UInt8.le_iff_toNat_le.1 (UInt8.and_le_left (a := k) (b := 0xC0))
  rw [hk] at hle
  rw [UInt8.toNat_or]
  exact Nat.le_trans (Nat.le_trans (by decide) hle) Nat.right_le_or

theorem isContinuation_tail (x : UInt8) : isContinuation (x &&& 0x3F ||| 0x80) = true := by
  rw [isContinuation_or (by decide)]
  decide

theorem le_of_isContinuation {b : UInt8} (h : isContinuation b = true) : 128 ≤ b.toNat := by
  apply Nat.le_of_not_lt
  intro hlt
  rw [isContinuation_of_lt hlt] at h
  cases h

/-- **The bytes of a character**: itself if it is ASCII, else a byte beyond ASCII that continues
nothing, and continuation bytes. -/
theorem encodeChar_cases (c : Char) :
    (c.toNat < 128 ∧ String.utf8EncodeChar c = [c.val.toUInt8]) ∨
      (128 ≤ c.toNat ∧ ∃ b bs, String.utf8EncodeChar c = b :: bs ∧
        (128 ≤ b.toNat ∧ isContinuation b = false) ∧ ∀ b' ∈ bs, isContinuation b' = true) := by
  by_cases hc : c.toNat < 128
  · refine .inl ⟨hc, String.utf8EncodeChar_eq_singleton (Char.utf8Size_eq_one_iff.2 ?_)⟩
    exact UInt32.le_iff_toNat_le.2 (Nat.le_of_lt_succ hc)
  · refine .inr ⟨Nat.le_of_not_lt hc, ?_⟩
    obtain h | h | h | h := c.utf8Size_eq
    · have := UInt32.le_iff_toNat_le.1 (Char.utf8Size_eq_one_iff.1 h)
      exact absurd (Nat.lt_succ_of_le this) hc
    · exact ⟨_, _, String.utf8EncodeChar_eq_cons_cons h, lead_or (by decide) (by decide),
        by simp [isContinuation_tail]⟩
    · exact ⟨_, _, String.utf8EncodeChar_eq_cons_cons_cons h, lead_or (by decide) (by decide),
        by simp [isContinuation_tail]⟩
    · exact ⟨_, _, String.utf8EncodeChar_eq_cons_cons_cons_cons h,
        lead_or (by decide) (by decide), by simp [isContinuation_tail]⟩

/-! ## Classes of characters, byte by byte -/

/-- The function does not tell characters beyond ASCII apart. -/
def IsUniform {β : Type} (q : Char → β) : Prop :=
  ∀ c d : Char, 128 ≤ c.toNat → 128 ≤ d.toNat → q c = q d

theorem toNat_ascii (b : UInt8) : (ascii b).toNat = b.toNat := by
  have := b.toNat_lt
  rw [ascii, Char.ofNat, dif_pos (.inl (by omega))]
  rfl

theorem ascii_toUInt8 {c : Char} (h : c.toNat < 128) : ascii c.val.toUInt8 = c := by
  have hb : c.val.toUInt8.toNat = c.toNat := by
    rw [UInt32.toNat_toUInt8]
    exact Nat.mod_eq_of_lt (Nat.lt_trans h (by decide))
  rw [ascii, hb, Char.ofNat_toNat]

section
variable {β : Type}

/-- A uniform function is the same of a character and of each of its bytes. -/
theorem IsUniform.apply_ascii {q : Char → β} (hq : IsUniform q) {c : Char} {b : UInt8}
    (hb : b ∈ String.utf8EncodeChar c) : q (ascii b) = q c := by
  rcases encodeChar_cases c with ⟨hc, he⟩ | ⟨hc, first, rest, he, ⟨hfirst, -⟩, hrest⟩
  · rw [he, List.mem_singleton] at hb
    rw [hb, ascii_toUInt8 hc]
  · refine hq _ _ ?_ hc
    rw [toNat_ascii]
    rw [he] at hb
    rcases List.mem_cons.1 hb with rfl | hb
    · exact hfirst
    · exact le_of_isContinuation (hrest b hb)

theorem isUniform_of_eq {q : Char → β} {v : β} (h : ∀ c : Char, 128 ≤ c.toNat → q c = v) :
    IsUniform q := fun c d hc hd => (h c hc).trans (h d hd).symm

/-- A character that a uniform function tells from one beyond ASCII is ASCII. -/
theorem IsUniform.toNat_lt {q : Char → β} (hq : IsUniform q) {c : Char} (h : q c ≠ q '\u0080') :
    c.toNat < 128 := by
  apply Nat.lt_of_not_le
  exact fun hc => h (hq c '\u0080' hc (by decide))

end

theorem ne_of_beyond {c d : Char} (hc : 128 ≤ c.toNat) (hd : d.toNat < 128) : c ≠ d := by
  rintro rfl
  omega

theorem isUniform_eq {d : Char} (hd : d.toNat < 128) : IsUniform (· = d) :=
  isUniform_of_eq fun _ hc => eq_false (ne_of_beyond hc hd)

theorem isUniform_beq {d : Char} (hd : d.toNat < 128) : IsUniform (· == d) :=
  isUniform_of_eq fun _ hc => beq_eq_false_iff_ne.2 (ne_of_beyond hc hd)

theorem isUniform_bne {d : Char} (hd : d.toNat < 128) : IsUniform (· != d) :=
  isUniform_of_eq fun _ hc => bne_iff_ne.2 (ne_of_beyond hc hd)

theorem isUniform_newlines : IsUniform fun c => newlines [c] :=
  isUniform_of_eq fun _ hc => by
    rw [newlines_cons, if_neg (ne_of_beyond hc (by decide))]

theorem isUniform_isWhitespace : IsUniform Char.isWhitespace := by
  refine isUniform_of_eq (v := false) fun c hc => ?_
  rw [← Bool.not_eq_true, isWhitespace_iff]
  intro h
  simp only [List.mem_cons, List.not_mem_nil, or_false] at h
  rcases h with rfl | rfl | rfl | rfl <;> exact absurd hc (by decide)

theorem isUniform_isDigit : IsUniform Char.isDigit := by
  refine isUniform_of_eq (v := false) fun c hc => ?_
  rw [← Bool.not_eq_true]
  intro h
  have := isDigit_iff.1 h
  omega

theorem isUniform_isWordStart : IsUniform isWordStart := by
  refine isUniform_of_eq (v := false) fun c hc => ?_
  rw [← Bool.not_eq_true]
  intro h
  rcases isWordStart_iff.1 h with h | rfl
  · have := isAlpha_iff.1 h
    omega
  · exact absurd hc (by decide)

theorem isUniform_isWordPart : IsUniform isWordPart := fun c d hc hd => by
  rw [isWordPart, isWordPart, isUniform_isWordStart c d hc hd, isUniform_isDigit c d hc hd]

theorem isUniform_ofChar? : IsUniform Mark.ofChar? := by
  refine isUniform_of_eq (v := none) fun c hc => ?_
  unfold Mark.ofChar?
  split <;> first | rfl | exact absurd hc (by decide)

/-- **Runs of a uniform class** are runs of bytes. -/
theorem takeWhile_utf8 {q : Char → Bool} (hq : IsUniform q) (cs : List Char) :
    (utf8 cs).takeWhile (fun b => q (ascii b)) = utf8 (cs.takeWhile q) := by
  induction cs with
  | nil => rfl
  | cons c cs ih =>
    rw [utf8_cons, List.takeWhile_cons]
    cases hc : q c with
    | true =>
      rw [List.takeWhile_append_of_pos fun b hb => (hq.apply_ascii hb).trans hc, ih]
      rfl
    | false =>
      obtain ⟨b, bs, he⟩ := List.exists_cons_of_ne_nil (String.utf8EncodeChar_ne_nil (c := c))
      have hb : q (ascii b) = false := (hq.apply_ascii (he ▸ List.mem_cons_self)).trans hc
      simp [he, hb]

/-! ## Boundaries and slices -/

/-- The bytes after a text do not begin inside a character. -/
theorem stops_utf8 (cs : List Char) : Stops isContinuation (utf8 cs) := by
  cases cs with
  | nil => exact stops_nil
  | cons c cs =>
    rw [utf8_cons]
    rcases encodeChar_cases c with ⟨hc, he⟩ | ⟨-, b, bs, he, ⟨-, hb⟩, -⟩
    · rw [he]
      refine stops_cons.2 (isContinuation_of_lt ?_)
      rw [← toNat_ascii, ascii_toUInt8 hc]
      exact hc
    · rw [he]
      exact stops_cons.2 hb

theorem getElem?_utf8_append (pre post : List Char) :
    (utf8 (pre ++ post))[byteLength pre]? = (utf8 post).head? := by
  rw [utf8_append, List.getElem?_append_right (by simp), length_utf8, Nat.sub_self,
    List.head?_eq_getElem?]

theorem isBoundary_append (pre post : List Char) :
    isBoundary (utf8 (pre ++ post)) (byteLength pre) = true := by
  have hstops := stops_utf8 post
  rw [isBoundary, getElem?_utf8_append]
  cases h : utf8 post with
  | nil =>
    have := congrArg List.length h
    simp_all
  | cons b bs =>
    rw [h] at hstops
    simp [stops_cons.1 hstops]

theorem fromUTF8?_utf8 (cs : List Char) :
    String.fromUTF8? ⟨(utf8 cs).toArray⟩ = some (String.ofList cs) := by
  have hbytes : (⟨(utf8 cs).toArray⟩ : ByteArray) = cs.utf8Encode :=
    ByteArray.ext (List.data_toByteArray).symm
  rw [hbytes, String.fromUTF8?, dif_pos ByteArray.isValidUTF8_utf8Encode]
  rfl

/-- **The slice between two characters** is the text between them. -/
theorem slice?_append (pre mid post : List Char) :
    slice? (utf8 (pre ++ mid ++ post)) (byteLength pre) (byteLength (pre ++ mid)) =
      some (String.ofList mid) := by
  have hle : byteLength pre ≤ byteLength (pre ++ mid) := by
    rw [byteLength_append]
    omega
  have hstart := isBoundary_append pre (mid ++ post)
  rw [← List.append_assoc] at hstart
  have hextract : (utf8 (pre ++ mid ++ post)).extract (byteLength pre) (byteLength (pre ++ mid)) =
      utf8 mid := by
    rw [List.extract_eq_take_drop, byteLength_append, Nat.add_sub_cancel_left, List.append_assoc,
      utf8_append, ← length_utf8 pre, List.drop_left, utf8_append, ← length_utf8 mid,
      List.take_left]
  rw [slice?, if_pos ⟨hle, hstart, isBoundary_append (pre ++ mid) post⟩, hextract, fromUTF8?_utf8]

end Cursor

end LoxLexer
