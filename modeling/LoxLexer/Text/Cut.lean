/-!
# Cutting texts

`cutAfter` cuts a list after each separator, which it keeps; no piece is empty, and the pieces make
up the list (`flatten_cutAfter`).

A place in a text can also be given by the number of UTF-8 bytes before it. An offset inside a
character is no place: what would be cut there cannot be had.
-/

namespace LoxLexer

/-! ## After each separator -/

section
variable {α : Type} [DecidableEq α]

/-- Cuts after each occurrence of a separator. -/
def cutAfter (sep : α) : List α → List (List α)
  | [] => []
  | a :: l =>
    if a = sep then [a] :: cutAfter sep l
    else
      match cutAfter sep l with
      | [] => [[a]]
      | piece :: pieces => (a :: piece) :: pieces

theorem flatten_cutAfter (sep : α) (l : List α) : (cutAfter sep l).flatten = l := by
  induction l with
  | nil => rfl
  | cons a l ih =>
    unfold cutAfter
    split
    · simp [ih]
    · split <;> simp_all

end

/-! ## Bytes and byte offsets -/

def utf8 (cs : List Char) : List UInt8 := cs.flatMap String.utf8EncodeChar

def lineFeed : UInt8 := 10

def byteLength : List Char → Nat
  | [] => 0
  | c :: cs => c.utf8Size + byteLength cs

/-- The text from a byte offset on. -/
def dropBytes? : Nat → List Char → Option (List Char)
  | 0, cs => some cs
  | _ + 1, [] => none
  | n + 1, c :: cs => if c.utf8Size ≤ n + 1 then dropBytes? (n + 1 - c.utf8Size) cs else none

/-- The text before a byte offset. -/
def takeBytes? : Nat → List Char → Option (List Char)
  | 0, _ => some []
  | _ + 1, [] => none
  | n + 1, c :: cs =>
    if c.utf8Size ≤ n + 1 then (takeBytes? (n + 1 - c.utf8Size) cs).map (c :: ·) else none

/-- The `length` bytes of text from a byte offset on. -/
def bytesAt? (start length : Nat) (cs : List Char) : Option (List Char) :=
  (dropBytes? start cs).bind (takeBytes? length)

theorem byteLength_append (s t : List Char) :
    byteLength (s ++ t) = byteLength s + byteLength t := by
  induction s with
  | nil => simp [byteLength]
  | cons c s ih => simp [byteLength, ih, Nat.add_assoc]

theorem dropBytes?_append (s t : List Char) : dropBytes? (byteLength s) (s ++ t) = some t := by
  induction s with
  | nil => cases t <;> rfl
  | cons c s ih =>
    have pos := c.utf8Size_pos
    obtain ⟨n, hn⟩ : ∃ n, c.utf8Size + byteLength s = n + 1 :=
      ⟨c.utf8Size + byteLength s - 1, by omega⟩
    have rest : n + 1 - c.utf8Size = byteLength s := by omega
    rw [byteLength, hn, List.cons_append, dropBytes?, rest, ih]
    exact if_pos (by omega)

end LoxLexer
