import LoxLexer.Scan

/-!
# Scanning bytes in place

A scan over the UTF-8 bytes of a text that moves a cursor and copies nothing but lexemes. Bytes are
read one at a time, at most one beyond the next, and lexemes are slices between two offsets. A byte
beyond the end cannot be read, and a slice whose ends are out of range, out of order or inside a
character cannot be taken: then `step` is `none`.

* `step`: one segment, from where the cursor stands to just past it. It moves the cursor on
  (`current_lt_of_step`), so that `run` ends.
* `Reachable`: the places where the cursor stands between two segments.
* `scan?`: what a run from the first byte has found, ended like every token list.
-/

namespace LoxLexer

/-- A place between two segments, and what was found before it. -/
structure Cursor where
  /-- The offset of the last segment that was read. -/
  start : Nat
  /-- The offset of the next byte. -/
  current : Nat
  line : Nat
  tokens : List Token
  errors : List Diagnostic
deriving DecidableEq, Repr

namespace Cursor

/-! ## Reading bytes and slices -/

/-- The byte at an offset that may be just past the last byte, where it is zero. -/
def peek? (bytes : List UInt8) (i : Nat) : Option UInt8 :=
  if bytes.length ≤ i then some 0 else bytes[i]?

/-- The byte goes on with a character that an earlier byte began. -/
def isContinuation (b : UInt8) : Bool := b &&& 0xC0 == 0x80

/-- The offset is between two characters or at an end of the text. -/
def isBoundary (bytes : List UInt8) (i : Nat) : Bool :=
  match bytes[i]? with
  | some b => !isContinuation b
  | none => i == bytes.length

/-- The text between two offsets. -/
def slice? (bytes : List UInt8) (start stop : Nat) : Option String :=
  if start ≤ stop ∧ isBoundary bytes start ∧ isBoundary bytes stop then
    String.fromUTF8? ⟨(bytes.extract start stop).toArray⟩
  else none

/-- The offset of the first byte from `i` on that fails the test, or that of the end. -/
def skipWhile (bytes : List UInt8) (p : UInt8 → Bool) (i : Nat) : Option Nat :=
  if bytes.length ≤ i then some i
  else do
    let b ← bytes[i]?
    if p b then skipWhile bytes p (i + 1) else some i
termination_by bytes.length - i

/-- The offset of the first byte from `i` on that fails the test, where the end reads as a zero.
Only the test stops it: one that a zero passes reads on where there is no byte. -/
def readWhile (bytes : List UInt8) (p : UInt8 → Bool) (i : Nat) : Option Nat := do
  let b ← peek? bytes i
  if p b then
    if i < bytes.length then readWhile bytes p (i + 1) else none
  else return i
termination_by bytes.length - i

theorem le_of_skipWhile {bytes : List UInt8} {p : UInt8 → Bool} {i j : Nat}
    (h : skipWhile bytes p i = some j) : i ≤ j := by
  fun_induction skipWhile bytes p i with
  | case1 =>
    cases h
    exact Nat.le_refl _
  | case2 i hi ih =>
    obtain ⟨b, -, h⟩ := Option.bind_eq_some_iff.1 h
    split at h
    · have := ih h
      omega
    · cases h
      exact Nat.le_refl _

theorem le_of_readWhile {bytes : List UInt8} {p : UInt8 → Bool} {i j : Nat}
    (h : readWhile bytes p i = some j) : i ≤ j := by
  fun_induction readWhile bytes p i with
  | case1 i ih =>
    obtain ⟨b, -, h⟩ := Option.bind_eq_some_iff.1 h
    split at h
    · split at h
      · next hi =>
        have := ih hi h
        omega
      · cases h
    · cases h
      exact Nat.le_refl _

/-! ## Segments -/

/-- The character of an ASCII byte. The others stand for characters that are in no class. -/
def ascii (b : UInt8) : Char := Char.ofNat b.toNat

/-- Takes in the token from where the cursor stands to `stop`. -/
def push (bytes : List UInt8) (c : Cursor) (stop : Nat) (kind : String → Kind)
    (literal : String → Option Literal) : Option Cursor := do
  let lexeme ← slice? bytes c.current stop
  return { c with
    start := c.current
    current := stop
    tokens := c.tokens ++ [⟨kind lexeme, lexeme, literal lexeme, c.line⟩] }

/-- Takes in a fault and moves to `stop`. -/
def report (c : Cursor) (stop : Nat) (fault : Fault) : Cursor :=
  { c with start := c.current, current := stop, errors := c.errors ++ [⟨fault, c.line⟩] }

/-- Inside a string: the offset of its closing quote, or of the end if there is none, and the line
there. -/
def stringEnd (bytes : List UInt8) (i line : Nat) : Option (Nat × Nat) :=
  if bytes.length ≤ i then some (i, line)
  else do
    let b ← bytes[i]?
    if ascii b = '"' then some (i, line)
    else stringEnd bytes (i + 1) (line + newlines [ascii b])
termination_by bytes.length - i

def readString (bytes : List UInt8) (c : Cursor) : Option Cursor := do
  let (stop, line) ← stringEnd bytes (c.current + 1) c.line
  if bytes.length ≤ stop then return report { c with line } stop .unterminatedString
  else
    let _ ← bytes[stop]?
    let value ← slice? bytes (c.current + 1) stop
    push bytes { c with line } (stop + 1) (fun _ => .string) fun _ => some (.string value)

/-- Inside a number: the offset of its end. A point belongs to the number only if a digit
follows. -/
def numberEnd (bytes : List UInt8) (i : Nat) : Option Nat := do
  let whole ← readWhile bytes (fun b => (ascii b).isDigit) i
  let point ← peek? bytes whole
  let digit ← peek? bytes (whole + 1)
  if ascii point = '.' ∧ (ascii digit).isDigit then
    let _ ← bytes[whole]?
    readWhile bytes (fun b => (ascii b).isDigit) (whole + 1)
  else return whole

def readNumber (bytes : List UInt8) (c : Cursor) : Option Cursor := do
  let stop ← numberEnd bytes (c.current + 1)
  push bytes c stop (fun _ => .number) fun lexeme =>
    some (.number (Decimal.ofText lexeme.toList).toBinary64)

/-- Reads a mark, or a comment that begins like one, after its first character. -/
def readMark (bytes : List UInt8) (c : Cursor) (m : Mark) : Option Cursor := do
  let next ← peek? bytes (c.current + 1)
  if m = .slash ∧ ascii next = '/' then
    let stop ← skipWhile bytes (ascii · != '\n') (c.current + 2)
    return { c with start := c.current, current := stop }
  else
    match m.withEqual?, ascii next with
    | some m', '=' => push bytes c (c.current + 2) (fun _ => .mark m') fun _ => none
    | _, _ => push bytes c (c.current + 1) (fun _ => .mark m) fun _ => none

def step (bytes : List UInt8) (c : Cursor) : Option Cursor := do
  let first := ascii (← bytes[c.current]?)
  if first.isWhitespace then
    return { c with
      start := c.current
      current := c.current + 1
      line := c.line + newlines [first] }
  else if first = '"' then readString bytes c
  else if first.isDigit then readNumber bytes c
  else if isWordStart first then
    let stop ← readWhile bytes (fun b => isWordPart (ascii b)) (c.current + 1)
    push bytes c stop Kind.ofWord fun _ => none
  else
    match Mark.ofChar? first with
    | some m => readMark bytes c m
    | none =>
      let stop ← skipWhile bytes isContinuation (c.current + 1)
      return report c stop .unexpectedCharacter

/-! ## The cursor moves on -/

theorem le_of_stringEnd {bytes : List UInt8} {i line stop line' : Nat}
    (h : stringEnd bytes i line = some (stop, line')) : i ≤ stop := by
  fun_induction stringEnd bytes i line with
  | case1 =>
    cases h
    exact Nat.le_refl _
  | case2 i line hi ih =>
    obtain ⟨b, -, h⟩ := Option.bind_eq_some_iff.1 h
    split at h
    · cases h
      exact Nat.le_refl _
    · have := ih b h
      omega

theorem le_of_numberEnd {bytes : List UInt8} {i j : Nat} (h : numberEnd bytes i = some j) :
    i ≤ j := by
  simp only [numberEnd, Option.bind_eq_bind, Option.bind_eq_some_iff, Option.pure_def] at h
  obtain ⟨whole, hw, point, -, digit, -, h⟩ := h
  have := le_of_readWhile hw
  split at h
  · obtain ⟨_, -, h⟩ := Option.bind_eq_some_iff.1 h
    have := le_of_readWhile h
    omega
  · cases h
    assumption

theorem current_push {bytes : List UInt8} {c c' : Cursor} {stop : Nat} {kind : String → Kind}
    {literal : String → Option Literal} (h : push bytes c stop kind literal = some c') :
    c'.current = stop := by
  simp only [push, Option.bind_eq_bind, Option.bind_eq_some_iff, Option.pure_def] at h
  obtain ⟨lexeme, -, h⟩ := h
  cases h
  rfl

theorem current_lt_of_readString {bytes : List UInt8} {c c' : Cursor}
    (h : readString bytes c = some c') : c.current < c'.current := by
  simp only [readString, Option.bind_eq_bind, Option.bind_eq_some_iff, Option.pure_def] at h
  obtain ⟨⟨stop, line⟩, hs, h⟩ := h
  have := le_of_stringEnd hs
  split at h
  · cases h
    exact this
  · obtain ⟨_, -, h⟩ := Option.bind_eq_some_iff.1 h
    obtain ⟨value, -, h⟩ := Option.bind_eq_some_iff.1 h
    have := current_push h
    omega

theorem current_lt_of_readNumber {bytes : List UInt8} {c c' : Cursor}
    (h : readNumber bytes c = some c') : c.current < c'.current := by
  obtain ⟨stop, hs, h⟩ := Option.bind_eq_some_iff.1 h
  have := le_of_numberEnd hs
  have := current_push h
  omega

theorem current_lt_of_readMark {bytes : List UInt8} {c c' : Cursor} {m : Mark}
    (h : readMark bytes c m = some c') : c.current < c'.current := by
  simp only [readMark, Option.bind_eq_bind, Option.bind_eq_some_iff, Option.pure_def] at h
  obtain ⟨next, -, h⟩ := h
  split at h
  · obtain ⟨stop, hs, h⟩ := Option.bind_eq_some_iff.1 h
    have := le_of_skipWhile hs
    cases h
    dsimp only
    omega
  · split at h <;> have := current_push h <;> omega

theorem current_lt_of_step {bytes : List UInt8} {c c' : Cursor} (h : step bytes c = some c') :
    c.current < c'.current := by
  simp only [step, Option.bind_eq_bind, Option.bind_eq_some_iff, Option.pure_def] at h
  obtain ⟨first, -, h⟩ := h
  split at h
  · cases h
    exact Nat.lt_succ_self _
  split at h
  · exact current_lt_of_readString h
  split at h
  · exact current_lt_of_readNumber h
  split at h
  · obtain ⟨stop, hs, h⟩ := Option.bind_eq_some_iff.1 h
    have := le_of_readWhile hs
    have := current_push h
    omega
  split at h
  · exact current_lt_of_readMark h
  · obtain ⟨stop, hs, h⟩ := Option.bind_eq_some_iff.1 h
    have := le_of_skipWhile hs
    cases h
    exact this

/-! ## Runs -/

/-- Before the first byte, with nothing found. -/
def initial : Cursor := ⟨0, 0, 1, [], []⟩

/-- Steps until the cursor is at the end. -/
def run (bytes : List UInt8) (c : Cursor) : Option Cursor :=
  if bytes.length ≤ c.current then some c
  else
    match h : step bytes c with
    | none => none
    | some c' =>
      have := current_lt_of_step h
      run bytes c'
termination_by bytes.length - c.current

/-- The places between two segments where a run comes past. -/
inductive Reachable (bytes : List UInt8) : Cursor → Prop
  | initial : Reachable bytes initial
  | step {c c' : Cursor} : Reachable bytes c → c.current < bytes.length → step bytes c = some c' →
      Reachable bytes c'

/-- What the cursor has found, with the end of the source on its line. -/
def finish (c : Cursor) : Scan := ⟨c.tokens ++ [Token.eof c.line], c.errors⟩

def scan? (cs : List Char) : Option Scan := (run (utf8 cs) initial).map finish

/-- Characters of two bytes, a string over two lines, and a point that no digit follows. -/
example : scan? "é\"é\n\" 1.".toList = some (Scan.ofText "é\"é\n\" 1.".toList) := by decide +kernel

end Cursor

end LoxLexer
