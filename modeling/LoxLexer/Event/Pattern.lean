/-!
# Patterns of field values

The value that a directive asks of a field is a number or a regular expression. A filter never
matches it here, for events outside spans have no values to match, but a text that is neither makes
the directive unreadable. `isPattern` goes through an expression a character at a time and keeps in
mind how many groups and bracketed classes are open and whether there is something to repeat.

Not supported are classes that name sets of characters beyond ASCII, word boundaries, and characters
by their code. A counted repetition cannot occur, because its closing brace would end the field.
-/

namespace LoxLexer

namespace Pattern

/-- Where in an expression a reader is; `groups` and `classes` are open around it. -/
inductive Place where
  /-- Outside classes. There is something that a repetition can follow, or not. -/
  | plain (groups : Nat) (repeatable : Bool)
  | escape (groups : Nat)
  | opened (groups : Nat)
  /-- After the question mark that begins the head of a group. -/
  | head (groups : Nat)
  /-- Among the flags in the head of a group, the last of which is a hyphen or not. -/
  | flags (groups : Nat) (dangling : Bool)
  /-- After the letter that announces a name in the head of a group. -/
  | beforeName (groups : Nat)
  /-- In the name of a group, which is empty as yet or not. -/
  | name (groups : Nat) (isEmpty : Bool)
  /-- At the beginning of a class, where a closing bracket stands for itself. -/
  | classStart (groups classes : Nat) (mayNegate : Bool)
  /-- In a class, where a closing bracket closes it. -/
  | inClass (groups classes : Nat)
  | classEscape (groups classes : Nat)
deriving DecidableEq, Repr

/-- The characters of punctuation that a backslash can precede. -/
def isPunctuation (c : Char) : Bool :=
  33 ≤ c.toNat && c.toNat < 127 && !c.isAlphanum && c != '<' && c != '>'

/-- The letters that stand for a control character after a backslash. -/
def controlLetters : List Char := ['a', 'f', 'n', 'r', 't', 'v']

/-- The letters that stand for an end of the text after a backslash. -/
def anchorLetters : List Char := ['A', 'z']

def flagLetters : List Char := ['i', 'm', 's', 'u', 'U', 'R', 'x']

namespace Place

def afterPlain (groups : Nat) (repeatable : Bool) (c : Char) : Option Place :=
  match c with
  | '(' => some (opened groups)
  | ')' => if groups = 0 then none else some (plain (groups - 1) true)
  | '[' => some (classStart groups 1 true)
  | '\\' => some (escape groups)
  | '|' => some (plain groups false)
  | '*' | '+' | '?' => if repeatable then some (plain groups true) else none
  | '\x7b' => none
  | _ => some (plain groups true)

def afterInClass (groups classes : Nat) (c : Char) : Place :=
  match c with
  | '[' => classStart groups (classes + 1) true
  | ']' => if classes ≤ 1 then plain groups true else inClass groups (classes - 1)
  | '\\' => classEscape groups classes
  | _ => inClass groups classes

/-- The place after a flag or a hyphen in the head of a group. -/
def afterFlag (groups : Nat) (c : Char) : Option Place :=
  if c = '-' then some (flags groups true)
  else if flagLetters.contains c then some (flags groups false)
  else none

/-- The place after one more character, if the expression can go on with it. -/
def next (place : Place) (c : Char) : Option Place :=
  match place, c with
  | plain groups repeatable, c => afterPlain groups repeatable c
  | escape groups, c =>
    if isPunctuation c || controlLetters.contains c || anchorLetters.contains c then
      some (plain groups true)
    else none
  | opened groups, '?' => some (head groups)
  | opened groups, c => afterPlain (groups + 1) false c
  | head groups, ':' => some (plain (groups + 1) false)
  | head groups, 'P' => some (beforeName groups)
  | head groups, '<' => some (name groups true)
  | head groups, c => afterFlag groups c
  | flags groups false, ':' => some (plain (groups + 1) false)
  | flags groups false, ')' => some (plain groups false)
  | flags groups _, c => afterFlag groups c
  | beforeName groups, '<' => some (name groups true)
  | beforeName _, _ => none
  | name groups false, '>' => some (plain (groups + 1) false)
  | name groups isEmpty, c =>
    if c.isAlpha || c == '_' || (!isEmpty && c.isDigit) then some (name groups false) else none
  | classStart groups classes true, '^' => some (classStart groups classes false)
  | classStart groups classes _, ']' => some (inClass groups classes)
  | classStart groups classes _, c => some (afterInClass groups classes c)
  | inClass groups classes, c => some (afterInClass groups classes c)
  | classEscape groups classes, c =>
    if isPunctuation c || controlLetters.contains c then some (inClass groups classes) else none

end Place

def isExpression (text : List Char) : Bool :=
  match text.foldlM Place.next (.plain 0 false) with
  | some (.plain 0 _) => true
  | _ => false

/-- The digits, the point and the exponent of a number in positional notation. -/
def isDecimal (text : List Char) : Bool :=
  let fraction := text.dropWhile Char.isDigit
  let afterPoint := if fraction.head? = some '.' then fraction.tail else fraction
  let exponent := afterPoint.dropWhile Char.isDigit
  let digits := (text.takeWhile Char.isDigit) ++ (afterPoint.takeWhile Char.isDigit)
  digits ≠ [] && match exponent with
    | [] => true
    | e :: power =>
      let power := if power.head? = some '+' || power.head? = some '-' then power.tail else power
      e.toLower == 'e' && power ≠ [] && power.all Char.isDigit

/-- A number after a plus sign. Without the sign it would be an expression, too. -/
def isSignedNumber (text : List Char) : Bool :=
  match text with
  | '+' :: number =>
    isDecimal number ||
      ["inf", "infinity", "nan"].contains (String.ofList (number.map Char.toLower))
  | _ => false

end Pattern

def isPattern (text : List Char) : Bool := Pattern.isSignedNumber text || Pattern.isExpression text

example : isPattern "Un.*ed (a|b)+[^]x]?".toList = true ∧ isPattern "+1.5e3".toList = true := by
  decide +kernel

example : ["(", "a)", "*", "[", "\\", "(?", "a|*"].all (!isPattern ·.toList) = true := by
  decide +kernel

end LoxLexer
