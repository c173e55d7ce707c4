/-! # Scanning text

A `Scan` takes a value off the front of a list of characters or fails, and a failed alternative
leaves the characters to the next one.
-/

namespace SceneBaker.Text

abbrev Scan : Type → Type := StateT (List Char) Option

namespace Scan

/-- The next character, left in place. -/
def peek? : Scan (Option Char) := return (← get).head?

/-- One character of a class. -/
def one (accept : Char → Bool) : Scan Char := do
  match ← get with
  | c :: rest => if accept c then do set rest; pure c else failure
  | [] => failure

def char (expected : Char) : Scan Unit := do let _ ← one (· == expected)

/-- Some given characters. -/
def text (expected : String) : Scan Unit := expected.toList.forM char

/-- All characters up to the first one outside a class. -/
def many (accept : Char → Bool) : Scan (List Char) := do
  let (taken, rest) := (← get).span accept
  set rest
  pure taken

/-- One or more characters of a class. -/
def some (accept : Char → Bool) : Scan (List Char) := do
  match ← many accept with
  | [] => failure
  | taken => pure taken

/-- The value of a scan, or none where it fails. -/
def optional {α : Type} (scan : Scan α) : Scan (Option α) :=
  (Option.some <$> scan) <|> pure none

def finished : Scan Bool := return (← get).isEmpty

/-- The value of a scan that uses up all characters. -/
def whole {α : Type} (scan : Scan α) (input : List Char) : Option α :=
  match scan input with
  | Option.some (value, []) => Option.some value
  | _ => none

end Scan

/-- The value of a digit in any base up to 16. -/
def digitValue (c : Char) : Nat :=
  if c.isDigit then c.toNat - '0'.toNat
  else if c.isLower then c.toNat - 'a'.toNat + 10
  else c.toNat - 'A'.toNat + 10

def isHexDigit (c : Char) : Bool :=
  c.isDigit || ('a' ≤ c && c ≤ 'f') || ('A' ≤ c && c ≤ 'F')

/-- The number that digits spell, most significant first. -/
def ofDigits (base : Nat) (digits : List Char) : Nat :=
  digits.foldl (fun number c => number * base + digitValue c) 0

/-- The character of a code point; surrogates and numbers beyond the last plane have none. -/
def charOfCode? (code : Nat) : Option Char :=
  if h : code.isValidChar then some (Char.ofNatAux code h) else none

end SceneBaker.Text
