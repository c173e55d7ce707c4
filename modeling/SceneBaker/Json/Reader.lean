import SceneBaker.Json.Basic

/-! # Reading JSON

A document is one value with blanks around it. It is read octet by octet, since strings that no one
asks for need not be text; a character of a `Scan` stands for an octet here.
-/

namespace SceneBaker.Json

open Text

def isBlank (c : Char) : Bool := c == ' ' || c == '\t' || c == '\n' || c == '\r'

def blanks : Scan Unit := do let _ ← Scan.many isBlank

/-! ## Strings -/

/-- A piece of a string: an octet, or the number of an escaped character or half of one. -/
inductive Piece where
  | octet (c : Char)
  | code (number : Nat)
deriving DecidableEq

/-- The character of two escaped halves. -/
def ofHalves? (high low : Nat) : Option Char :=
  if 0xdc00 ≤ low ∧ low ≤ 0xdfff then
    charOfCode? ((high - 0xd800) * 0x400 + (low - 0xdc00) + 0x10000)
  else none

/-- The octets of a string, if escaped halves come in pairs. -/
def octets? : List Piece → Option (List UInt8)
  | [] => some []
  | .octet c :: rest => (octets? rest).map (UInt8.ofNat c.toNat :: ·)
  | .code high :: .code low :: rest =>
    if 0xd800 ≤ high ∧ high ≤ 0xdbff then do
      let c ← ofHalves? high low
      return String.utf8EncodeChar c ++ (← octets? rest)
    else do
      let c ← charOfCode? high
      return String.utf8EncodeChar c ++ (← octets? (.code low :: rest))
  | .code number :: rest => do
    let c ← charOfCode? number
    return String.utf8EncodeChar c ++ (← octets? rest)

def textOf? (pieces : List Piece) : Option String := do
  let octets ← octets? pieces
  String.fromUTF8? ⟨octets.toArray⟩

/-- What follows a backslash. -/
def escape : Scan Piece := do
  match ← Scan.one fun _ => true with
  | '"' => pure (.octet '"')
  | '\\' => pure (.octet '\\')
  | '/' => pure (.octet '/')
  | 'b' => pure (.octet '\x08')
  | 'f' => pure (.octet '\x0c')
  | 'n' => pure (.octet '\n')
  | 'r' => pure (.octet '\r')
  | 't' => pure (.octet '\t')
  | 'u' => do
    let digits ← (List.range 4).mapM fun _ => Scan.one isHexDigit
    return .code (ofDigits 16 digits)
  | _ => failure

/-- The rest of a string and its closing quote. -/
def stringRest : (fuel : Nat) → Scan (List Piece)
  | 0 => failure
  | fuel + 1 => do
    let taken ← Scan.many fun c => c != '"' && c != '\\' && ' ' ≤ c
    match ← Scan.one fun c => c == '"' || c == '\\' with
    | '"' => return taken.map .octet
    | _ => do
      let escaped ← escape
      return taken.map .octet ++ escaped :: (← stringRest fuel)

def string (fuel : Nat) : Scan (Option String) := do
  Scan.char '"'
  return textOf? (← stringRest fuel)

/-! ## Numbers -/

def wholeDigits : Scan (List Char) :=
  (do Scan.char '0'; pure ['0'])
    <|> (do
      let first ← Scan.one fun c => c.isDigit && c != '0'
      return first :: (← Scan.many Char.isDigit))

def exponent : Scan Int := do
  let _ ← Scan.one fun c => c == 'e' || c == 'E'
  let sign ← Scan.optional (Scan.one fun c => c == '+' || c == '-')
  let size : Nat := ofDigits 10 (← Scan.some Char.isDigit)
  return if sign = some '-' then -size else size

def numeral : Scan Numeral := do
  let sign ← Scan.optional (Scan.char '-')
  let whole ← wholeDigits
  let fraction ← Scan.optional (do Scan.char '.'; Scan.some Char.isDigit)
  return ⟨sign.isSome, whole, fraction.getD [], ← Scan.optional exponent⟩

/-! ## Values -/

/-- Items with commas between them up to a closing bracket. The opening one has been read. -/
def series {α : Type} (item : Scan α) (close : Char) (fuel : Nat) : Scan (List α) := do
  let rec more : Nat → Scan (List α)
    | 0 => failure
    | fuel + 1 => do
      let first ← item
      blanks
      match ← Scan.one fun c => c == ',' || c == close with
      | ',' => return first :: (← more fuel)
      | _ => pure [first]
  blanks
  (do Scan.char close; pure []) <|> more fuel

/-- A name, a colon and a value. -/
def member (value : Scan Value) (fuel : Nat) : Scan (Option String × Value) := do
  blanks
  let name ← string fuel
  blanks
  Scan.char ':'
  return (name, ← value)

/-- A value with blanks before it. `fuel` bounds how deep values lie in one another. -/
def value : (fuel : Nat) → Scan Value
  | 0 => failure
  | fuel + 1 => do
    blanks
    match ← Scan.peek? with
    | some '\x7b' => do
      Scan.char '\x7b'
      .object <$> series (member (value fuel) fuel) '\x7d' fuel
    | some '[' => do
      Scan.char '['
      .array <$> series (value fuel) ']' fuel
    | some '"' => .string <$> string fuel
    | some 'n' => do Scan.text "null"; pure .null
    | some 't' => do Scan.text "true"; pure (.boolean true)
    | some 'f' => do Scan.text "false"; pure (.boolean false)
    | _ => .number <$> numeral

/-- The value that a document consists of. -/
def read? (octets : List UInt8) : Option Value :=
  let document : Scan Value := do
    let result ← value (octets.length + 1)
    blanks
    pure result
  document.whole (octets.map fun octet => Char.ofNat octet.toNat)

end SceneBaker.Json
