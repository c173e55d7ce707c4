import SceneBaker.Text.Scan
import SceneBaker.Toml.Basic

/-! # Reading TOML

`Toml.read?` gives the top-level table of a document. A document with an error anywhere gives none,
so a caller never sees half of a document.
-/

namespace SceneBaker.Toml

open Number Text

/-! ## Blanks and comments -/

def isBlank (c : Char) : Bool := c == ' ' || c == '\t'

/-- Characters that may not stand in comments and strings. -/
def isControl (c : Char) : Bool := (c < ' ' && c != '\t') || c == '\x7f'

def blanks : Scan Unit := do let _ ← Scan.many isBlank

/-- A line feed, or a carriage return and a line feed. -/
def newline : Scan Unit := Scan.char '\n' <|> Scan.text "\r\n"

def comment : Scan Unit := do
  Scan.char '#'
  let _ ← Scan.many fun c => !isControl c

/-- Blanks, a comment if there is one, and the end of the line or of the document. -/
def lineEnd : Scan Unit := do
  blanks
  let _ ← Scan.optional comment
  if ← Scan.finished then pure () else newline

/-- Blanks, comments and line breaks, as they may stand between brackets. -/
def gap : (fuel : Nat) → Scan Unit
  | 0 => pure ()
  | fuel + 1 => do
    blanks
    let _ ← Scan.optional comment
    match ← Scan.optional newline with
    | some _ => gap fuel
    | none => pure ()

/-! ## Strings -/

/-- The character of an escape, behind its backslash. -/
def escape : Scan Char := do
  let code (count : Nat) : Scan Char := do
    let digits ← (List.range count).mapM fun _ => Scan.one isHexDigit
    match charOfCode? (ofDigits 16 digits) with
    | some c => pure c
    | none => failure
  match ← Scan.one fun _ => true with
  | 'b' => pure '\x08'
  | 'e' => pure '\x1b'
  | 't' => pure '\t'
  | 'n' => pure '\n'
  | 'f' => pure '\x0c'
  | 'r' => pure '\r'
  | '"' => pure '"'
  | '\\' => pure '\\'
  | 'x' => code 2
  | 'u' => code 4
  | 'U' => code 8
  | _ => failure

/-- The rest of a basic string and its closing quote. -/
def basicRest : (fuel : Nat) → Scan (List Char)
  | 0 => failure
  | fuel + 1 => do
    match ← Scan.one fun c => !isControl c with
    | '"' => pure []
    | '\\' => do
      let c ← escape
      return c :: (← basicRest fuel)
    | c => return c :: (← basicRest fuel)

/-- The rest of a literal string and its closing quote. -/
def literalRest : Scan (List Char) := do
  let content ← Scan.many fun c => c != '\'' && !isControl c
  Scan.char '\''
  pure content

/-- Blanks and line breaks behind a backslash at the end of a line. -/
def lineContinuation (fuel : Nat) : Scan Unit := do
  blanks
  newline
  let rec skip : Nat → Scan Unit
    | 0 => pure ()
    | fuel + 1 => do
      blanks
      match ← Scan.optional newline with
      | some _ => skip fuel
      | none => pure ()
  skip fuel

/-- The rest of a string in three quotes. Up to two quotes more may stand before the closing ones. -/
def multilineRest (quote : Char) (escapes : Bool) : (fuel : Nat) → Scan (List Char)
  | 0 => failure
  | fuel + 1 => do
    let quotes ← Scan.many (· == quote)
    if 5 < quotes.length then failure
    else if 3 ≤ quotes.length then pure (quotes.drop 3)
    else
      match ← Scan.optional newline with
      | some _ => return quotes ++ '\n' :: (← multilineRest quote escapes fuel)
      | none =>
        match ← Scan.one fun c => !isControl c with
        | '\\' =>
          if escapes then
            match ← Scan.optional (lineContinuation fuel) with
            | some _ => return quotes ++ (← multilineRest quote escapes fuel)
            | none => do
              let c ← escape
              return quotes ++ c :: (← multilineRest quote escapes fuel)
          else return quotes ++ '\\' :: (← multilineRest quote escapes fuel)
        | c => return quotes ++ c :: (← multilineRest quote escapes fuel)

/-- A string of any kind. A line break behind three opening quotes is not part of it. -/
def string (fuel : Nat) : Scan String := do
  let multiline (quote : Char) (escapes : Bool) : Scan (List Char) := do
    Scan.text (String.ofList [quote, quote, quote])
    let _ ← Scan.optional newline
    multilineRest quote escapes fuel
  let content ← multiline '"' true <|> multiline '\'' false
    <|> (do Scan.char '"'; basicRest fuel) <|> (do Scan.char '\''; literalRest)
  return String.ofList content

/-! ## Keys -/

def isKeyChar (c : Char) : Bool := c.isAlphanum || c == '_' || c == '-'

def simpleKey (fuel : Nat) : Scan String :=
  (String.ofList <$> Scan.some isKeyChar)
    <|> (do Scan.char '"'; String.ofList <$> basicRest fuel)
    <|> (do Scan.char '\''; String.ofList <$> literalRest)

/-- Keys joined with dots, blanks around them. -/
def dottedKeys : (fuel : Nat) → Scan (List String)
  | 0 => failure
  | fuel + 1 => do
    blanks
    let key ← simpleKey fuel
    blanks
    match ← Scan.optional (Scan.char '.') with
    | some _ => return key :: (← dottedKeys fuel)
    | none => pure [key]

/-- How deep a document goes: the keys that one path may have, and the brackets that may lie in one
another. -/
def maxDepth : Nat := 80

/-- A dotted key that is not too long. -/
def keyPath (fuel : Nat) : Scan (List String) := do
  let keys ← dottedKeys fuel
  if keys.length ≤ maxDepth then pure keys else failure

/-! ## Numbers and times -/

/-- Digits with single underscores between them. -/
def digitGroups? (isDigit : Char → Bool) (input : List Char) : Option (List Char) :=
  let groups := input.splitOn '_'
  if groups.all fun group => !group.isEmpty && group.all isDigit then some groups.flatten else none

/-- Decimal digits without a leading zero. -/
def plainDigits? (input : List Char) : Option (List Char) := do
  let digits ← digitGroups? Char.isDigit input
  if digits.head? == some '0' && digits.length != 1 then none else some digits

/-- The sign of a number and the rest of it. -/
def splitSign : List Char → Bool × List Char
  | '-' :: rest => (true, rest)
  | '+' :: rest => (false, rest)
  | input => (false, input)

/-- A whole number of any size. -/
def wholeNumber? (input : List Char) : Option Int := do
  match input with
  | '0' :: 'x' :: rest => return ofDigits 16 (← digitGroups? isHexDigit rest)
  | '0' :: 'o' :: rest => return ofDigits 8 (← digitGroups? (fun c => '0' ≤ c && c ≤ '7') rest)
  | '0' :: 'b' :: rest => return ofDigits 2 (← digitGroups? (fun c => c == '0' || c == '1') rest)
  | _ =>
    let (negative, digits) := splitSign input
    let number := ofDigits 10 (← plainDigits? digits)
    return if negative then -number else number

/-- A whole number of 128 bits, signed or not. One that is too large is an error wherever it
stands. -/
def integer? (input : List Char) : Option Int := do
  let number ← wholeNumber? input
  if -(2 ^ 127) ≤ number ∧ number < 2 ^ 128 then some number else none

/-- A decimal with a fraction, an exponent or both. One that is too large for any double is an
error. -/
def decimal? (input : List Char) : Option Double := do
  let (negative, body) := splitSign input
  let isMark (c : Char) : Bool := c == 'e' || c == 'E'
  let (mantissa, power) := body.span fun c => !isMark c
  let (whole, fraction) := mantissa.span (· != '.')
  if fraction.isEmpty && power.isEmpty then none
  let wholeDigits ← plainDigits? whole
  let fractionDigits ← match fraction with
    | [] => some []
    | _ :: digits => digitGroups? Char.isDigit digits
  let exponent : Int ← match power with
    | [] => some 0
    | _ :: digits =>
      let (below, digits) := splitSign digits
      (digitGroups? Char.isDigit digits).map fun digits =>
        if below then -(ofDigits 10 digits : Int) else ofDigits 10 digits
  let magnitude := Layout.double.ofDecimal (ofDigits 10 (wholeDigits ++ fractionDigits))
    (exponent - fractionDigits.length)
  if magnitude = Layout.double.infinity then none
  return Double.ofMagnitude negative magnitude

def float? (input : List Char) : Option Double :=
  let (negative, body) := splitSign input
  if body = "inf".toList then some (Double.ofMagnitude negative Layout.double.infinity)
  else if body = "nan".toList then
    some (Double.ofMagnitude negative (Layout.double.infinity + 2 ^ 51))
  else decimal? input

/-- Exactly `count` digits whose number lies in a range. -/
def field (count low high : Nat) : Scan Nat := do
  let digits ← (List.range count).mapM fun _ => Scan.one Char.isDigit
  let number := ofDigits 10 digits
  if low ≤ number && number ≤ high then pure number else failure

def monthDays (year month : Nat) : Nat :=
  if month == 2 then
    if year % 4 == 0 && (year % 100 != 0 || year % 400 == 0) then 29 else 28
  else if month == 4 || month == 6 || month == 9 || month == 11 then 30
  else 31

def date : Scan Unit := do
  let year ← field 4 0 9999
  Scan.char '-'
  let month ← field 2 1 12
  Scan.char '-'
  let _ ← field 2 1 (monthDays year month)

/-- Seconds and maybe a fraction of one. -/
def seconds : Scan Unit := do
  Scan.char ':'
  let _ ← field 2 0 60
  let _ ← Scan.optional (do Scan.char '.'; let _ ← Scan.some Char.isDigit)

/-- Hours and minutes; seconds may be left out. -/
def time : Scan Unit := do
  let _ ← field 2 0 23
  Scan.char ':'
  let _ ← field 2 0 59
  let _ ← Scan.optional seconds

def timeOffset : Scan Unit := do
  let _ ← (Scan.one fun c => c == 'Z' || c == 'z') <|> (do
    let sign ← Scan.one fun c => c == '+' || c == '-'
    let _ ← field 2 0 23
    Scan.char ':'
    let _ ← field 2 0 59
    pure sign)

/-- A date, a time, or both with or without an offset. -/
def datetime : Scan Unit :=
  (do
    date
    let _ ← Scan.optional (do
      let _ ← Scan.one fun c => c == 'T' || c == 't' || c == ' '
      time
      let _ ← Scan.optional timeOffset))
  <|> time

def isBareChar (c : Char) : Bool :=
  c.isAlphanum || c == '+' || c == '-' || c == '_' || c == '.' || c == ':'

/-- A value written without quotes or brackets. -/
def bare : Scan Value := do
  let timed : Scan Value := do
    datetime
    match ← Scan.peek? with
    | some c => if isBareChar c then failure else pure .datetime
    | none => pure .datetime
  timed <|> do
    let word ← Scan.some isBareChar
    if word = "true".toList then pure (.boolean true)
    else if word = "false".toList then pure (.boolean false)
    else
      match integer? word, float? word with
      | some number, _ => pure (.integer number)
      | none, some number => pure (.float number)
      | none, none => failure

/-! ## Values -/

mutual

/-- A value in which at most `depth` brackets lie in one another. -/
def value (depth : Nat) : (fuel : Nat) → Scan Value
  | 0 => failure
  | fuel + 1 => do
    match ← Scan.peek?, depth with
    | some '"', _ | some '\'', _ => .string <$> string fuel
    | some '[', depth + 1 => do
      Scan.char '['
      .array <$> arrayRest depth fuel
    | some '\x7b', depth + 1 => do
      Scan.char '\x7b'
      let entries ← inlineRest depth fuel []
      pure (.table (Item.toEntries entries))
    | _, _ => bare

/-- The values of an array and its closing bracket; a comma may follow the last value. -/
def arrayRest (depth : Nat) : (fuel : Nat) → Scan (List Value)
  | 0 => failure
  | fuel + 1 => do
    gap fuel
    match ← Scan.optional (Scan.char ']') with
    | some _ => pure []
    | none => do
      let first ← value depth fuel
      gap fuel
      match ← Scan.optional (Scan.char ',') with
      | some _ => return first :: (← arrayRest depth fuel)
      | none => do
        Scan.char ']'
        pure [first]

/-- The entries of an inline table and its closing brace, behind the ones read before; a comma may
follow the last entry. -/
def inlineRest (depth : Nat) : (fuel : Nat) → Entries → Scan Entries
  | 0, _ => failure
  | fuel + 1, entries => do
    gap fuel
    match ← Scan.optional (Scan.char '\x7d') with
    | some _ => pure entries
    | none => do
      let path ← keyPath fuel
      gap fuel
      Scan.char '='
      gap fuel
      let entry ← value depth fuel
      gap fuel
      match entries.assign path entry with
      | none => failure
      | some entries =>
        match ← Scan.optional (Scan.char ',') with
        | some _ => inlineRest depth fuel entries
        | none => do
          Scan.char '\x7d'
          pure entries

end

/-! ## Documents -/

def statement (fuel : Nat) : Scan Statement :=
  (do
    Scan.text "[["
    let path ← keyPath fuel
    Scan.text "]]"
    pure (.arrayHeader path))
  <|> (do
    Scan.char '['
    let path ← keyPath fuel
    Scan.char ']'
    pure (.header path))
  <|> (do
    let path ← keyPath fuel
    Scan.char '='
    blanks
    return .assign path (← value maxDepth fuel))

/-- The statements of a document, each on a line of its own. -/
def statements : (fuel : Nat) → Scan (List Statement)
  | 0 => failure
  | fuel + 1 => do
    blanks
    if ← Scan.finished then pure []
    else
      match ← Scan.optional lineEnd with
      | some _ => statements fuel
      | none => do
        let first ← statement fuel
        lineEnd
        return first :: (← statements fuel)

/-- The top-level table of a document. A byte order mark at its start is passed over. -/
def read? (document : String) : Option (List (String × Value)) := do
  let input := match document.toList with
    | '\ufeff' :: rest => rest
    | input => input
  let parsed ← Scan.whole (statements (input.length + 2)) input
  return Item.toEntries (← Entries.run [] parsed [])

end SceneBaker.Toml
