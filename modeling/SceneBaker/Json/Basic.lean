import SceneBaker.Number.Double
import SceneBaker.Text.Scan

/-! # JSON values

A number keeps the digits that were written, since whole numbers and fractions are read by different
rules. Between quotes any octets may stand, but only octets that spell text can be read as text.
-/

namespace SceneBaker.Json

open Number Text

/-- A number as it is written. -/
structure Numeral where
  negative : Bool := false
  whole : List Char
  /-- The digits behind the point. -/
  fraction : List Char := []
  exponent : Option Int := none
deriving DecidableEq, Inhabited

namespace Numeral

/-- Whether there are neither a point nor an exponent. -/
def isWhole (numeral : Numeral) : Bool := numeral.fraction.isEmpty && numeral.exponent.isNone

/-- The number in front of the point. -/
def magnitude (numeral : Numeral) : Nat := ofDigits 10 numeral.whole

/-- Append digits to a number as long as 64 bits hold it, and give the digits left over. -/
def gather : Nat → List Char → Nat × List Char
  | number, [] => (number, [])
  | number, c :: digits =>
    let longer := number * 10 + digitValue c
    if longer < 2 ^ 64 then gather longer digits else (number, c :: digits)

/-- The digits as one number, and the power of ten that it is to be multiplied with. -/
def scaled (numeral : Numeral) : Nat × Int :=
  let (front, dropped) := gather 0 numeral.whole
  let (digits, rest) := gather front numeral.fraction
  (digits, numeral.exponent.getD 0 + (dropped.length : Int) + rest.length - numeral.fraction.length)

/-- The largest power of ten among doubles. -/
def maxPower : Nat := 308

def powerOfTen (power : Nat) : Double :=
  Double.ofMagnitude false (Layout.double.ofDecimal 1 power)

/-- A value divided by a power of ten. A power that is no double is divided off in steps, until
nothing is left of the value. -/
def shrink (value : Double) (power : Nat) : Double :=
  if power ≤ maxPower then value / powerOfTen power
  else if value.numEq 0 then value
  else shrink (value / powerOfTen maxPower) (power - maxPower)
termination_by power
decreasing_by simp_all [maxPower]; omega

/-- A value times a power of ten, if that is finite. -/
def grow? (value : Double) (power : Nat) : Option Double :=
  if power ≤ maxPower then
    let product := value * powerOfTen power
    if product.isFinite then some product else none
  else if value.numEq 0 then some value
  else none

/-- The digits scaled in double precision, if the number is in range. -/
def toDouble? (numeral : Numeral) : Option Double :=
  let (digits, power) := numeral.scaled
  let value := Double.ofNat digits
  let result := if power < 0 then some (shrink value power.natAbs) else grow? value power.natAbs
  result.map fun magnitude => Double.ofMagnitude numeral.negative magnitude.magnitude

/-- A whole number of 64 bits. -/
def toNat? (numeral : Numeral) : Option Nat :=
  if numeral.isWhole && !numeral.negative && numeral.magnitude < 2 ^ 64 then some numeral.magnitude
  else none

/-- The nearest single to a whole number of 64 bits, signed or not; any other number goes through
double precision. -/
def toSingle? (numeral : Numeral) : Option Single :=
  let limit := if numeral.negative then 2 ^ 63 + 1 else 2 ^ 64
  if numeral.isWhole && numeral.magnitude < limit then
    some (Single.ofMagnitude numeral.negative (Layout.single.ofScaled numeral.magnitude 0))
  else numeral.toDouble?.map Double.toSingle

end Numeral

inductive Value where
  | null
  | boolean (value : Bool)
  | number (numeral : Numeral)
  /-- A string; there is no text in it if its octets spell none. -/
  | string (text : Option String)
  | array (items : List Value)
  | object (members : List (Option String × Value))
deriving Inhabited

/-- The members of an object in the order in which they are written. -/
abbrev Members : Type := List (String × Value)

/-- How many brackets of a document may lie in one another, where all of it is read. -/
def maxDepth : Nat := 127

namespace Value

def boolean? : Value → Option Bool
  | boolean value => some value
  | _ => none

def nat? : Value → Option Nat
  | number numeral => numeral.toNat?
  | _ => none

def single? : Value → Option Single
  | number numeral => numeral.toSingle?
  | _ => none

def text? : Value → Option String
  | string text => text
  | _ => none

/-- The items of an array, if every one of them can be read. -/
def list? {α : Type} (item : Value → Option α) : Value → Option (List α)
  | array items => items.mapM item
  | _ => none

/-- The members of an object, if every name is text. -/
def members? : Value → Option Members
  | object members => members.mapM fun (name, value) => name.map (·, value)
  | _ => none

mutual

/-- Whether all numbers are in range, all strings are text and at most `depth` brackets lie in one
another. -/
def isPlain : Value → (depth : Nat) → Bool
  | null, _ | boolean _, _ => true
  | number numeral, _ => numeral.toDouble?.isSome
  | string text, _ => text.isSome
  | array _, 0 | object _, 0 => false
  | array items, depth + 1 => arePlain items depth
  | object members, depth + 1 => membersPlain members depth

def arePlain : List Value → (depth : Nat) → Bool
  | [], _ => true
  | item :: items, depth => item.isPlain depth && arePlain items depth

def membersPlain : List (Option String × Value) → (depth : Nat) → Bool
  | [], _ => true
  | (name, value) :: members, depth =>
    name.isSome && value.isPlain depth && membersPlain members depth

end

/-- A value of which nothing else is asked. -/
def plain? (depth : Nat) (value : Value) : Option Value :=
  if value.isPlain depth then some value else none

end Value

namespace Members

variable {α : Type}

/-- The member of a name, if there is one; a name may not come twice. -/
def only? (members : Members) (name : String) : Option (Option Value) :=
  match members.filter (·.1 == name) with
  | [] => some none
  | [(_, value)] => some (some value)
  | _ => none

def required? (members : Members) (name : String) (read : Value → Option α) : Option α :=
  members.only? name >>= (· >>= read)

/-- A member that may be missing or null. -/
def optional? (members : Members) (name : String) (read : Value → Option α) : Option (Option α) :=
  members.only? name >>= fun
    | none | some .null => some none
    | some value => some <$> read value

/-- A member that may be missing, but not null. -/
def withDefault? (members : Members) (name : String) (read : Value → Option α) (default : α) :
    Option α :=
  members.only? name >>= fun
    | none => some default
    | some value => read value

end Members

end SceneBaker.Json
