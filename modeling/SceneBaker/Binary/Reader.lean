import SceneBaker.Binary.Error
import SceneBaker.Geometry.DualQuat
import SceneBaker.Number.Double

/-! # Reading values from bytes

A `Reader` takes a value off the front of the data and hands on the rest, or gives the cause of its
failure. A value that needs more bytes than there are fails as truncated, so reading never looks
beyond the data.
-/

namespace SceneBaker.Binary

open Number SceneBaker.Geometry

/-- Takes a value off the front of some bytes. -/
def Reader (α : Type) : Type := List UInt8 → Except CodecError (α × List UInt8)

namespace Reader

variable {α : Type}

instance : Monad Reader where
  pure a bytes := .ok (a, bytes)
  bind reader next bytes :=
    match reader bytes with
    | .ok (a, rest) => next a rest
    | .error cause => .error cause

def fail (cause : CodecError) : Reader α := fun _ => .error cause

/-- Hand on a result that was computed without reading. -/
def ofExcept : Except CodecError α → Reader α
  | .ok a => pure a
  | .error cause => fail cause

/-- The value alone; bytes behind it are allowed. -/
def run (reader : Reader α) (bytes : List UInt8) : Except CodecError α :=
  (reader bytes).map (·.1)

private def timesFrom (reader : Reader α) : Nat → List α → Reader (List α)
  | 0, values => pure values.reverse
  | count + 1, values => fun bytes =>
    match reader bytes with
    | .ok (a, rest) => timesFrom reader count (a :: values) rest
    | .error cause => .error cause

/-- Read `count` values one after another. -/
def times (count : Nat) (reader : Reader α) : Reader (List α) := timesFrom reader count []

private theorem timesFrom_eq (reader : Reader α) (count : Nat) (values : List α)
    (bytes : List UInt8) :
    timesFrom reader count values bytes =
      (times count reader bytes).map fun (more, rest) => (values.reverse ++ more, rest) := by
  induction count generalizing values bytes with
  | zero => simp [times, timesFrom, pure, Except.map]
  | succ count ih =>
    simp only [times, timesFrom]
    cases reader bytes with
    | error cause => rfl
    | ok first =>
      simp only [ih (first.1 :: values), ih [first.1]]
      cases times count reader first.2 <;> simp [Except.map]

@[simp] theorem times_zero (reader : Reader α) : times 0 reader = pure [] := rfl

theorem times_succ (count : Nat) (reader : Reader α) :
    times (count + 1) reader = do
      let first ← reader
      let rest ← times count reader
      return first :: rest := by
  funext bytes
  simp only [times, timesFrom, bind, pure]
  cases reader bytes with
  | error cause => rfl
  | ok first =>
    simp only [timesFrom_eq reader count [first.1]]
    simp only [times]
    cases timesFrom reader count [] first.2 <;> simp [Except.map]

/-- The first `count` bytes and the rest, if there are as many. -/
def split? : Nat → List UInt8 → Option (List UInt8 × List UInt8)
  | 0, bytes => some ([], bytes)
  | _ + 1, [] => none
  | count + 1, byte :: bytes => (split? count bytes).map fun (front, rest) => (byte :: front, rest)

/-- The first `count` bytes as they are. -/
def take (count : Nat) : Reader (List UInt8) := fun bytes =>
  match split? count bytes with
  | some (front, rest) => .ok (front, rest)
  | none => .error .truncated

/-- The number that some bytes spell, least significant byte first. -/
def ofLittleEndian : List UInt8 → Nat
  | [] => 0
  | byte :: bytes => byte.toNat + 256 * ofLittleEndian bytes

/-- An unsigned number of `width` bytes. -/
def unsigned (width : Nat) : Reader Nat := return ofLittleEndian (← take width)

def u8 : Reader UInt8 := return UInt8.ofNat (← unsigned 1)

/-- Any byte but zero is true. -/
def bool : Reader Bool := return (← u8) != 0

def u32 : Reader UInt32 := return UInt32.ofNat (← unsigned 4)

def i32 : Reader Int32 := return (← u32).toInt32

def single : Reader Single := return ⟨← u32⟩

def double : Reader Double := return ⟨UInt64.ofNat (← unsigned 8)⟩

def vec2 : Reader (Vec2 Single) := return ⟨← single, ← single⟩

def vec3 : Reader (Vec3 Single) := return ⟨← single, ← single, ← single⟩

def vec4 : Reader (Vec4 Single) := return ⟨← single, ← single, ← single, ← single⟩

def quat : Reader (Quat Single) := return ⟨← single, ← single, ← single, ← single⟩

def dualQuat : Reader (DualQuat Single) := return ⟨← quat, ← quat⟩

/-- Text up to a zero byte. The zero is looked for first, so text without one is truncated even if
it is malformed. -/
def text : Reader String := fun bytes =>
  match bytes.span (· != 0) with
  | (_, []) => .error .truncated
  | (content, _ :: rest) =>
    match String.fromUTF8? ⟨content.toArray⟩ with
    | some value => .ok (value, rest)
    | none => .error .malformedText

end Reader

/-- The index that a stored number stands for: a finite whole number from 0 to 2³², where the upper
end stands for the largest index. -/
def indexOf (table : Table) (value : Single) : Except CodecError UInt32 :=
  if value.isWhole && 0 ≤ value && value ≤ Single.ofNat 0xffffffff then .ok value.toUInt32
  else .error (.malformedIndex table value)

/-- An index stored as a number. -/
def Reader.index (table : Table) : Reader UInt32 := do
  .ofExcept (indexOf table (← single))

end SceneBaker.Binary
