import SceneBaker.Binary.Version
import SceneBaker.Number.Single

/-! # Causes of a failed encoding or decoding -/

namespace SceneBaker.Binary

open Number

/-- The kinds of entries that counts and indices refer to. -/
inductive Table where
  | node | bone | mesh | material | vertex | child | nodeMesh | animationNode | modelNode
deriving DecidableEq

def Table.label : Table → String
  | node => "node"
  | bone => "bone"
  | mesh => "mesh"
  | material => "material"
  | vertex => "vertex"
  | child => "child"
  | nodeMesh => "node mesh"
  | animationNode => "animation node"
  | modelNode => "model node"

/-- What can be wrong with a file, or with a value that is to be written as one. -/
inductive CodecError where
  /-- The data ends inside a value. -/
  | truncated
  /-- The file starts with other bytes than a magic. -/
  | unknownMagic (bytes : List UInt8)
  | unsupportedVersion (version : Version)
  /-- A string is not UTF-8. -/
  | malformedText
  | unknownPrimitive (code : UInt8)
  /-- A number stored as an index is no natural number of 32 bits. -/
  | malformedIndex (table : Table) (value : Single)
  | indexOutOfRange (table : Table) (index count : UInt32)
  | duplicateIndex (table : Table) (index : UInt32)
  /-- A stored count disagrees with the entries present. -/
  | countMismatch (table : Table) (stored : UInt32) (actual : Nat)
  /-- A count does not fit its 32-bit field. -/
  | countOverflow (table : Table) (count : Nat)
deriving DecidableEq

def CodecError.message : CodecError → String
  | truncated => "unexpected end of data (file is truncated)"
  | unknownMagic bytes =>
    "invalid magic: [" ++ ", ".intercalate (bytes.map fun byte => toString byte.toNat) ++ "]"
  | unsupportedVersion version => "unsupported version " ++ version.text
  | malformedText => "invalid UTF-8 in string"
  | unknownPrimitive code => s!"invalid primitive type {code.toNat}"
  | malformedIndex table value => s!"invalid {table.label} index {value.text}"
  | indexOutOfRange table index count =>
    s!"{table.label} index {index.toNat} out of range (count {count.toNat})"
  | duplicateIndex table index => s!"{table.label} index {index.toNat} is used more than once"
  | countMismatch table stored actual =>
    s!"{table.label} count {stored.toNat} does not match actual count {actual}"
  | countOverflow table count => s!"{table.label} count {count} does not fit in u32"

end SceneBaker.Binary
