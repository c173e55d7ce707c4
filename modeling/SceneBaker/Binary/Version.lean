/-! # Format revisions -/

namespace SceneBaker.Binary

/-- Revision stored behind the magic bytes of a file. -/
structure Version where
  major : UInt8
  minor : UInt8
deriving DecidableEq, Inhabited

namespace Version

/-- The revision that is written. -/
def current : Version := ⟨3, 3⟩

/-- Whether files of this revision can be read: older minors of the current major. -/
def supported (version : Version) : Bool :=
  version.major == current.major && version.minor ≤ current.minor

def text (version : Version) : String :=
  toString version.major.toNat ++ "." ++ toString version.minor.toNat

end Version

end SceneBaker.Binary
