import SceneBaker.Binary.Error
import SceneBaker.Text.Escape

/-! # Causes of a failed conversion, and log lines -/

namespace SceneBaker.Build

open Binary

/-- Why a source file gives no scene. -/
inductive ImportCause where
  /-- The file name has no known extension. -/
  | unknownType (path : String)
  /-- A primitive without readable positions. -/
  | noPositions (mesh : String)
  /-- The file cannot be read, or is no valid document. -/
  | unreadable (path reason : String)
deriving DecidableEq

def ImportCause.message : ImportCause → String
  | unknownType path => path ++ ": unsupported file type (expected .gltf or .glb)"
  | noPositions mesh => s!"mesh \"{mesh}\" has no positions"
  | unreadable path reason => path ++ ": " ++ reason

/-- What stops a conversion; nothing is written for a file with one of these. -/
inductive ConversionError where
  /-- A face whose number of corners is not its primitive's. -/
  | unsupportedFace (mesh : String) (corners expected : Nat)
  | unknownAnimationNode (animation node : String)
  | unknownBone (mesh bone : String)
  | boneWithoutNode (bone : String)
  | duplicateBoneNode (bone : String)
  | vertexOutOfRange (mesh : String) (vertex : UInt32) (count : Nat)
  | emptyScene
  | notImported (cause : ImportCause)
  | codec (cause : CodecError)
  /-- A file cannot be read or written. -/
  | inaccessible (reason : String)
deriving DecidableEq

def ConversionError.message : ConversionError → String
  | unsupportedFace mesh corners expected =>
    s!"mesh \"{mesh}\" has a face with {corners} corners, but only {expected}-corner faces are "
      ++ "supported"
  | unknownAnimationNode animation node =>
    s!"animation \"{animation}\" targets node \"{node}\" which does not exist in the model"
  | unknownBone mesh bone => s!"mesh \"{mesh}\" references unknown bone \"{bone}\""
  | boneWithoutNode bone => s!"bone \"{bone}\" has no node in the scene hierarchy"
  | duplicateBoneNode bone => s!"bone \"{bone}\" is claimed by more than one node"
  | vertexOutOfRange mesh vertex count =>
    s!"mesh \"{mesh}\" references vertex {vertex.toNat}, but it only has {count}"
  | emptyScene => "scene contains nothing to convert"
  | notImported cause => "import failed: " ++ cause.message
  | codec cause => cause.message
  | inaccessible reason => "IO error: " ++ reason

/-- How the conversion of one file ended. -/
inductive Status where
  | success | loadFailed | conversionFailed | saveFailed
deriving DecidableEq, Inhabited

namespace Status

def all : List Status := [success, loadFailed, conversionFailed, saveFailed]

def isSuccess (status : Status) : Bool := status == success

/-- The exit code. -/
def code : Status → UInt32
  | success => 0
  | loadFailed => 1
  | conversionFailed => 2
  | saveFailed => 3

def text : Status → String
  | success => "success"
  | loadFailed => "load failed"
  | conversionFailed => "conversion failed"
  | saveFailed => "save failed"

end Status

inductive Level where
  | error | warn | info | debug
deriving DecidableEq

def Level.text : Level → String
  | error => "ERROR"
  | warn => "WARN"
  | info => "INFO"
  | debug => "DEBUG"

/-- One line of the log. -/
structure LogLine where
  level : Level
  text : String
deriving DecidableEq

/-- The line as it is printed. -/
def LogLine.shown (line : LogLine) : LogLine := { line with text := Text.shown line.text }

end SceneBaker.Build
