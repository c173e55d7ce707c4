import SceneBaker.Files.Store
import SceneBaker.Gltf.Container
import SceneBaker.Gltf.Schema
import SceneBaker.Gltf.Items
import SceneBaker.Json.Reader
import SceneBaker.Text.Base64
import SceneBaker.Text.Percent

/-! # Reading documents with their buffers

A buffer without an address is the data of the container, which can be taken once. An address either
holds its data itself or names a file, relative to the document. All addresses are followed before
anything is read from a buffer. Images are not used, but each has to be there, in a known format.
-/

namespace SceneBaker.Gltf

open Files Text

/-- Where a buffer's octets are. -/
inductive Location where
  /-- Base 64 in the address itself, maybe with a media type. -/
  | inline (mediaType : Option String) (text : String)
  /-- A file as the working directory sees it. -/
  | file (path : Path)
  /-- A file as the document's directory sees it, with percent escapes. -/
  | beside (path : String)
  | unsupported
deriving DecidableEq

namespace Location

/-- The rest of a text behind its start. -/
def behind? (start : String) (text : List Char) : Option String :=
  if start.toList.isPrefixOf text then some (String.ofList (text.drop start.length)) else none

/-- What marks data as base 64. -/
def mark : String := ";base64,"

/-- The media type stands before the first mark and the data behind it, up to the next one; without
a mark, everything is data. -/
def ofData (text : String) : Location :=
  match text.splitOn mark with
  | mediaType :: data :: _ => inline (some mediaType) data
  | _ => inline none text

def ofUri (uri : String) : Location :=
  let text := uri.toList
  if text.contains ':' then
    match behind? "data:" text, behind? "file://" text, behind? "file:" text with
    | some data, _, _ => ofData data
    | none, some path, _ => file path
    | none, none, some path => file path
    | none, none, none => unsupported
  else beside uri

/-- The octets at a place; a file that the document names is looked up below `directory`. -/
def load (store : Store) (directory : Path) : Location → Except String (List UInt8)
  | inline _ text => (Base64.decode? text.toList).elim (.error "malformed base 64") .ok
  | file path => store.read path
  | beside path =>
    match Percent.decode? path with
    | some path => store.read (directory.join path)
    | none => .error "malformed path"
  | unsupported => .error "unsupported address"

end Location

/-- Octets up to a multiple of four, the ones added being zero. -/
def padded (octets : List UInt8) : List UInt8 :=
  octets ++ List.replicate ((4 - octets.length % 4) % 4) 0

/-- The octets of all buffers. `data` is the container's data as long as no buffer has it. -/
def loadBuffers (store : Store) (directory : Path) :
    (data : Option (List UInt8)) → List Document.Buffer → Except String (List (List UInt8))
  | _, [] => .ok []
  | data, buffer :: rest => do
    let octets ← match buffer.uri, data with
      | some uri, _ => (Location.ofUri uri).load store directory
      | none, some octets => .ok octets
      | none, none => .error "missing data"
    let octets := padded octets
    if octets.length < buffer.length then throw "buffer too short"
    let data := if buffer.uri.isSome then data else none
    return octets :: (← loadBuffers store directory data rest)

/-! ## Images -/

/-- The format of an image. -/
inductive Picture where
  | png | jpeg
deriving DecidableEq

namespace Picture

def ofMediaType? : String → Option Picture
  | "image/png" => some png
  | "image/jpeg" => some jpeg
  | _ => none

def ofExtension? : String → Option Picture
  | "png" => some png
  | "jpg" | "jpeg" => some jpeg
  | _ => none

/-- What the octets of an image start with. -/
def signature : Picture → List UInt8
  | png => [0x89, 0x50, 0x4e, 0x47, 0x0d, 0x0a, 0x1a, 0x0a]
  | jpeg => [0xff, 0xd8, 0xff]

end Picture

/-- The format of an image at an address: by the media type in the address, or else by the one in the
document, or else by what follows the last dot. -/
def pictureAt? (uri : String) (mediaType : Option String) : Option Picture :=
  match Location.ofUri uri, mediaType with
  | .inline (some mediaType) _, _ => Picture.ofMediaType? mediaType
  | _, some mediaType => Picture.ofMediaType? mediaType
  | _, none => (uri.splitOn ".").getLast? >>= Picture.ofExtension?

/-- The octets of an image and its format. -/
def loadImage (store : Store) (directory : Path) (document : Document) (buffers : Buffers)
    (image : Document.Image) : Except String (List UInt8 × Option Picture) :=
  match image.view, image.uri with
  | some view, _ => do
    let octets := do
      let view ← document.views[view]?
      slice? (← buffers[view.buffer]?) view.offset view.length
    let octets ← octets.elim (.error "missing data") .ok
    return (octets, image.mediaType >>= Picture.ofMediaType?)
  | none, some uri => do
    return (← (Location.ofUri uri).load store directory, pictureAt? uri image.mediaType)
  | none, none => .error "missing data"

/-- Whether an image can be loaded and starts as its format demands. -/
def checkImage (store : Store) (directory : Path) (document : Document) (buffers : Buffers)
    (image : Document.Image) : Except String Unit := do
  match ← loadImage store directory document buffers image with
  | (_, none) => throw "unsupported image encoding"
  | (octets, some picture) =>
    if !picture.signature.isPrefixOf octets then throw "malformed image"

/-- A document with the octets of its buffers. -/
structure Loaded where
  document : Document
  buffers : Buffers
deriving Inhabited

/-- Read a file and all that it refers to. -/
def load (store : Store) (path : Path) : Except String Loaded := do
  let bytes ← store.read path
  match Container.ofBytes? bytes with
  | none => throw "malformed container"
  | some container =>
    match (Json.read? container.document).bind Document.ofJson? with
    | none => throw "malformed document"
    | some document =>
      let directory := path.parent?.getD "."
      let buffers ← loadBuffers store directory container.data document.buffers.toList
      document.images.forM (checkImage store directory document buffers.toArray)
      return ⟨document, buffers.toArray⟩

end SceneBaker.Gltf
