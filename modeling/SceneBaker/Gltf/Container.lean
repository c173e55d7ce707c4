import SceneBaker.Binary.Reader

/-! # Binary containers

A container has a header, a chunk with the document and maybe a chunk with data. The header names
the length of the whole; what lies behind it is no part of the container. A file that does not start
with the container's magic is a document by itself.
-/

namespace SceneBaker.Gltf

open Binary

/-- A document's text and the data that came with it. -/
structure Container where
  document : List UInt8
  data : Option (List UInt8) := none
deriving DecidableEq, Inhabited

namespace Container

def magic : List UInt8 := "glTF".toUTF8.toList

/-- The one supported version. -/
def version : Nat := 2

/-- Octets of magic, version and length. -/
def headerSize : Nat := 12

def documentKind : List UInt8 := "JSON".toUTF8.toList

def dataKind : List UInt8 := "BIN\x00".toUTF8.toList

/-- A chunk of a kind: length, kind and content. -/
def chunk (kind : List UInt8) : Reader (List UInt8) := do
  let length ← Reader.unsigned 4
  let found ← Reader.take 4
  if found ≠ kind then Reader.fail (.unknownMagic found)
  Reader.take length

/-- The chunks of a container. Octets behind the data are passed over. -/
def ofChunks (body : List UInt8) : Except CodecError Container := do
  let (document, rest) ← chunk documentKind body
  if rest.isEmpty then return ⟨document, none⟩
  else return ⟨document, some (← (chunk dataKind).run rest)⟩

/-- The header, and the chunks in the length that it names. -/
def packed : Reader Container := do
  let found ← Reader.take 4
  if found ≠ magic then Reader.fail (.unknownMagic found)
  let revision ← Reader.unsigned 4
  if revision ≠ version then Reader.fail (.unknownMagic found)
  let length ← Reader.unsigned 4
  if length < headerSize then Reader.fail .truncated
  let body ← Reader.take (length - headerSize)
  Reader.ofExcept (ofChunks body)

/-- The container in the octets of a file. A file has at least the octets of a magic. -/
def ofBytes? (bytes : List UInt8) : Option Container :=
  if bytes.length < magic.length then none
  else if magic.isPrefixOf bytes then (packed.run bytes).toOption
  else some ⟨bytes, none⟩

end Container

end SceneBaker.Gltf
