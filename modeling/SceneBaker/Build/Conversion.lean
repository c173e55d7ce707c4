import SceneBaker.Build.Clip
import SceneBaker.Build.Model

/-! # Converting scenes

A scene becomes a model and one animation per clip, each with the name of its file. A file name that
is taken gets a number; with more numbers than names taken, one of them is free.
-/

namespace SceneBaker.Build

open Number Model Animation Scene

/-- An animation and the name of its file. -/
structure ConvertedClip where
  fileName : String
  animation : Animation
deriving DecidableEq, Inhabited

structure Converted where
  model : Model
  clips : List ConvertedClip
  /-- The spaces that every animation file stores. -/
  spaces : Spaces
deriving DecidableEq, Inhabited

/-- A text without all repetitions of an ending. -/
def dropEndings (ending : List Char) : (fuel : Nat) → List Char → List Char
  | 0, text => text
  | fuel + 1, text =>
    if ending.isSuffixOf text then dropEndings ending fuel (text.take (text.length - ending.length))
    else text

/-- A file name without its extension, however often that stands at its end. -/
def fileStem (fileName : String) : String :=
  String.ofList
    (dropEndings ("." ++ animationExtension).toList fileName.length fileName.toList)

/-- A stem with a number behind it. -/
def numberedName (stem : String) (number : Nat) : String :=
  s!"{stem}_{number}.{animationExtension}"

/-- The file name itself if it is free, else the first free name with a number from `index` on. -/
def freeName (taken : List String) (fileName : String) (index : Nat) : String :=
  if taken.contains fileName then
    let names := (List.range (taken.length + 1)).map fun k =>
      numberedName (fileStem fileName) (index + k)
    (names.find? fun name => !taken.contains name).getD fileName
  else fileName

/-- Bake clips, the first of which has number `index`. `taken` holds the file names used before. -/
def convertClips (model : Model) (settings : Settings) (stem : String) :
    (taken : List String) → (index : Nat) → List (Clip Single) →
      Except ConversionError (List ConvertedClip)
  | _, _, [] => .ok []
  | taken, index, clip :: rest => do
    let animation ← bake clip model settings
    let wanted := clipFileName stem clip.name index settings.namePrefixed
    let fileName := freeName taken wanted index
    return ⟨fileName, animation⟩
      :: (← convertClips model settings stem (fileName :: taken) (index + 1) rest)

/-- Build the model of a scene and bake all clips against it. -/
def convert (scene : Scene Single) (settings : Settings) (stem : String) :
    Except ConversionError Converted := do
  let model ← buildModel scene settings
  let clips ← convertClips model settings stem [] 0 scene.clips
  return ⟨model, clips, .ofLevel settings.animationLevel⟩

/-- What the log says about clips, up to the first that cannot be baked. -/
def clipLog (model : Model) (settings : Settings) (stem : String) :
    (taken : List String) → (index : Nat) → List (Clip Single) → List LogLine
  | _, _, [] => []
  | taken, index, clip :: rest =>
    match bake clip model settings with
    | .error _ => []
    | .ok animation =>
      let wanted := clipFileName stem clip.name index settings.namePrefixed
      let fileName := freeName taken wanted index
      let renamed : List LogLine :=
        if taken.contains wanted then
          [⟨.warn, s!"Clip \"{clip.name}\" shares its file name with an earlier clip, saving as "
            ++ fileName⟩]
        else []
      bakeLog animation :: renamed
        ++ clipLog model settings stem (fileName :: taken) (index + 1) rest

/-- What the log says about a conversion. -/
def convertLog (scene : Scene Single) (settings : Settings) (stem : String) : List LogLine :=
  match buildModel scene settings with
  | .ok model => modelLog model ++ clipLog model settings stem [] 0 scene.clips
  | .error _ => []

end SceneBaker.Build
