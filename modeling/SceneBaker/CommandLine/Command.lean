import SceneBaker.CommandLine.Arguments
import SceneBaker.Files.Path
import SceneBaker.Number.Literal
import SceneBaker.Settings

/-! # Commands

The command line converts one file, converts a directory or describes a file. Switches override the
settings that a settings file or the defaults give.
-/

namespace SceneBaker.CommandLine

open Number Files

/-- Settings that the command line changes. -/
structure Overrides where
  settingsFile : Option Path := none
  rightHanded : Bool := false
  invertWinding : Bool := false
  normalMode : Option NormalMode := none
  disableBones : Bool := false
  preTransform : Bool := false
  scaleFactor : Option Single := none
  samplingRate : Option Double := none
  animationLevel : Option UInt8 := none
  plainNames : Bool := false
deriving DecidableEq

/-- The settings with the changes. A scale that is given is also applied. -/
def Overrides.apply (overrides : Overrides) (base : Settings) : Settings :=
  Settings.normalized {
    base with
    leftHanded := base.leftHanded && !overrides.rightHanded
    invertWinding := base.invertWinding || overrides.invertWinding
    normalMode := overrides.normalMode.getD base.normalMode
    disableBones := base.disableBones || overrides.disableBones
    preTransform := base.preTransform || overrides.preTransform
    applyScale := base.applyScale || overrides.scaleFactor.isSome
    scaleFactor := overrides.scaleFactor.getD base.scaleFactor
    samplingRate := overrides.samplingRate.getD base.samplingRate
    animationLevel := overrides.animationLevel.getD base.animationLevel
    namePrefixed := base.namePrefixed && !overrides.plainNames }

inductive Command where
  | convert (input : Path) (output : Option Path) (overrides : Overrides)
  | batch (directory : Path) (overrides : Overrides)
  | info (file : Path)
deriving DecidableEq

/-- A command, and whether the log shows details. -/
structure Invocation where
  verbose : Bool
  command : Command
deriving DecidableEq

/-! ## Forms -/

/-- A whole number from 0 to 255, with a sign or without. -/
def byte? (text : String) : Option UInt8 :=
  let (negative, digits) := Literal.splitSign text.toList
  let size := Text.ofDigits 10 digits
  if digits ≠ [] ∧ digits.all Char.isDigit ∧ size < 256 ∧ (negative = true → size = 0) then
    some (UInt8.ofNat size)
  else none

def verboseSwitch : Switch := { name := "verbose", letter := some 'v' }

def helpSwitch : Switch := { name := "help", letter := some 'h', effect := .help }

def versionSwitch : Switch := { name := "version", letter := some 'V', effect := .version }

/-- Paths cannot be empty. -/
def pathEffect : Effect := .value (· ≠ "")

def numberEffect : Effect := .value fun text => (Literal.ofText? text).isSome

def outputSwitch : Switch := { name := "output", letter := some 'o', effect := pathEffect }

/-- The switches for `Overrides`. -/
def overrideSwitches : List Switch := [
  { name := "config", letter := some 'c', effect := pathEffect },
  { name := "right-handed" },
  { name := "invert-winding" },
  { name := "gen-normals", effect := .value fun text => (NormalMode.ofText? text).isSome },
  { name := "disable-bones" },
  { name := "pre-transform" },
  { name := "scale", effect := numberEffect },
  { name := "sampling-rate", effect := numberEffect },
  { name := "optimize-animations", effect := .value fun text => (byte? text).isSome },
  { name := "no-prefix" }]

/-- The command that shows help. -/
def helpCommand : String := "help"

def commandNames : List String := ["convert", "batch", "info", helpCommand]

def topForm : Form :=
  { switches := [verboseSwitch, helpSwitch, versionSwitch], commands := commandNames }

def operandForm (switches : List Switch) : Form :=
  { switches := switches ++ [verboseSwitch, helpSwitch], operands := 1 }

def convertForm : Form := operandForm (outputSwitch :: overrideSwitches)

def batchForm : Form := operandForm overrideSwitches

def infoForm : Form := operandForm []

/-- What help shows. -/
def usage : List String := [
  "convert <input> [-o <output>] [options]   convert one scene to a model and animations",
  "batch <directory> [options]               convert every scene below a directory",
  "info <file>                               describe a model or an animation",
  "options: " ++ ", ".intercalate (overrideSwitches.map fun switch => "--" ++ switch.name)]

/-! ## Reading commands -/

def Overrides.ofGiven (given : Given) : Overrides where
  settingsFile := given.value? "config"
  rightHanded := given.has "right-handed"
  invertWinding := given.has "invert-winding"
  normalMode := given.value? "gen-normals" >>= NormalMode.ofText?
  disableBones := given.has "disable-bones"
  preTransform := given.has "pre-transform"
  scaleFactor := (given.value? "scale" >>= Literal.ofText?).map Literal.toSingle
  samplingRate := (given.value? "sampling-rate" >>= Literal.ofText?).map Literal.toDouble
  animationLevel := given.value? "optimize-animations" >>= byte?
  plainNames := given.has "no-prefix"

/-- Read a command of one operand. -/
def readCommand (form : Form) (verbose : Bool) (arguments : List String)
    (command : Path → Given → Command) : Except Stop Invocation := do
  let (given, _) ← form.read {} arguments
  match given.operands with
  | operand :: _ => return ⟨verbose || given.has verboseSwitch.name, command operand given⟩
  | [] => .error .misuse

/-- Help may be asked for about one command. -/
def helpStop : List String → Stop
  | [] => .help
  | [name] => if commandNames.contains name then .help else .misuse
  | _ => .misuse

/-- The invocation that arguments describe. -/
def Invocation.ofArguments (arguments : List String) : Except Stop Invocation := do
  let (given, rest) ← topForm.read {} arguments
  let verbose := given.has verboseSwitch.name
  match rest with
  | "convert" :: rest =>
    readCommand convertForm verbose rest fun operand given =>
      .convert operand (given.value? outputSwitch.name) (.ofGiven given)
  | "batch" :: rest =>
    readCommand batchForm verbose rest fun operand given => .batch operand (.ofGiven given)
  | "info" :: rest => readCommand infoForm verbose rest fun operand _ => .info operand
  | "help" :: rest => .error (helpStop rest)
  | _ => .error .misuse

end SceneBaker.CommandLine
