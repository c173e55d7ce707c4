/-! # Arguments

A form says which switches and how many operands a command takes. Arguments are read from left to
right, and the first that does not fit decides. A switch has a long name after two dashes and maybe
a letter after one; several letters may stand together. Its value is the rest of the argument or the
next one. Behind two dashes alone there are only operands.
-/

namespace SceneBaker.CommandLine

/-- What a switch does. -/
inductive Effect where
  | help
  | version
  /-- Being given is all it says. -/
  | flag
  /-- It has a value, which has to be acceptable. -/
  | value (accepts : String → Bool)

structure Switch where
  name : String
  letter : Option Char := none
  effect : Effect := .flag

structure Form where
  switches : List Switch
  /-- The largest number of operands. -/
  operands : Nat := 0
  /-- Words that end the arguments of this form. -/
  commands : List String := []

/-- Why arguments are not followed. -/
inductive Stop where
  | help | version | misuse
deriving DecidableEq

/-- What arguments say. -/
structure Given where
  /-- Switches that were given; a flag has an empty value. -/
  switches : List (String × String) := []
  operands : List String := []
deriving DecidableEq

namespace Given

def has (given : Given) (name : String) : Bool := (given.switches.lookup name).isSome

def value? (given : Given) (name : String) : Option String := given.switches.lookup name

/-- Add a switch with its value or without one. No switch can be given twice. -/
def add (given : Given) (switch : Switch) (value : Option String) : Except Stop Given :=
  let next (value : String) : Except Stop Given :=
    if given.has switch.name then .error .misuse
    else .ok { given with switches := given.switches ++ [(switch.name, value)] }
  match switch.effect, value with
  | .help, none => .error .help
  | .version, none => .error .version
  | .flag, none => next ""
  | .value accepts, some value => if accepts value then next value else .error .misuse
  | _, _ => .error .misuse

end Given

/-- The form of an argument. -/
inductive Token where
  /-- Two dashes alone. -/
  | dashes
  | long (name : String) (value : Option String)
  | short (letters : List Char)
  | word (text : String)

def Token.ofArgument (argument : String) : Token :=
  match argument.toList with
  | ['-', '-'] => dashes
  | '-' :: '-' :: text =>
    match text.span (· != '=') with
    | (name, _ :: value) => long (String.ofList name) (some (String.ofList value))
    | (name, []) => long (String.ofList name) none
  | '-' :: c :: letters => short (c :: letters)
  | _ => word argument

def Switch.hasValue (switch : Switch) : Bool :=
  match switch.effect with
  | .value _ => true
  | _ => false

/-- What has been read, and the switch that waits for its value. -/
structure Reading where
  given : Given := {}
  waiting : Option Switch := none

namespace Form

/-- Give a switch, whose value may still follow. -/
def give (given : Given) (switch : Switch) (value : Option String) : Except Stop Reading :=
  if switch.hasValue && value.isNone then .ok ⟨given, some switch⟩
  else do return ⟨← given.add switch value, none⟩

/-- Letters after one dash; behind a letter that has a value stands the value. -/
def readLetters (form : Form) (given : Given) : List Char → Except Stop Reading
  | [] => .ok ⟨given, none⟩
  | letter :: rest =>
    match form.switches.find? (·.letter == some letter) with
    | none => .error .misuse
    | some switch =>
      if switch.hasValue then
        match rest with
        | [] => give given switch none
        | '=' :: value | value => give given switch (some (String.ofList value))
      else do form.readLetters (← given.add switch none) rest

def addOperand (form : Form) (given : Given) (text : String) : Except Stop Given :=
  if text ≠ "" ∧ given.operands.length < form.operands then
    .ok { given with operands := given.operands ++ [text] }
  else .error .misuse

/-- Read arguments up to a command; what is left over starts with it. -/
def read (form : Form) : Reading → List String → Except Stop (Given × List String)
  | ⟨given, none⟩, [] => .ok (given, [])
  | ⟨_, some _⟩, [] => .error .misuse
  | ⟨given, waiting⟩, argument :: rest =>
    match Token.ofArgument argument, waiting with
    | .word text, some switch => do form.read ⟨← given.add switch (some text), none⟩ rest
    | _, some _ => .error .misuse
    | .word text, none =>
      if form.commands.contains text then .ok (given, argument :: rest)
      else do form.read ⟨← form.addOperand given text, none⟩ rest
    | .dashes, none => do return (← rest.foldlM form.addOperand given, [])
    | .long name value, none =>
      match form.switches.find? (·.name == name) with
      | none => .error .misuse
      | some switch => do form.read (← give given switch value) rest
    | .short letters, none => do form.read (← form.readLetters given letters) rest

end Form

end SceneBaker.CommandLine
