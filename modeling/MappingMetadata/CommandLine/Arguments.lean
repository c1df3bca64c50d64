import MappingMetadata.Error

/-!
# The arguments of the program

There are two commands: `mock` applies mapping documents and hands out the metadata, `globals`
hands out the global declarations only. Both take documents or folders of documents, and options
that may stand anywhere among them; after `--` everything is an input.

An option or switch may be given once. A value that is an argument of its own must not begin with
a hyphen, unless it is a hyphen alone.
-/

namespace MappingMetadata.CommandLine

/-- What a run is asked to hand out. -/
inductive Command where
  /-- The metadata, or a summary of it; with a path, the metadata goes to a file. -/
  | mock (output : Option String) (summary : Bool)
  /-- The global declarations, or only their names. -/
  | globals (names : Bool)
  deriving DecidableEq, Repr

/-- What is asked for on the command line. -/
structure Arguments where
  command : Command
  /-- Documents and folders of documents, in the order in which they are applied. -/
  inputs : List String
  index : Option String := none
  config : Option String := none
  package : Option String := none
  strict : Bool := false
  keepGoing : Bool := false
  format : Format := .json
  deriving DecidableEq, Repr

/-- What the program is asked to do. -/
inductive Request where
  | run (arguments : Arguments)
  | version
  | help
  deriving DecidableEq, Repr

/-- The options and switches. -/
inductive Flag where
  | index | config | package | strict | keepGoing | format | output | summary | names | verbosity
  | version | help
  deriving DecidableEq, Repr

namespace Flag

/-- The name after two hyphens. -/
def long : Flag → String
  | index => "index"
  | config => "config"
  | package => "package"
  | strict => "strict"
  | keepGoing => "keep-going"
  | format => "format"
  | output => "output"
  | summary => "summary"
  | names => "names"
  | verbosity => "verbosity"
  | version => "version"
  | help => "help"

/-- The letter after one hyphen. -/
def short : Flag → Option Char
  | config => some 'c'
  | format => some 'f'
  | output => some 'o'
  | version => some 'V'
  | help => some 'h'
  | _ => none

/-- Does a value belong to it? -/
def takesValue : Flag → Bool
  | index | config | package | format | output | verbosity => true
  | strict | keepGoing | summary | names | version | help => false

/-- May its value be this text? Paths are not empty. -/
def admits : Flag → String → Bool
  | index, v | config, v | output, v => !v.isEmpty
  | format, v => v == "json" || v == "yaml"
  | _, _ => true

/-- What may stand before the command. -/
def general : List Flag := [verbosity, version, help]

/-- What both commands take. -/
def shared : List Flag :=
  [index, config, package, strict, keepGoing, format, verbosity, help]

/-- What `mock` takes. -/
def forMock : List Flag := output :: summary :: shared

/-- What `globals` takes. -/
def forGlobals : List Flag := names :: shared

end Flag

/-- An option with its value, a switch, or an input. -/
inductive Item where
  | flag (f : Flag) (value : String)
  | input (path : String)
  deriving DecidableEq, Repr

/-- An argument, by what it begins with. -/
inductive Shape where
  /-- Two hyphens alone. -/
  | divider
  /-- Two hyphens, a name, and perhaps a value after an equals sign. -/
  | long (name : String) (value : Option String)
  /-- A hyphen, a letter, and perhaps more. -/
  | short (letter : Char) (more : List Char)
  | plain (text : String)
  deriving DecidableEq, Repr

namespace Shape

def ofArgument (arg : String) : Shape :=
  match arg.toList with
  | ['-', '-'] => .divider
  | '-' :: '-' :: cs =>
    let name := cs.takeWhile (· ≠ '=')
    let value := match cs.drop name.length with
      | _ :: v => some (String.ofList v)
      | [] => none
    .long (String.ofList name) value
  | '-' :: c :: cs => .short c cs
  | _ => .plain arg

/-- May the argument be the value of the option before it? -/
def isValue (arg : String) : Bool :=
  match ofArgument arg with
  | .plain _ => true
  | _ => false

end Shape

/-- The option or switch that an argument names, and the value attached to it. A letter that is a
switch has no value. -/
def Shape.flag? (allowed : List Flag) : Shape → Option (Flag × Option String)
  | .long name value => (allowed.find? fun f => f.long == name).map fun f => (f, value)
  | .short letter more =>
    (allowed.find? fun f => f.short == some letter).map fun f =>
      if f.takesValue && !more.isEmpty then
        (f, some (String.ofList (if more.head? = some '=' then more.drop 1 else more)))
      else (f, none)
  | _ => none

/-- Read the options, switches and inputs in order; none for what is not understood. An option
that was given is no longer allowed. A request for help or for the version ends the reading. -/
def items? : List Flag → List String → Option (List Item)
  | _, [] => some []
  | allowed, arg :: rest =>
    match Shape.ofArgument arg with
    | .divider => if rest.any String.isEmpty then none else some (rest.map .input)
    | .plain text => if text.isEmpty then none else (items? allowed rest).map (.input text :: ·)
    | shape =>
      match shape.flag? allowed with
      | none => none
      | some (f, value) =>
        let remaining := allowed.erase f
        if !f.takesValue then
          if value.isSome then none
          else if f = .help ∨ f = .version then some [.flag f ""]
          else (items? remaining rest).map (.flag f "" :: ·)
        else
          match value, rest with
          | some v, rest =>
            if f.admits v then (items? remaining rest).map (.flag f v :: ·) else none
          | none, v :: rest =>
            if Shape.isValue v && f.admits v then (items? remaining rest).map (.flag f v :: ·)
            else none
          | none, [] => none

namespace Item

/-- The value of an option, if it was given. -/
def value? (items : List Item) (f : Flag) : Option String :=
  items.findSome? fun i =>
    match i with
    | flag g v => if g = f then some v else none
    | input _ => none

/-- Was the switch given? -/
def has (items : List Item) (f : Flag) : Bool := (value? items f).isSome

def inputs (items : List Item) : List String :=
  items.filterMap fun i =>
    match i with
    | input path => some path
    | flag .. => none

end Item

/-- The request for a command with its arguments. -/
def commandRequest (allowed : List Flag) (command : List Item → Command) (args : List String) :
    Option Request := do
  let items ← items? allowed args
  let inputs := Item.inputs items
  if Item.has items .help then return .help
  if inputs.isEmpty then none
  return .run {
    command := command items
    inputs := inputs
    index := Item.value? items .index
    config := Item.value? items .config
    package := Item.value? items .package
    strict := Item.has items .strict
    keepGoing := Item.has items .keepGoing
    format := if Item.value? items .format = some "yaml" then .yaml else .json }

/-- The request that the arguments after those before the command make. -/
def namedRequest : List String → Option Request
  | "mock" :: args =>
    commandRequest Flag.forMock
      (fun items => .mock (Item.value? items .output) (Item.has items .summary)) args
  | "globals" :: args =>
    commandRequest Flag.forGlobals (fun items => .globals (Item.has items .names)) args
  | ["help"] | ["help", "mock"] | ["help", "globals"] | ["help", "help"] => some .help
  | _ => none

/-- The request that all arguments make; none if they are not understood. -/
def request? : List String → Option Request
  | [] => none
  | arg :: rest =>
    match Shape.ofArgument arg with
    | .plain _ => namedRequest (arg :: rest)
    | .long "verbosity" none =>
      match rest with
      | v :: rest => if Shape.isValue v then afterVerbosity rest else none
      | [] => none
    | .long "verbosity" (some _) => afterVerbosity rest
    | _ => general arg
where
  /-- A switch that needs no command. -/
  general (arg : String) : Option Request :=
    match items? Flag.general [arg] with
    | some [.flag .version _] => some .version
    | some [.flag .help _] => some .help
    | _ => none
  /-- The verbosity may not be given twice before the command. -/
  afterVerbosity : List String → Option Request
    | [] => none
    | arg :: rest =>
      match Shape.ofArgument arg with
      | .plain _ => namedRequest (arg :: rest)
      | _ => general arg

end MappingMetadata.CommandLine
