import MappingMetadata.Kind

/-!
# What can go wrong

The causes for which an operation of the library fails, and the text that reports each.
-/

namespace MappingMetadata

/-- The written forms of documents and metadata. -/
inductive Format where
  | json | yaml
  deriving DecidableEq, Repr, Inhabited

/-- A cause of failure. -/
inductive Error where
  /-- Overrides were to be merged without a site. -/
  | noSite
  /-- The annotations of an entity were asked for before its class was enrolled. -/
  | notEnrolled
  /-- An entity has a blank class name. -/
  | unnamedEntity
  /-- A listener of the class has a blank class name. -/
  | unnamedListener (owner : String)
  /-- An association has a cascade or a target entity but no type. -/
  | untypedAssociation (name : String)
  /-- An annotation of this kind is no global declaration. -/
  | notGlobal (kind : Kind)
  /-- A class that is referred to cannot be loaded. -/
  | unresolvedClass (name role : String)
  /-- A declaration of this kind needs a name and has none. -/
  | missingName (kind : Kind)
  /-- The file cannot be read as text. -/
  | unreadable (path : String)
  /-- The file or folder cannot be written. -/
  | unwritable (path : String)
  /-- The text is no document of the format. -/
  | malformed (format : Format)
  deriving DecidableEq, Repr

namespace Error

/-- The broad classes of failures. -/
inductive Category where
  /-- The caller broke the order of calls. -/
  | assertion
  /-- The metadata cannot be resolved. -/
  | configuration
  /-- A file or its text is at fault. -/
  | input
  deriving DecidableEq, Repr

def category : Error → Category
  | noSite | notEnrolled => .assertion
  | unnamedEntity | unnamedListener _ | untypedAssociation _ | notGlobal _ | unresolvedClass _ _
  | missingName _ => .configuration
  | unreadable _ | unwritable _ | malformed _ => .input

/-- Is the caller at fault, not the metadata? -/
def isAssertion (e : Error) : Bool := e.category == .assertion

/-- Is the metadata at fault? -/
def isConfiguration (e : Error) : Bool := e.category == .configuration

/-- The report of a failure. -/
def message : Error → String
  | noSite => "Assertion failure: target can not be null"
  | notEnrolled => "Assertion failure: preProcess should be called before process"
  | unnamedEntity => "Configuration error: entity declaration is missing its class name"
  | unnamedListener owner =>
    "Configuration error: entity listener of " ++ owner ++ " is missing its class name"
  | untypedAssociation name =>
    "Configuration error: association '" ++ name ++
      "' declares cascade or target entity without a type"
  | notGlobal kind => "Configuration error: " ++ kind.name ++ " is not a global declaration"
  | unresolvedClass name role =>
    "Unable to resolve class '" ++ name ++ "' referenced by " ++ role
  | missingName kind => kind.name ++ " declaration is missing its name"
  | unreadable path => "Failed to read mapping document: " ++ path
  | unwritable path => "Failed to write metadata: " ++ path
  | malformed .json => "JSON error"
  | malformed .yaml => "YAML error"

end Error

/-- Results of operations that may fail. -/
abbrev Outcome (α : Type) := Except Error α

end MappingMetadata
