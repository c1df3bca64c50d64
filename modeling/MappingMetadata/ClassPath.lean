import MappingMetadata.Error
import MappingMetadata.Settings

/-!
# Class paths

A class path says which full class names can be loaded, and under which name each is known.
-/

namespace MappingMetadata

/-- The name under which a class is loaded, if it can be loaded. -/
abbrev ClassPath := String → Option String

namespace ClassPath

/-- Every class can be loaded. -/
def everything : ClassPath := some

/-- Only the listed classes can be loaded. -/
def only (names : List String) : ClassPath := fun name => if name ∈ names then some name else none

/-- The class path of a session: strict ones load only the classes they know. -/
def ofSettings (s : Settings) : ClassPath :=
  if s.strictClasses then only s.knownClasses else everything

/-- A class can be loaded by its name in the default package. -/
def Loads (path : ClassPath) (d : Defaults) (name : String) : Prop := (path (d.qualify name)).isSome

instance (path : ClassPath) (d : Defaults) (name : String) : Decidable (path.Loads d name) :=
  inferInstanceAs (Decidable (_ = true))

/-- Look up a class by its name in the default package, for the role it plays. -/
def resolve (path : ClassPath) (d : Defaults) (className role : String) : Outcome String :=
  match path (d.qualify className) with
  | some name => .ok name
  | none => .error (.unresolvedClass (d.qualify className) role)

/-- Look up an optional class; an empty name counts as none. -/
def resolve? (path : ClassPath) (d : Defaults) (className : Option String) (role : String) :
    Outcome (Option String) :=
  match className.filter fun c => !c.isEmpty with
  | some c => (path.resolve d c role).map some
  | none => .ok none

end ClassPath

end MappingMetadata
