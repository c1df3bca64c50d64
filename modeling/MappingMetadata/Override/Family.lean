import MappingMetadata.Declaration.Override

/-!
# Families of overrides

Attribute overrides and association overrides are merged by the same rules. A family fixes the
kind of one override, the kind of the wrapper around several, and the fields that an override
keeps when it is carried over from the index.
-/

namespace MappingMetadata.Override

/-- What is overridden. -/
inductive Family where
  | attributes | associations
  deriving DecidableEq, Repr, Inhabited

namespace Family

/-- The kind of a single override. -/
def scalar : Family → Kind
  | attributes => .attributeOverride
  | associations => .associationOverride

/-- The kind of the wrapper around several overrides. -/
def wrapper : Family → Kind
  | attributes => .attributeOverrides
  | associations => .associationOverrides

/-- Both kinds: what an override of the family supersedes on its site. -/
def kinds (f : Family) : List Kind := [f.scalar, f.wrapper]

/-- The fields of an override that are carried over, beside its name. -/
def carriedFields : Family → List String
  | attributes => ["column"]
  | associations => ["joinColumns", "joinTable"]

theorem plural_scalar (f : Family) : f.scalar.plural = some f.wrapper := by cases f <;> rfl

/-- The declarations of a family. -/
abbrev Declared : Family → Type
  | attributes => Declaration.AttributeOverride
  | associations => Declaration.AssociationOverride

/-- The name of what is overridden. -/
def name : (f : Family) → f.Declared → String
  | attributes, o => o.name
  | associations, o => o.name

/-- The annotation of a declared override. -/
def annotation : (f : Family) → f.Declared → Defaults → Option Site → Annotation
  | attributes, o, _, site => o.annotation site
  | associations, o, d, site => o.annotation d site

end Family

end MappingMetadata.Override
