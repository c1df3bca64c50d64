import MappingMetadata.Choice

/-!
# Defaults and settings

`Defaults` are what a document or a session assumes where a declaration says nothing. `Settings`
are the defaults of a session together with its switches.

Overlaying defaults is associative and has the unset defaults as its unit (`overlay_assoc`,
`unset_overlay`, `overlay_unset`).
-/

namespace MappingMetadata

/-- What is assumed where a declaration says nothing. -/
structure Defaults where
  /-- Put in front of class names without a dot. -/
  package : Option String := none
  /-- For join and collection tables that name no schema. -/
  schema : Option String := none
  /-- For join and collection tables that name no catalog. -/
  catalog : Option String := none
  /-- For entities whose access neither they nor the index declare. -/
  access : Option Access := none
  /-- Add `PERSIST` to the cascade of every typed association. -/
  cascadePersist : Option Bool := none
  deriving DecidableEq, Repr, Inhabited

namespace Defaults

/-- The second defaults over the first: what they set wins. -/
def overlay (d other : Defaults) : Defaults where
  package := other.package.or d.package
  schema := other.schema.or d.schema
  catalog := other.catalog.or d.catalog
  access := other.access.or d.access
  cascadePersist := other.cascadePersist.or d.cascadePersist

/-- Does `PERSIST` join every cascade? -/
def cascades (d : Defaults) : Bool := d.cascadePersist.getD false

/-- The full name of a class: one without a dot belongs to the default package. -/
def qualify (d : Defaults) (className : String) : String :=
  match d.package with
  | some package =>
    if className.toList.contains '.' || package.isEmpty then className
    else package ++ "." ++ className
  | none => className

@[simp] theorem overlay_unset (d : Defaults) : d.overlay {} = d := by
  cases d; simp [overlay]

@[simp] theorem unset_overlay (d : Defaults) : overlay {} d = d := by
  cases d; simp [overlay]

theorem overlay_assoc (a b c : Defaults) : (a.overlay b).overlay c = a.overlay (b.overlay c) := by
  simp [overlay, Option.or_assoc]

end Defaults

/-- The settings of a session. -/
structure Settings where
  defaults : Defaults := {}
  /-- Refer only to known classes. -/
  strictClasses : Bool := false
  /-- The classes that a strict session knows. -/
  knownClasses : List String := []
  /-- Collapse repeated names in one list of declared overrides. -/
  dedupeOverrides : Bool := true
  deriving DecidableEq, Repr, Inhabited

/-- A change to one setting. -/
inductive Setting where
  | package (name : String)
  | schema (name : String)
  | catalog (name : String)
  | access (access : Access)
  | cascadePersist (on : Bool)
  | strictClasses (on : Bool)
  | knownClass (name : String)
  | dedupeOverrides (on : Bool)
  deriving DecidableEq, Repr

namespace Settings

/-- The settings after one change; known classes add up. -/
def set (s : Settings) : Setting → Settings
  | .package p => { s with defaults := { s.defaults with package := some p } }
  | .schema n => { s with defaults := { s.defaults with schema := some n } }
  | .catalog n => { s with defaults := { s.defaults with catalog := some n } }
  | .access a => { s with defaults := { s.defaults with access := some a } }
  | .cascadePersist b => { s with defaults := { s.defaults with cascadePersist := some b } }
  | .strictClasses b => { s with strictClasses := b }
  | .knownClass c => { s with knownClasses := s.knownClasses ++ [c] }
  | .dedupeOverrides b => { s with dedupeOverrides := b }

/-- The settings after a list of changes. -/
def ofChanges (changes : List Setting) : Settings := changes.foldl set {}

end Settings

end MappingMetadata
