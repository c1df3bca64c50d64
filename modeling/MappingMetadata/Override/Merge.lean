import MappingMetadata.Error
import MappingMetadata.Index
import MappingMetadata.Override.Family
import MappingMetadata.Text.Unicode

/-!
# Merging overrides

The overrides that a document declares for a site are merged with those the index holds for it.
Declared overrides come first; an indexed override follows unless its name is taken already, and
keeps only the fields its family carries. One override stands by itself, several in a wrapper.
-/

namespace MappingMetadata.Override

/-- One override of a merged list. -/
inductive Item (f : Family) where
  /-- Declared by the document. -/
  | declared (o : f.Declared)
  /-- Carried over from the index with the fields that its family keeps. -/
  | carried (name : String) (fields : Attributes)

namespace Item

variable {f : Family}

/-- Is the override declared by the document? -/
def isDeclared : Item f → Bool
  | declared _ => true
  | carried .. => false

def name : Item f → String
  | declared o => f.name o
  | carried name _ => name

def annotation (i : Item f) (d : Defaults) (site : Option Site) : Annotation :=
  match i with
  | declared o => f.annotation o d site
  | carried name fields =>
    .ofEntries f.scalar site
      (("name", .string (some name)) :: fields.map fun p => (p.1, .carried (some p.2)))

/-- The item that carries an indexed override over; one without a name cannot be carried. -/
def carry (a : Annotation) : Outcome (Item f) :=
  match a.name? with
  | some name =>
    .ok (.carried name (f.carriedFields.filterMap fun n => (a.field? n).map fun v => (n, v)))
  | none => .error (.missingName f.scalar)

end Item

/-- The merged overrides of one site. -/
structure Merged (f : Family) where
  site : Site
  items : List (Item f)

namespace Merged

variable {f : Family}

/-- The names of the overrides in merged order. -/
def names (m : Merged f) : List String := m.items.map Item.name

/-- The one annotation for the merged overrides. -/
def annotation (m : Merged f) (d : Defaults) : Option Annotation :=
  Annotation.ofItems f.wrapper (fun i site => i.annotation d site) (some m.site) m.items

end Merged

variable {f : Family}

/-- One override for each name, at the first place of the name and with its last declaration. -/
def collapse (f : Family) (os : List f.Declared) : List f.Declared :=
  (Assoc.ofList (os.map fun o => (f.name o, o))).map Prod.snd

/-- Where merging reads from: the annotations of each kind on a class. An index is one such. -/
abbrev Source := String → Kind → List Annotation

/-- The annotations of one kind that a source has on exactly one site. -/
def Source.onSite (source : Source) (k : Kind) (site : Site) : List Annotation :=
  (source site.className k).filter fun a => a.site = some site

/-- The overrides that a source has for a site: those in its first wrapper, then the single
ones. -/
def Source.overrides (source : Source) (f : Family) (site : Site) : List Annotation :=
  ((source.onSite f.wrapper site).head?.map Annotation.members).getD [] ++
    source.onSite f.scalar site

/-- The overrides indexed on a site. -/
def indexed (ix : Index) (f : Family) (site : Site) : List Annotation :=
  Source.overrides ix.ofKind f site

theorem indexed_eq (ix : Index) (f : Family) (site : Site) : indexed ix f site =
    ((ix.onSite site.className f.wrapper site).head?.map Annotation.members).getD [] ++
      ix.onSite site.className f.scalar site := rfl

/-- An override indexed on a site stands in a wrapper there, or there by itself. -/
theorem wrapped_or_single_of_mem_indexed {ix : Index} {site : Site} {a : Annotation}
    (h : a ∈ indexed ix f site) :
    (∃ w ∈ ix.onSite site.className f.wrapper site, a ∈ w.members) ∨
      a ∈ ix.onSite site.className f.scalar site := by
  rw [indexed_eq] at h
  rcases List.mem_append.1 h with h | h
  · cases hw : (ix.onSite site.className f.wrapper site).head? with
    | none => simp [hw] at h
    | some w =>
      rw [hw] at h
      exact Or.inl ⟨w, List.mem_of_head? hw, h⟩
  · exact Or.inr h

/-- Add the carried items whose names are not taken yet. -/
def appendNew (items : List (Item f)) : List (Item f) → List (Item f)
  | [] => items
  | i :: rest =>
    if i.name ∈ items.map Item.name then appendNew items rest else appendNew (items ++ [i]) rest

/-- Merge the declared overrides of a site with those of a source. Without declared overrides
there is nothing to merge, and those of the source stay as they are. -/
def mergeFrom (f : Family) (source : Source) (dedupe : Bool) (declared : List f.Declared) :
    Option Site → Outcome (Option (Merged f))
  | none => .error .noSite
  | some site =>
    if declared.isEmpty then .ok none
    else if declared.any fun o => Text.isBlank (f.name o) then .error (.missingName f.scalar)
    else do
      let own := if dedupe then collapse f declared else declared
      let carried ← (source.overrides f site).mapM Item.carry
      return some ⟨site, appendNew (own.map .declared) carried⟩

/-- Merge the declared overrides of a site with the indexed ones. -/
def merge (f : Family) (ix : Index) (dedupe : Bool) (declared : List f.Declared)
    (site : Option Site) : Outcome (Option (Merged f)) :=
  mergeFrom f ix.ofKind dedupe declared site

/-- The annotation that merging yields, if the document declares any override. -/
def mergedAnnotation (f : Family) (ix : Index) (d : Defaults) (dedupe : Bool)
    (declared : List f.Declared) (site : Option Site) : Outcome (Option Annotation) := do
  let merged ← merge f ix dedupe declared site
  return merged.bind fun m => m.annotation d

end MappingMetadata.Override
