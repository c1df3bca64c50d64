import MappingMetadata.Annotation
import MappingMetadata.Choice

/-!
# The annotation index

The index holds the annotations of every class, grouped by kind: those that were found on the
class itself and those that mapping documents have added. Within a kind they stand in the order
of insertion; classes and kinds stand in the order in which they were first seen.

`ofKind` is the view of the index: the list of annotations of one kind on one class. What each
write does to it is said by `ofKind_push`, `ofKind_removeAt` and `ofKind_removeKind`. Removing the
annotations of a site leaves an empty group behind, so no class or kind loses its place.
-/

namespace MappingMetadata

/-- What is known of one class. -/
structure ClassEntry where
  /-- Is the mapping document all there is, so that annotations on the class do not count? -/
  metadataComplete : Bool := false
  annotations : Dict Kind (List Annotation) := {}

namespace ClassEntry

instance : Inhabited ClassEntry := ⟨{}⟩

/-- The annotations of one kind. -/
def ofKind (e : ClassEntry) (k : Kind) : List Annotation := (e.annotations.get? k).getD []

/-- All annotations, kind by kind. -/
def toList (e : ClassEntry) : List Annotation := e.annotations.values.flatten

/-- Add an annotation at the end of its kind. -/
def push (e : ClassEntry) (a : Annotation) : ClassEntry :=
  { e with annotations := e.annotations.put a.kind (e.ofKind a.kind ++ [a]) }

/-- Remove the annotations of a kind from a site. -/
def removeAt (e : ClassEntry) (site : Site) (k : Kind) : ClassEntry :=
  { e with annotations := e.annotations.modify k fun as => as.filter fun a => a.site ≠ some site }

/-- Equal entries, kinds and the fields of annotations in any order. -/
def same (e f : ClassEntry) : Bool :=
  e.metadataComplete == f.metadataComplete && e.annotations.size == f.annotations.size &&
    e.annotations.entries.all fun (k, as) =>
      match f.annotations.get? k with
      | some bs => Annotation.sameList as bs
      | none => false

end ClassEntry

/-- The annotations of all classes. -/
structure Index where
  classes : Dict String ClassEntry := {}

namespace Index

/-- The index without classes. -/
def empty : Index := {}

instance : Inhabited Index := ⟨empty⟩

/-! ## Reading -/

/-- What is known of a class. -/
def entry? (ix : Index) (c : String) : Option ClassEntry := ix.classes.get? c

/-- The annotations of one kind on a class and its members. -/
def ofKind (ix : Index) (c : String) (k : Kind) : List Annotation :=
  match ix.entry? c with
  | some e => e.ofKind k
  | none => []

/-- The annotations of one kind on exactly one site, looked for under the given class. -/
def onSite (ix : Index) (c : String) (k : Kind) (site : Site) : List Annotation :=
  (ix.ofKind c k).filter fun a => a.site = some site

/-- All annotations, class by class and kind by kind. -/
def toList (ix : Index) : List Annotation := ix.classes.values.flatMap ClassEntry.toList

/-- Number of annotations. -/
def size (ix : Index) : Nat := ix.toList.length

/-- Is there no annotation? There may still be classes. -/
def isEmpty (ix : Index) : Bool := ix.toList.isEmpty

/-- Is the mapping document all there is to a class? -/
def isComplete (ix : Index) (c : String) : Bool :=
  ((ix.entry? c).map ClassEntry.metadataComplete).getD false

/-- The access type stated on a class: the first annotation that names one. -/
def access? (ix : Index) (c : String) : Option Access :=
  (ix.onSite c .access (.onClass c)).findSome? fun a => (a.string? "value").bind Access.parse?

/-! ## Writing -/

/-- Make sure that the class has an entry. -/
def enter (ix : Index) (c : String) : Index :=
  match ix.entry? c with
  | some _ => ix
  | none => ⟨ix.classes.put c {}⟩

/-- Add an annotation to the class of its site; one without a site is not added. -/
def push (ix : Index) (a : Annotation) : Index :=
  match a.site with
  | some site =>
    let e := (ix.entry? site.className).getD {}
    ⟨ix.classes.put site.className (e.push a)⟩
  | none => ix

/-- Remove the annotations of a kind from a site. -/
def removeAt (ix : Index) (site : Site) (k : Kind) : Index :=
  ⟨ix.classes.modify site.className fun e => e.removeAt site k⟩

/-- Remove the annotations of a kind from every class, and the kind with them. -/
def removeKind (ix : Index) (k : Kind) : Index :=
  ⟨ix.classes.mapValues fun e => { e with annotations := e.annotations.erase k }⟩

/-- Add an annotation in place of those of the superseded kinds on its site. -/
def replace (ix : Index) (a : Annotation) (superseded : List Kind) : Index :=
  match a.site with
  | some site => (superseded.foldl (fun ix k => ix.removeAt site k) ix).push a
  | none => ix

/-- State that the mapping document is all there is to a class. -/
def markComplete (ix : Index) (c : String) : Index :=
  ⟨ix.classes.put c { (ix.entry? c).getD {} with metadataComplete := true }⟩

/-- The index of a list of annotations; those without a site are left out. -/
def ofList (as : List Annotation) : Index := as.foldl push empty

/-! ## What writing does to the view -/

theorem ofKind_eq (ix : Index) (c : String) (k : Kind) :
    ix.ofKind c k = ((ix.entry? c).map fun e => e.ofKind k).getD [] := by
  cases h : ix.entry? c <;> simp [ofKind, h]

@[simp] theorem ofKind_empty (c : String) (k : Kind) : empty.ofKind c k = [] := rfl

@[simp] theorem ofKind_enter (ix : Index) (c c' : String) (k : Kind) :
    (ix.enter c).ofKind c' k = ix.ofKind c' k := by
  cases h : ix.classes.get? c with
  | some e => simp [enter, entry?, h]
  | none =>
    by_cases hc : c = c'
    · subst hc
      simp [enter, ofKind, entry?, h, Dict.get?_put, ClassEntry.ofKind]
    · simp [enter, ofKind, entry?, h, Dict.get?_put, hc]

@[simp] theorem ofKind_markComplete (ix : Index) (c c' : String) (k : Kind) :
    (ix.markComplete c).ofKind c' k = ix.ofKind c' k := by
  by_cases hc : c = c'
  · subst hc
    cases h : ix.classes.get? c <;>
      simp [markComplete, ofKind, entry?, Dict.get?_put, h, ClassEntry.ofKind]
  · simp [markComplete, ofKind, entry?, Dict.get?_put, hc]

theorem ofKind_push (ix : Index) {a : Annotation} {site : Site} (h : a.site = some site)
    (c : String) (k : Kind) :
    (ix.push a).ofKind c k =
      if site.className = c ∧ a.kind = k then ix.ofKind c k ++ [a] else ix.ofKind c k := by
  by_cases hc : site.className = c
  · subst hc
    cases he : ix.classes.get? site.className <;> by_cases hk : a.kind = k <;>
      simp [push, h, ofKind, entry?, Dict.get?_put, he, ClassEntry.push, ClassEntry.ofKind, hk]
  · simp [push, h, ofKind, entry?, Dict.get?_put, hc]

theorem ofKind_removeAt (ix : Index) (site : Site) (k : Kind) (c : String) (k' : Kind) :
    (ix.removeAt site k).ofKind c k' =
      if site.className = c ∧ k = k' then (ix.ofKind c k').filter fun a => a.site ≠ some site
      else ix.ofKind c k' := by
  by_cases hc : site.className = c
  · subst hc
    cases he : ix.classes.get? site.className with
    | none => simp [removeAt, ofKind, entry?, Dict.get?_modify, he]
    | some e =>
      by_cases hk : k = k'
      · subst hk
        cases ha : e.annotations.get? k <;>
          simp [removeAt, ofKind, entry?, Dict.get?_modify, he, ClassEntry.removeAt,
            ClassEntry.ofKind, ha]
      · simp [removeAt, ofKind, entry?, Dict.get?_modify, he, ClassEntry.removeAt,
          ClassEntry.ofKind, hk]
  · simp [removeAt, ofKind, entry?, Dict.get?_modify, hc]

theorem ofKind_removeKind (ix : Index) (k : Kind) (c : String) (k' : Kind) :
    (ix.removeKind k).ofKind c k' = if k = k' then [] else ix.ofKind c k' := by
  cases he : ix.classes.get? c with
  | none => simp [removeKind, ofKind, entry?, he]
  | some e =>
    by_cases hk : k = k' <;>
      simp [removeKind, ofKind, entry?, he, ClassEntry.ofKind, Dict.get?_erase, hk]

/-! ## Comparing -/

/-- Equal indexes, classes, kinds and the fields of annotations in any order. -/
def same (ix jx : Index) : Bool :=
  ix.classes.size == jx.classes.size && ix.classes.entries.all fun (c, e) =>
    match jx.entry? c with
    | some f => e.same f
    | none => false

end Index

end MappingMetadata
