import MappingMetadata.Index

/-!
# Operations on the index

The ways to write to an index, each with its answer: whether an annotation was added, or how many
were removed. `Index.perform` does one operation, `Operation.run` a list of them.
-/

namespace MappingMetadata

namespace Index

/-- One way to write to an index. -/
inductive Operation where
  | push (a : Annotation)
  /-- Put an annotation in place of those of the superseded kinds on its site. -/
  | replace (a : Annotation) (superseded : List Kind)
  | removeAt (site : Site) (k : Kind)
  | removeKind (k : Kind)
  | enter (c : String)
  | markComplete (c : String)

/-- What an operation answers. -/
inductive Reply where
  | done
  | added (b : Bool)
  | removed (n : Nat)
deriving Repr, DecidableEq

/-- How many annotations are lost from one group when those of a site are removed. -/
def countAt (ix : Index) (site : Site) (k : Kind) : Nat :=
  (ix.ofKind site.className k).length - ((ix.removeAt site k).ofKind site.className k).length

/-- How many annotations of a kind there are, class by class. -/
def countKind (ix : Index) (k : Kind) : Nat :=
  (ix.classes.values.flatMap fun e => e.ofKind k).length

/-- Do an operation. -/
def perform (ix : Index) : Operation → Reply × Index
  | .push a => (.added a.site.isSome, ix.push a)
  | .replace a superseded => (.added a.site.isSome, ix.replace a superseded)
  | .removeAt site k => (.removed (ix.countAt site k), ix.removeAt site k)
  | .removeKind k => (.removed (ix.countKind k), ix.removeKind k)
  | .enter c => (.done, ix.enter c)
  | .markComplete c => (.done, ix.markComplete c)

namespace Operation

/-- Do operations one after another, in whatever form the annotations are kept. -/
def run {σ : Type} (perform : σ → Operation → Reply × σ) (s : σ) :
    List Operation → List Reply × σ
  | [] => ([], s)
  | op :: ops =>
    let (reply, s) := perform s op
    let (replies, s) := run perform s ops
    (reply :: replies, s)

/-- The class for which the operation makes sure that there is an entry. -/
def class? : Operation → Option String
  | .push a => a.site.map Site.className
  | .replace a _ => a.site.map Site.className
  | .removeAt _ _ => none
  | .removeKind _ => none
  | .enter c => some c
  | .markComplete c => some c

end Operation

end Index

end MappingMetadata
