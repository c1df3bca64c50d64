import MappingMetadata.Change
import MappingMetadata.Declaration.Document
import MappingMetadata.Override.Merge

/-!
# What an entity writes

An entity is processed in two steps. Enrolling enters its class in the index, together with its
declared access type, so that all entities of a document are known before any is processed.
Processing then makes the annotations that the entity stands for and writes them one by one, each
in place of its rivals on the same site.

What an entity has to write is a list of pieces. Only those of overrides depend on the index, and
all are made against the index as it stands before the first is written: `process` either writes
them all or fails and leaves the index as it was (`run_process`).

What concerns an attribute is annotated on its field under field access, and on its getter under
property access.
-/

namespace MappingMetadata

/-! ## Where attributes are annotated -/

/-- The name of the method that returns an attribute. -/
def getterName (name : String) : String := "get" ++ Text.capitalize name

namespace Access

/-- The site of an attribute. -/
def site (access : Access) (className name : String) : Site :=
  match access with
  | .field => .onField className name
  | .property => .onMethod className (getterName name)

/-- The annotation that states the access type of a class. -/
def annotation (access : Access) (className : String) : Annotation :=
  .ofEntries .access (some (.onClass className))
    [("value", .constant "AccessType" (some access.name))]

end Access

/-! ## Writes -/

/-- Write an annotation in place of its rivals. -/
def Index.write (ix : Index) (a : Annotation) : Index := ix.replace a a.kind.rivals

/-- Write annotations one after another. -/
def Index.writeAll (ix : Index) (as : List Annotation) : Index := as.foldl write ix

/-- What entities are processed under. -/
structure Context where
  defaults : Defaults
  classPath : ClassPath
  /-- Collapse repeated names in one list of declared overrides. -/
  dedupe : Bool := true

namespace Context

/-- Look up an optional class. -/
def resolve? (ctx : Context) (className : Option String) (role : String) :
    Outcome (Option String) :=
  ctx.classPath.resolve? ctx.defaults className role

/-- The access type of a class: the one stated in the index, else the default. -/
def access? (ctx : Context) (ix : Index) (className : String) : Option Access :=
  (ix.access? className).or ctx.defaults.access

/-- The merged overrides of a site. -/
def overrides (ctx : Context) (ix : Index) (f : Override.Family) (declared : List f.Declared)
    (site : Site) : Outcome (List Annotation) :=
  (Override.mergedAnnotation f ix ctx.defaults ctx.dedupe declared (some site)).map Option.toList

end Context

/-- One thing that an entity has to write. -/
inductive Piece where
  /-- Annotations that do not depend on the index. -/
  | fixed (as : Outcome (List Annotation))
  /-- Declared overrides of a site, to be merged with those in the index. -/
  | overrides (f : Override.Family) (declared : List f.Declared) (site : Site)

namespace Piece

/-- Annotations that cannot fail. -/
def plain (as : List Annotation) : Piece := fixed (.ok as)

/-- The annotations to be written. -/
def annotations (ctx : Context) (ix : Index) : Piece → Outcome (List Annotation)
  | fixed as => as
  | overrides f declared site => ctx.overrides ix f declared site

/-- The annotations of all pieces, or the error of the first piece that has one. -/
def collect (ctx : Context) (ix : Index) : List Piece → Outcome (List Annotation)
  | [] => .ok []
  | p :: ps => do
    let as ← p.annotations ctx ix
    let rest ← collect ctx ix ps
    return as ++ rest

end Piece

namespace Declaration

/-- The annotations for the callbacks of a class. -/
def Callbacks.writes (callbacks : Callbacks) (className : String) : List Annotation :=
  callbacks.declared.map fun p => .marker p.1 (some (.onMethod className p.2))

/-- The annotations for a basic attribute. -/
def BasicAttribute.writes (a : BasicAttribute) (site : Site) : List Annotation :=
  (a.column.map fun c => c.annotation (some site)).toList ++
  (if a.lob then [.marker .lob (some site)] else []) ++
  (a.temporal.map fun t => t.annotation (some site)).toList ++
  (a.enumerated.map fun e => e.annotation (some site)).toList

/-- What an association has to write. -/
def AssociationAttribute.pieces (a : AssociationAttribute) (ctx : Context) (site : Site) :
    List Piece :=
  [.fixed ((a.annotation ctx.classPath ctx.defaults site).map Option.toList),
   .plain (JoinColumn.listAnnotation a.joinColumns (some site)).toList,
   .plain (a.joinTable.map fun t => t.annotation ctx.defaults (some site)).toList,
   .plain (a.collectionTable.map fun t => t.annotation ctx.defaults (some site)).toList,
   .plain (a.orderColumn.map fun c => c.annotation (some site)).toList,
   .overrides .attributes a.attributeOverrides site,
   .overrides .associations a.associationOverrides site]

/-- The class of a listener, looked up for the class that declares it. -/
def Listener.resolve (l : Listener) (ctx : Context) (owner : String) : Outcome String :=
  if Text.isBlank l.className then .error (.unnamedListener owner)
  else ctx.classPath.resolve ctx.defaults l.className "entity listener"

namespace Entity

/-- The annotations for the listeners of a class and for the callbacks of each. -/
def listenerWrites (e : Entity) (ctx : Context) (className : String) :
    Outcome (List Annotation) := do
  let classes ← e.entityListeners.mapM fun l => l.resolve ctx className
  if e.entityListeners.isEmpty then return []
  return .ofEntries .entityListeners (some (.onClass className)) [("value", .classRefs classes)] ::
    (e.entityListeners.zip classes).flatMap fun p => p.1.callbacks.writes p.2

/-- The access type that an entity takes over from its class when it declares none. -/
def inheritedAccess (e : Entity) (ofClass : Option Access) : Option Access :=
  if e.access.isSome then none else ofClass

/-- The annotation for the id class. -/
def idClassWrites (e : Entity) (ctx : Context) (className : String) :
    Outcome (List Annotation) := do
  let idClass ← ctx.resolve? e.idClass "id class"
  return (idClass.map fun c =>
    .ofEntries .idClass (some (.onClass className)) [("value", .classRef (some c))]).toList

/-- What an entity has to write under an access type, in order. -/
def ownPieces (e : Entity) (ctx : Context) (className : String) (access : Access) : List Piece :=
  let site := Site.onClass className
  [.plain (if e.excludeDefaultListeners then [.marker .excludeDefaultListeners (some site)]
     else []),
   .plain (if e.excludeSuperclassListeners then [.marker .excludeSuperclassListeners (some site)]
     else []),
   .fixed (e.idClassWrites ctx className),
   .overrides .attributes e.attributeOverrides site,
   .overrides .associations e.associationOverrides site,
   .plain (PrimaryKeyJoinColumn.listAnnotation e.primaryKeyJoinColumns (some site)).toList,
   .plain (e.basicAttributes.flatMap fun a => a.writes (access.site className a.name))] ++
  (e.associations.flatMap fun a => a.pieces ctx (access.site className a.name)) ++
  [.plain (e.transientAttributes.map fun name =>
     .marker .transient (some (.onField className name))),
   .fixed (e.listenerWrites ctx className),
   .plain (e.callbacks.writes className)]

/-- All that an entity has to write, given the access type of its class: first the access type
that it takes over, if any. -/
def pieces (e : Entity) (ctx : Context) (className : String) (ofClass : Option Access) :
    List Piece :=
  let inherited := e.inheritedAccess ofClass
  .plain (inherited.map fun a => a.annotation className).toList ::
    e.ownPieces ctx className ((e.access.or inherited).getD .field)

/-- The annotations that an entity stands for, in the order in which they are written. -/
def writes (e : Entity) (ctx : Context) (className : String) (ix : Index) :
    Outcome (List Annotation) :=
  Piece.collect ctx ix (e.pieces ctx className (ctx.access? ix className))

/-- The index once the class of an entity is entered and its declared access type stated. -/
def enrolled (e : Entity) (d : Defaults) (ix : Index) : Index :=
  let className := d.qualify e.className
  let ix := ix.enter className
  let ix := if e.metadataComplete then ix.markComplete className else ix
  match e.access with
  | some access => ix.write (access.annotation className)
  | none => ix

/-- Enter the class of an entity in the index, and state its declared access type. Returns the
full name of the class. -/
def enrol (e : Entity) (d : Defaults) : Change Index String := do
  if Text.isBlank e.className then throw .unnamedEntity
  modify (e.enrolled d)
  return d.qualify e.className

/-- Write the annotations of an entity; needs the class name that enrolling has returned. Returns
the number of annotations written. -/
def process (e : Entity) (ctx : Context) : Option String → Change Index Nat
  | none => throw .notEnrolled
  | some className => do
    let as ← e.writes ctx className (← get)
    modify fun ix => ix.writeAll as
    return as.length

theorem run_enrol (e : Entity) (d : Defaults) (ix : Index) :
    (e.enrol d).run ix = if Text.isBlank e.className then .error .unnamedEntity ix
      else .ok (d.qualify e.className) (e.enrolled d ix) := by
  unfold enrol
  by_cases h : Text.isBlank e.className
  · rw [if_pos h, if_pos h]
    rfl
  · rw [if_neg h, if_neg h]
    rfl

theorem run_process (e : Entity) (ctx : Context) (className : String) (ix : Index) :
    (e.process ctx (some className)).run ix = match e.writes ctx className ix with
      | .ok as => .ok as.length (ix.writeAll as)
      | .error err => .error err ix := by
  unfold process
  rw [EStateM.run_bind, EStateM.run_get]
  dsimp only
  rw [EStateM.run_bind, Change.run_liftM]
  cases e.writes ctx className ix with
  | ok as => rfl
  | error err => rfl

end Entity

end Declaration

end MappingMetadata
