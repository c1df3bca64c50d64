import MappingMetadata.Globals.Build

/-!
# Operations on the registry

The ways to fill a registry, each with its answer: the declaration that was replaced, or how many
were registered. An operation that fails reports its error. Declarations that are built together
are then not registered at all, those of an index up to the one that cannot be registered.
-/

namespace MappingMetadata.Globals

open Declaration

/-- One way to fill a registry. -/
inductive Operation where
  /-- Register an annotation under its own kind and name. -/
  | register (a : Annotation)
  /-- Build declarations and register them. -/
  | declare (declarations : GlobalDeclarations) (path : ClassPath) (d : Defaults)
  /-- Register the declarations that an index holds. -/
  | collect (ix : Index)

/-- What an operation answers. -/
inductive Answer where
  | replaced (a : Option Annotation)
  | count (n : Nat)

/-- Register the declarations that an index holds; returns how many they are. -/
def collect (g : Globals) (ix : Index) : Outcome Nat × Globals :=
  let found := harvest ix
  match g.registerAll found with
  | (g, none) => (.ok found.length, g)
  | (g, some e) => (.error e, g)

/-- Do an operation: what it answers, and the registry that it leaves behind. -/
def perform (g : Globals) : Operation → Outcome Answer × Globals
  | .register a =>
    match key a with
    | .ok (k, name) => (.ok (.replaced (g.get? k name)), g.register k name a.detached)
    | .error e => (.error e, g)
  | .declare declarations path d =>
    match declarations.build path d with
    | .ok built => (.ok (.count built.length), g.registerBuilt built)
    | .error e => (.error e, g)
  | .collect ix =>
    let (counted, g) := g.collect ix
    (counted.map .count, g)

/-- The registry after operations on an empty one; one that fails does not stop those after it. -/
def ofOperations (ops : List Operation) : Globals := ops.foldl (fun g op => (g.perform op).2) empty

end MappingMetadata.Globals
