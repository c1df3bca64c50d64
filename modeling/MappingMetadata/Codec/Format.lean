import MappingMetadata.Codec.Reading
import MappingMetadata.Error
import MappingMetadata.Json.Parser
import MappingMetadata.Json.Printer
import MappingMetadata.Yaml.Document
import MappingMetadata.Yaml.Printer

/-!
# Texts in either format

Reading and writing whole texts in JSON or YAML.
-/

namespace MappingMetadata.Format

/-- The text of some data. -/
def render : Format → Data → String
  | json, d => Json.render d
  | yaml, d => Yaml.render d

/-- Read a value from a text. -/
def read {α : Type} (f : Format) (r : Reader α) (text : String) : Outcome α :=
  let result : Option (α × Surroundings) :=
    match f with
    | json => do
      let t ← Json.parse? text
      (r Json.maxDepth t).run {}
    | yaml => do
      let (t, surroundings) ← Yaml.parse? text
      (r Yaml.maxDepth t).run surroundings
  match result with
  | some (a, _) => .ok a
  | none => .error (.malformed f)

end MappingMetadata.Format
