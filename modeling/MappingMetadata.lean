import MappingMetadata.Main
import MappingMetadata.Proofs.Index.Slots
import MappingMetadata.Proofs.Session.Failure
import MappingMetadata.Proofs.Annotation.Nesting
import MappingMetadata.Proofs.Declaration.Nesting
import MappingMetadata.Proofs.Index.Canonical
import MappingMetadata.Proofs.Outcome
import MappingMetadata.Proofs.Override.Items
import MappingMetadata.Proofs.Entity.Canonical
import MappingMetadata.Proofs.Globals.Registrations
import MappingMetadata.Proofs.Session.Canonical
import MappingMetadata.Proofs.Session.GlobalDeclarations
import MappingMetadata.Proofs.Entity.Collecting
import MappingMetadata.Proofs.Entity.Enrolling
import MappingMetadata.Proofs.Session.Enrolling
import MappingMetadata.Proofs.Session.Replay
import MappingMetadata.Proofs.Override.Names
import MappingMetadata.Proofs.Entity.Overrides
import MappingMetadata.Proofs.Index.Frame
import MappingMetadata.Proofs.Entity.Locality
import MappingMetadata.Proofs.Globals.Appending
import MappingMetadata.Proofs.Session.Access
import MappingMetadata.Proofs.Session.Appending
import MappingMetadata.Proofs.Globals.Names
import MappingMetadata.Proofs.Session.Commuting
import MappingMetadata.Proofs.Globals.Harvesting
import MappingMetadata.Proofs.Session.Starting
import MappingMetadata.Proofs.Annotation.Values
import MappingMetadata.Proofs.Declaration.Values
import MappingMetadata.Proofs.Session.Halves
import MappingMetadata.Proofs.Entity.Values
import MappingMetadata.Proofs.Session.Values
import MappingMetadata.Proofs.Session.ClassNames
import MappingMetadata.Proofs.Alike
import MappingMetadata.Proofs.Annotation.Entries
import MappingMetadata.Proofs.Index.Viewing
import MappingMetadata.Proofs.Override.Viewing
import MappingMetadata.Proofs.Session.Emptiness
import MappingMetadata.Proofs.Entity.Viewing
import MappingMetadata.Proofs.Session.Viewing
import MappingMetadata.Proofs.Declaration.Pruning
import MappingMetadata.Proofs.Session.Pruning
import MappingMetadata.Proofs.Declaration.Qualifying
import MappingMetadata.Proofs.Session.Qualifying
import MappingMetadata.Proofs.Annotation.Revising
import MappingMetadata.Proofs.Annotation.Undefaulting
import MappingMetadata.Proofs.Override.Undefaulting
import MappingMetadata.Proofs.Entity.Undefaulting
import MappingMetadata.Proofs.Declaration.Defaulting
import MappingMetadata.Proofs.Override.Tables
import MappingMetadata.Proofs.Entity.Sources
import MappingMetadata.Proofs.Session.Undefaulting
import MappingMetadata.Proofs.Index.Growth
import MappingMetadata.Proofs.Session.Growth
import MappingMetadata.Proofs.Json.Numerals
import MappingMetadata.Proofs.Json.Lexing
import MappingMetadata.Proofs.Json.Parsing
import MappingMetadata.Proofs.Codec.Yielding
import MappingMetadata.Proofs.Codec.Records
import MappingMetadata.Proofs.Codec.Declarations
import MappingMetadata.Proofs.Codec.Annotations
import MappingMetadata.Proofs.Files.Loading
import MappingMetadata.Proofs.Files.Saving
import MappingMetadata.Proofs.Files.Snapshots
import MappingMetadata.Proofs.CommandLine.Running
import MappingMetadata.Proofs.Assoc
import MappingMetadata.Proofs.Override.Exact
import MappingMetadata.Proofs.Override.Emitting
import MappingMetadata.Proofs.Override.Twice
import MappingMetadata.Proofs.Index.Superseding
import MappingMetadata.Proofs.Entity.Effect
import MappingMetadata.Index.Operation
import MappingMetadata.Globals.Operation
import MappingMetadata.Proofs.Index.Arranging
import MappingMetadata.Proofs.Globals.Recollecting
import MappingMetadata.Proofs.Entity.Checks
import MappingMetadata.Proofs.Annotation.Sameness
import MappingMetadata.Proofs.Declaration.Retaining
import MappingMetadata.Proofs.Annotation.Accepting
import MappingMetadata.Proofs.Globals.Building
import MappingMetadata.Proofs.Codec.Steadiness
import MappingMetadata.Proofs.Files.ListSnapshots
