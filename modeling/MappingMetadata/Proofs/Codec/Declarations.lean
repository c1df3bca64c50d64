import MappingMetadata.Codec.Declarations
import MappingMetadata.Proofs.Codec.Records

/-!
# Documents and settings are read back

Every codec of a declaration is faithful: each proof goes through the members of the record in the
order in which the codec lists them, and finds no name twice. The number behind `Faithful` grows
with what is nested: an override nests a join table, which nests unique constraints, which nest
column names. The deepest document reaches eleven levels.

**Theorem (`Format.json_reads_declarations_back`).** Any document and any settings are read back
from the JSON text that is written of them.
-/

namespace MappingMetadata

/-! ## Closed vocabularies -/

theorem Access.faithful (n : Nat) : Access.codec.Faithful n :=
  .choice fun a => by cases a <;> rfl

theorem Temporal.faithful (n : Nat) : Temporal.codec.Faithful n :=
  .choice fun a => by cases a <;> rfl

theorem EnumForm.faithful (n : Nat) : EnumForm.codec.Faithful n :=
  .choice fun a => by cases a <;> rfl

theorem LockMode.faithful (n : Nat) : LockMode.codec.Faithful n :=
  .choice fun a => by cases a <;> rfl

theorem Association.faithful (n : Nat) : Association.codec.Faithful n :=
  .choice fun a => by cases a <;> rfl

theorem Cascade.faithful (n : Nat) : Cascade.codec.Faithful n :=
  .choice fun a => by cases a <;> rfl

/-! ## Defaults and settings -/

theorem Defaults.faithful (n : Nat) : Defaults.codec.Faithful (n + 1) :=
  .record (by decide) <| .iso (fun _ => rfl) <|
    .optional .text <| .optional .text <| .optional .text <|
    .optional (Access.faithful n) <| .optional .bool .done

theorem Settings.faithful (n : Nat) : Settings.codec.Faithful (n + 2) :=
  have hdefaults := Defaults.faithful n
  .record (by decide) <| .iso (fun _ => rfl) <|
    .member hdefaults.readsBack hdefaults.depth_le <| .flag <| .list .text <| .flag .done

namespace Declaration

/-! ## Columns and tables -/

theorem Column.faithful (n : Nat) : Column.codec.Faithful (n + 1) :=
  .record (by decide) <| .iso (fun _ => rfl) <|
    .optional .text <| .optional .text <| .optional .text <|
    .optional .bool <| .optional .bool <| .optional .bool <| .optional .bool <|
    .optional .int64 <| .optional .int64 <| .optional .int64 .done

theorem JoinColumn.faithful (n : Nat) : JoinColumn.codec.Faithful (n + 1) :=
  .record (by decide) <| .iso (fun _ => rfl) <|
    .optional .text <| .optional .text <| .optional .text <| .optional .text <|
    .optional .bool <| .optional .bool <| .optional .bool <| .optional .bool .done

theorem OrderColumn.faithful (n : Nat) : OrderColumn.codec.Faithful (n + 1) :=
  .record (by decide) <| .iso (fun _ => rfl) <|
    .optional .text <| .optional .text <|
    .optional .bool <| .optional .bool <| .optional .bool .done

theorem PrimaryKeyJoinColumn.faithful (n : Nat) : PrimaryKeyJoinColumn.codec.Faithful (n + 1) :=
  .record (by decide) <| .iso (fun _ => rfl) <|
    .optional .text <| .optional .text <| .optional .text .done

theorem UniqueConstraint.faithful (n : Nat) : UniqueConstraint.codec.Faithful (n + 2) :=
  .record (by decide) <| .iso (fun _ => rfl) <| .optional .text <| .list .text .done

theorem JoinTable.faithful (n : Nat) : JoinTable.codec.Faithful (n + 4) :=
  .record (by decide) <| .iso (fun _ => rfl) <|
    .optional .text <| .optional .text <| .optional .text <|
    .list (JoinColumn.faithful _) <| .list (JoinColumn.faithful _) <|
    .list (UniqueConstraint.faithful _) .done

theorem CollectionTable.faithful (n : Nat) : CollectionTable.codec.Faithful (n + 4) :=
  .record (by decide) <| .iso (fun _ => rfl) <|
    .optional .text <| .optional .text <| .optional .text <|
    .list (JoinColumn.faithful _) <| .list (UniqueConstraint.faithful _) .done

/-! ## Overrides -/

theorem AttributeOverride.faithful (n : Nat) : AttributeOverride.codec.Faithful (n + 2) :=
  .record (by decide) <| .iso (fun _ => rfl) <|
    .required .text <| .optional (Column.faithful _) .done

theorem AssociationOverride.faithful (n : Nat) : AssociationOverride.codec.Faithful (n + 5) :=
  .record (by decide) <| .iso (fun _ => rfl) <|
    .required .text <| .list (JoinColumn.faithful _) <| .optional (JoinTable.faithful _) .done

/-! ## Generators and queries -/

theorem TableGenerator.faithful (n : Nat) : TableGenerator.codec.Faithful (n + 4) :=
  .record (by decide) <| .iso (fun _ => rfl) <|
    .optional .text <| .optional .text <| .optional .text <| .optional .text <|
    .optional .text <| .optional .text <| .optional .text <|
    .optional .int64 <| .optional .int64 <| .list (UniqueConstraint.faithful _) .done

theorem SequenceGenerator.faithful (n : Nat) : SequenceGenerator.codec.Faithful (n + 1) :=
  .record (by decide) <| .iso (fun _ => rfl) <|
    .optional .text <| .optional .text <| .optional .text <| .optional .text <|
    .optional .int64 <| .optional .int64 .done

theorem QueryHint.faithful (n : Nat) : QueryHint.codec.Faithful (n + 1) :=
  .record (by decide) <| .iso (fun _ => rfl) <| .optional .text <| .optional .text .done

theorem NamedQuery.faithful (n : Nat) : NamedQuery.codec.Faithful (n + 3) :=
  .record (by decide) <| .iso (fun _ => rfl) <|
    .optional .text <| .optional .text <| .optional (LockMode.faithful _) <|
    .list (QueryHint.faithful _) .done

theorem NamedNativeQuery.faithful (n : Nat) : NamedNativeQuery.codec.Faithful (n + 3) :=
  .record (by decide) <| .iso (fun _ => rfl) <|
    .optional .text <| .optional .text <| .optional .text <| .optional .text <|
    .list (QueryHint.faithful _) .done

theorem FieldResult.faithful (n : Nat) : FieldResult.codec.Faithful (n + 1) :=
  .record (by decide) <| .iso (fun _ => rfl) <| .optional .text <| .optional .text .done

theorem EntityResult.faithful (n : Nat) : EntityResult.codec.Faithful (n + 3) :=
  .record (by decide) <| .iso (fun _ => rfl) <|
    .optional .text <| .optional .text <| .list (FieldResult.faithful _) .done

theorem ColumnResult.faithful (n : Nat) : ColumnResult.codec.Faithful (n + 1) :=
  .record (by decide) <| .iso (fun _ => rfl) <| .optional .text .done

theorem ResultSetMapping.faithful (n : Nat) : ResultSetMapping.codec.Faithful (n + 5) :=
  .record (by decide) <| .iso (fun _ => rfl) <|
    .optional .text <| .list (EntityResult.faithful _) <| .list (ColumnResult.faithful _) .done

theorem GlobalDeclarations.faithful_members (n : Nat) :
    GlobalDeclarations.members.Faithful (n + 6) :=
  .iso (fun _ => rfl) <|
    .list (TableGenerator.faithful _) <| .list (SequenceGenerator.faithful _) <|
    .list (NamedQuery.faithful _) <| .list (NamedNativeQuery.faithful _) <|
    .list (ResultSetMapping.faithful _) .done

/-! ## Entities -/

theorem BasicAttribute.faithful (n : Nat) : BasicAttribute.codec.Faithful (n + 2) :=
  .record (by decide) <| .iso (fun _ => rfl) <|
    .required .text <| .optional (Column.faithful _) <| .flag <|
    .optional (Temporal.faithful _) <| .optional (EnumForm.faithful _) .done

theorem AssociationAttribute.faithful (n : Nat) : AssociationAttribute.codec.Faithful (n + 7) :=
  .record (by decide) <| .iso (fun _ => rfl) <|
    .required .text <| .list (JoinColumn.faithful _) <|
    .optional (JoinTable.faithful _) <| .optional (CollectionTable.faithful _) <|
    .optional (OrderColumn.faithful _) <|
    .list (AttributeOverride.faithful _) <| .list (AssociationOverride.faithful _) <|
    .optional (Association.faithful _) <| .optional .text <| .list (Cascade.faithful _) .done

theorem Callbacks.faithful_members (n : Nat) : Callbacks.members.Faithful n :=
  .iso (fun _ => rfl) <|
    .optional .text <| .optional .text <| .optional .text <| .optional .text <|
    .optional .text <| .optional .text <| .optional .text .done

theorem Listener.faithful (n : Nat) : Listener.codec.Faithful (n + 1) :=
  .iso (fun _ => rfl) <|
    .merged (by decide) (.required .text .done) (Callbacks.faithful_members n)

theorem Entity.faithful (n : Nat) : Entity.codec.Faithful (n + 9) :=
  .iso (fun _ => rfl) <| .merged (by decide)
    (.required .text <| .flag <| .optional (Access.faithful _) <| .flag <| .flag <|
      .optional .text <| .list (AttributeOverride.faithful _) <|
      .list (AssociationOverride.faithful _) <| .list (PrimaryKeyJoinColumn.faithful _) <|
      .list (BasicAttribute.faithful _) <| .list (AssociationAttribute.faithful _) <|
      .list .text <| .list (Listener.faithful _) .done)
    (Callbacks.faithful_members _)

theorem Document.faithful (n : Nat) : Document.codec.Faithful (n + 11) :=
  have hdefaults := Defaults.faithful (n + 9)
  .iso (fun _ => rfl) <| .merged (by decide)
    (.member hdefaults.readsBack hdefaults.depth_le <| .list (Entity.faithful _) .done)
    (GlobalDeclarations.faithful_members _)

end Declaration

/-! ## Whole texts -/

namespace Format

/-- **Documents and settings are read back** from the JSON text that is written of them. -/
theorem json_reads_declarations_back :
    (∀ doc : Declaration.Document,
      json.read Declaration.Document.codec.read
        (json.render (Declaration.Document.codec.write doc)) = .ok doc) ∧
    ∀ s : Settings,
      json.read Settings.codec.read (json.render (Settings.codec.write s)) = .ok s := by
  have hdocument := Declaration.Document.faithful 0
  have hsettings := Settings.faithful 0
  refine ⟨fun doc => read_render_json (hdocument.readsBack doc _ ?_),
    fun s => read_render_json (hsettings.readsBack s _ ?_)⟩
  · exact (hdocument.depth_le doc).trans (by decide)
  · exact (hsettings.depth_le s).trans (by decide)

end Format

end MappingMetadata
