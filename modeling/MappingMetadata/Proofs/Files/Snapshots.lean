import MappingMetadata.Proofs.Codec.Annotations
import MappingMetadata.Proofs.Files.Saving

/-!
# Snapshots in files

The text of an index, stored in a file, is a snapshot from which the same index is loaded.

**Theorem (`Index.json_snapshot_reads_back`).** An index that is not written too deep is read back
from its JSON text, with its classes, kinds, annotations and fields in their order, as an index and
as a snapshot in a file.
-/

namespace MappingMetadata.Index

/-- **Indexes are read back**, from their JSON text and from a file that holds it, as long as no
more lists and records stand inside one another than a reader enters. Fields are kept as lists here;
that they are maps by their names has to be said. -/
theorem json_snapshot_reads_back (ix : Index) (hdistinct : ∀ a ∈ ix.toList, a.Distinct)
    (hdepth : (codec.write ix).depth ≤ Json.maxDepth) :
    Format.json.read codec.read (Format.json.render (codec.write ix)) = .ok ix ∧
    ∀ (t : FileTree) (path : String), Format.ofPath path = .json →
      t.read? path = some (Format.json.render (codec.write ix)) →
      (FileTree.disk.loadIndex path).run.run t = (.ok ix, t) := by
  refine ⟨Format.read_render_json (readsBack hdistinct _ hdepth), fun t path hpath htext => ?_⟩
  have hsnapshot : Format.json.read readSnapshot (Format.json.render (codec.write ix)) = .ok ix :=
    Format.read_render_json (yields_readSnapshot hdistinct hdepth)
  have hloaded : t.loaded readSnapshot path = .ok ix := by
    rw [FileTree.loaded, htext, hpath]
    exact hsnapshot
  exact (FileTree.run_load t readSnapshot path).trans (by rw [hloaded])

/-- Two classes, one of them without annotations, and a kind of which none is left; the annotations
nest others in two ways. -/
theorem json_snapshot_reads_back_nested :
    let lines : Site := .onField "app.Order" "lines"
    let column : Annotation := ⟨.joinColumn, none,
      [("name", .string "order_id"), ("nullable", .bool false), ("length", .int (-1))]⟩
    let table : Annotation := ⟨.joinTable, some lines,
      [("joinColumns", .array [column, column]), ("inverse", .nested column)]⟩
    let many : Annotation := ⟨.oneToMany, some lines, [("cascade", .constants "Cascade" ["ALL"])]⟩
    let ix :=
      ((ofList [.marker .lob lines, table, many]).removeAt lines .lob).markComplete "app.Item"
    let text := Format.json.render (codec.write ix)
    (∀ a ∈ ix.toList, a.Distinct) ∧ (codec.write ix).depth ≤ Json.maxDepth ∧
      Format.json.read codec.read text = .ok ix ∧
      ∃ t, FileTree.empty.write? "index.json" text = some t ∧
        (FileTree.disk.loadIndex "index.json").run.run t = (.ok ix, t) := by
  intro lines column table many ix text
  have hdistinct : ∀ a ∈ ix.toList, a.Distinct := by decide
  have hdepth : (codec.write ix).depth ≤ Json.maxDepth := by decide
  obtain ⟨hindex, hfile⟩ := json_snapshot_reads_back ix hdistinct hdepth
  obtain ⟨t, ht⟩ : ∃ t, FileTree.empty.write? "index.json" text = some t := ⟨_, rfl⟩
  have hload := hfile t "index.json" (by decide) (FileTree.read?_of_write? ht)
  exact ⟨hdistinct, hdepth, hindex, t, ht, hload⟩

end MappingMetadata.Index
