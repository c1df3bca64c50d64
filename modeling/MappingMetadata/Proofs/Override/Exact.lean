import MappingMetadata.Proofs.Assoc
import MappingMetadata.Proofs.Override.Items

/-!
# The exact result of a merge

Merging collapses the declared list, scans a wrapper and then scans the single overrides, and all
three go by the names taken so far. Said without the scans:

**Theorem (`mergeFrom_exact`).** Merging returns the declared overrides, each name once when
repeated names are collapsed, and after them one carried override for each further name that is
held for the site. A name stands where it first occurs. It has the content of its last
declaration if it is declared, and the kept fields of its first occurrence if it is held.

Both halves are the same observation about lists: what is left of a list when repeated names are
passed over is its distinct names in order, each with the item that is looked up for it. For
declared overrides this is how a map is made of a list of pairs, for held ones it is `fresh`.
-/

namespace MappingMetadata.Override

variable {f : Family}

/-! ## Declared overrides -/

/-- One declaration for each name, in the order in which the names first occur: the last one. -/
def lastDeclarations (f : Family) (os : List f.Declared) : List f.Declared :=
  (os.map f.name).eraseDups.filterMap fun n => os.reverse.find? fun o => f.name o = n

theorem collapse_eq (os : List f.Declared) : collapse f os = lastDeclarations f os := by
  have hkeys : Assoc.keys (os.map fun o => (f.name o, o)) = os.map f.name := by
    rw [Assoc.keys, List.map_map]
    rfl
  rw [collapse, Assoc.map_snd_ofList, hkeys]
  refine List.filterMap_congr fun n _ => ?_
  rw [← List.map_reverse, List.find?_map, Option.map_map]
  exact Option.map_id'

theorem taking_eq (dedupe : Bool) (os : List f.Declared) :
    taking f dedupe os = if dedupe then lastDeclarations f os else os := by
  cases dedupe with
  | false => rfl
  | true => exact collapse_eq os

/-! ## Held overrides -/

/-- Fresh items are the distinct names that are not taken, each with its first item. -/
theorem fresh_eq (taken : List String) (is : List (Item f)) :
    fresh taken is = ((is.map Item.name).eraseDups.filter fun n => n ∉ taken).filterMap
      fun n => is.find? fun i => i.name = n := by
  induction is using List.reverseRecOn with
  | nil => rfl
  | append_singleton is j ih =>
    have hlast : fresh (is.map Item.name ++ taken) [j] =
        if j.name ∈ is.map Item.name ++ taken then [] else [j] := rfl
    -- The new item comes last, so it is looked up for no name that is there already.
    have hold : ∀ n ∈ (is.map Item.name).eraseDups.filter fun n => n ∉ taken,
        ((is ++ [j]).find? fun i => i.name = n) = is.find? fun i => i.name = n := by
      intro n hn
      obtain ⟨i, hi, rfl⟩ := List.mem_map.1 (List.mem_eraseDups.1 (List.mem_of_mem_filter hn))
      have hsome : (is.find? fun i' => i'.name = i.name).isSome :=
        List.find?_isSome.2 ⟨i, hi, decide_eq_true rfl⟩
      rw [List.find?_append, Option.or_of_isSome hsome]
    rw [fresh_append, ih, hlast, List.map_append, List.map_singleton, eraseDups_concat]
    by_cases hj : j.name ∈ is.map Item.name
    · rw [if_pos hj, if_pos (List.mem_append_left _ hj), List.append_nil,
        List.filterMap_congr hold]
    · have hnone : (is.find? fun i => i.name = j.name) = none :=
        List.find?_eq_none.2 fun i hi he =>
          hj (List.mem_map.2 ⟨i, hi, of_decide_eq_true he⟩)
      rw [if_neg hj, List.filter_append, List.filterMap_append, List.filterMap_congr hold]
      congr 1
      by_cases ht : j.name ∈ taken
      · rw [if_pos (List.mem_append_right _ ht)]
        simp [ht]
      · rw [if_neg fun h => (List.mem_append.1 h).elim hj ht]
        simp [ht, List.find?_append, hnone]

/-- One item for each name of the annotations that is not taken, in the order in which the names
first occur: what the first annotation of the name is carried over as. -/
def firstCarried (f : Family) (taken : List String) (as : List Annotation) : List (Item f) :=
  ((as.filterMap Annotation.name?).eraseDups.filter fun n => n ∉ taken).filterMap fun n =>
    (as.find? fun a => a.name? = some n).map fun a => .carried n (Item.kept f a)

theorem names_of_carried {as : List Annotation} {items : List (Item f)}
    (h : as.mapM Item.carry = .ok items) : items.map Item.name = as.filterMap Annotation.name? := by
  have hall := Outcome.mapM_eq_ok_iff.1 h
  clear h
  induction hall with
  | nil => rfl
  | cons hcarry _ ih =>
    obtain ⟨n, hn, rfl⟩ := Item.carry_eq_ok_iff.1 hcarry
    rw [List.map_cons, List.filterMap_cons_some hn, ih]
    rfl

theorem fresh_eq_firstCarried {as : List Annotation} {items : List (Item f)}
    (h : as.mapM Item.carry = .ok items) (taken : List String) :
    fresh taken items = firstCarried f taken as := by
  have hfind : ∀ n, (items.find? fun i => i.name = n) =
      (as.find? fun a => a.name? = some n).map fun a => .carried n (Item.kept f a) := by
    intro n
    have hall := Outcome.mapM_eq_ok_iff.1 h
    clear h
    induction hall with
    | nil => rfl
    | cons hcarry _ ih =>
      obtain ⟨m, hm, rfl⟩ := Item.carry_eq_ok_iff.1 hcarry
      rw [List.find?_cons, List.find?_cons, ih, hm]
      by_cases hmn : m = n
      · subst hmn
        simp [Item.name]
      · simp [Item.name, hmn]
  rw [fresh_eq, firstCarried, names_of_carried h]
  exact List.filterMap_congr fun n _ => hfind n

theorem mapM_carry_of_nameless {as : List Annotation} (h : ∃ a ∈ as, a.name? = none) :
    (as.mapM Item.carry : Outcome (List (Item f))) = .error (.missingName f.scalar) := by
  induction as with
  | nil =>
    obtain ⟨a, ha, -⟩ := h
    cases ha
  | cons a as ih =>
    rw [List.mapM_cons]
    cases hname : a.name? with
    | none =>
      have hcarry : (Item.carry a : Outcome (Item f)) = .error (.missingName f.scalar) := by
        rw [Item.carry, hname]
      rw [hcarry]
      rfl
    | some n =>
      obtain ⟨b, hb, hnone⟩ := h
      have hb : b ∈ as := (List.mem_cons.1 hb).resolve_left fun e => by
        rw [e, hname] at hnone
        cases hnone
      rw [ih ⟨b, hb, hnone⟩, Item.carry_eq_ok_iff.2 ⟨n, hname, rfl⟩]
      rfl

theorem exists_mapM_carry {as : List Annotation} (h : ∀ a ∈ as, a.name? ≠ none) :
    ∃ items : List (Item f), as.mapM Item.carry = .ok items := by
  refine Outcome.exists_mapM_iff.2 fun a ha => ?_
  obtain ⟨n, hn⟩ := Option.ne_none_iff_exists'.1 (h a ha)
  exact ⟨_, Item.carry_eq_ok_iff.2 ⟨n, hn, rfl⟩⟩

/-! ## Merging -/

theorem Source.overrides_eq (source : Source) (f : Family) (site : Site) :
    source.overrides f site =
      (((source site.className f.wrapper).find? fun a => a.site = some site).elim []
        Annotation.members) ++
      (source site.className f.scalar).filter fun a => a.site = some site := by
  unfold overrides onSite
  rw [List.head?_filter]
  cases (source site.className f.wrapper).find? fun a => a.site = some site <;> rfl

theorem Source.overrides_congr {source source' : Source} {site : Site}
    (h : ∀ k ∈ f.kinds, source'.onSite k site = source.onSite k site) :
    source'.overrides f site = source.overrides f site := by
  rw [overrides, overrides, h f.wrapper (by simp [Family.kinds]),
    h f.scalar (by simp [Family.kinds])]

theorem mergeFrom_of_blank {source : Source} {dedupe : Bool} {declared : List f.Declared}
    {site : Site} (h : ∃ o ∈ declared, Text.isBlank (f.name o)) :
    mergeFrom f source dedupe declared (some site) = .error (.missingName f.scalar) := by
  obtain ⟨o, ho, hblank⟩ := h
  have hempty : ¬ declared.isEmpty := by simpa using List.ne_nil_of_mem ho
  rw [mergeFrom_some, if_neg hempty, if_pos (List.any_eq_true.2 ⟨o, ho, hblank⟩)]

/-- Once the declared overrides are found to have names, merging comes down to carrying over. -/
theorem mergeFrom_of_names (source : Source) (dedupe : Bool) {declared : List f.Declared}
    (site : Site) (hne : declared ≠ []) (h : ∀ o ∈ declared, ¬ Text.isBlank (f.name o)) :
    mergeFrom f source dedupe declared (some site) =
      ((source.overrides f site).mapM Item.carry >>= fun carried =>
        .ok (some ⟨site, (taking f dedupe declared).map .declared ++
          fresh ((taking f dedupe declared).map f.name) carried⟩)) := by
  have hempty : ¬ declared.isEmpty := by simpa using hne
  have hany : ¬ (declared.any fun o => Text.isBlank (f.name o)) := fun hb =>
    let ⟨o, ho, hblank⟩ := List.any_eq_true.1 hb
    h o ho hblank
  rw [mergeFrom_some, if_neg hempty, if_neg hany]

/-- **The exact result of a merge.** The declared overrides come first, then the held ones with
other names. Merging fails when a declared override has a blank name or a held one has none, and
it depends only on what stands on the site. -/
theorem mergeFrom_exact (source : Source) (dedupe : Bool) {declared : List f.Declared}
    (hne : declared ≠ []) (site : Site) :
    let own := if dedupe then lastDeclarations f declared else declared
    let first? := (source site.className f.wrapper).find? fun a => a.site = some site
    let held := first?.elim [] Annotation.members ++
      (source site.className f.scalar).filter fun a => a.site = some site
    ((∃ o ∈ declared, Text.isBlank (f.name o)) →
        mergeFrom f source dedupe declared (some site) = .error (.missingName f.scalar)) ∧
      ((∀ o ∈ declared, ¬ Text.isBlank (f.name o)) →
        (mergeFrom f source dedupe declared (some site) = .error (.missingName f.scalar) ↔
          ∃ a ∈ held, a.name? = none) ∧
        ((∀ a ∈ held, a.name? ≠ none) →
          mergeFrom f source dedupe declared (some site) = .ok (some ⟨site,
            own.map .declared ++ firstCarried f (own.map f.name) held⟩))) ∧
      ∀ source' : Source,
        (∀ k ∈ f.kinds, ((source' site.className k).filter fun a => a.site = some site) =
          (source site.className k).filter fun a => a.site = some site) →
        mergeFrom f source' dedupe declared (some site) =
          mergeFrom f source dedupe declared (some site) := by
  intro own first? held
  have hheld : source.overrides f site = held := source.overrides_eq f site
  refine ⟨mergeFrom_of_blank, fun hnames => ?_, fun source' hsource => ?_⟩
  · have hmerge := mergeFrom_of_names source dedupe site hne hnames
    rw [hheld, taking_eq] at hmerge
    have hok : (∀ a ∈ held, a.name? ≠ none) →
        mergeFrom f source dedupe declared (some site) = .ok (some ⟨site,
          own.map .declared ++ firstCarried f (own.map f.name) held⟩) := by
      intro hnamed
      obtain ⟨items, hitems⟩ := exists_mapM_carry (f := f) hnamed
      rw [hmerge, hitems, ← fresh_eq_firstCarried hitems]
      rfl
    refine ⟨⟨fun herror => ?_, fun hnameless => ?_⟩, hok⟩
    · by_contra hall
      push Not at hall
      rw [hok hall] at herror
      cases herror
    · rw [hmerge, mapM_carry_of_nameless hnameless]
      rfl
  · rw [mergeFrom_some, mergeFrom_some, Source.overrides_congr hsource]

/-- Names repeated in the document, in the wrapper, among the single overrides and across them. -/
theorem mergeFrom_repeated_names :
    let site : Site := .onClass "Order"
    let declare := fun name column : String =>
      ({ name := name, column := some (.named column) } : Declaration.AttributeOverride)
    let held := fun (name column : String) (site : Option Site) =>
      Declaration.AttributeOverride.annotation (declare name column) site
    let ix : Index := .ofList [
      .wrapper .attributeOverrides (some site) [held "b" "B1" none, held "c" "C1" none,
        held "c" "C2" none],
      held "c" "C3" (some site), held "d" "D1" (some site), held "d" "D2" (some site),
      held "e" "E1" (some (.onClass "Item"))]
    let declared : List (Family.Declared .attributes) :=
      [declare "a" "A1", declare "b" "B2", declare "a" "A2"]
    let column := fun i : Item .attributes =>
      ((Item.annotation i {} none).field? "column").bind fun v =>
        v.nested?.bind Annotation.name?
    declared ≠ [] ∧ ∃ items,
      mergeFrom .attributes ix.ofKind true declared (some site) = .ok (some ⟨site, items⟩) ∧
        items.map Item.name = ["a", "b", "c", "d"] ∧
        items.map Item.isDeclared = [true, true, false, false] ∧
        items.map column = [some "A2", some "B2", some "C1", some "D1"] := by
  intro site declare held ix declared column
  have hne : declared ≠ [] := List.cons_ne_nil _ _
  have hblank : ∀ o ∈ declared, ¬ Text.isBlank (Family.name _ o) := by decide +kernel
  have hmerge := ((mergeFrom_exact ix.ofKind true hne site).2.1 hblank).2 (by decide +kernel)
  refine ⟨hne, _, hmerge, ?_, ?_, ?_⟩
  all_goals decide +kernel

end MappingMetadata.Override
