import MappingMetadata.Proofs.Entity.Plain
import MappingMetadata.Proofs.Index.Retracing
import MappingMetadata.Proofs.Override.Holding

/-!
# Collecting what an entity writes

All pieces of an entity are made against the index as it stands before the first is written. An
entity may declare overrides for one site several times, as two associations of one name. Each is
then merged with the same items, and only the last survives, so to the site an entity is just one
merge: of the list that it declares last (`lastDeclared`).

**Theorem (`retraces_collect`).** Collected against two indexes, the same pieces write the same
places; what is written there for overrides is the same unless it is covered, by the entity itself
or by what comes after it.
-/

namespace MappingMetadata.Piece

open Override

variable {f : Family} {ctx : Context}

/-! ## What is declared for a site -/

/-- What the piece declares for a site; nothing if it is for another one. -/
def declaredFor (f : Family) (site : Site) : Piece → List f.Declared
  | fixed _ => []
  | overrides g declared site' =>
    if h : g = f ∧ site' = site then h.1 ▸ declared else []

/-- The list that is declared last for a site. -/
def lastDeclared (f : Family) (site : Site) : List Piece → List f.Declared
  | [] => []
  | p :: ps =>
    if (lastDeclared f site ps).isEmpty then p.declaredFor f site else lastDeclared f site ps

theorem declaredFor_self (f : Family) (declared : List f.Declared) (site : Site) :
    (overrides f declared site).declaredFor f site = declared :=
  dif_pos ⟨rfl, rfl⟩

theorem eq_overrides_of_declaredFor {p : Piece} {site : Site} (h : p.declaredFor f site ≠ []) :
    p = overrides f (p.declaredFor f site) site := by
  cases p with
  | fixed as => exact absurd rfl h
  | overrides g declared site' =>
    by_cases hgs : g = f ∧ site' = site
    · obtain ⟨rfl, rfl⟩ := hgs
      rw [declaredFor_self]
    · exact absurd (dif_neg hgs) h

theorem lastDeclared_cons_of_ne_nil {site : Site} {p : Piece} {ps : List Piece}
    (h : lastDeclared f site ps ≠ []) :
    lastDeclared f site (p :: ps) = lastDeclared f site ps := by
  rw [lastDeclared, if_neg]
  simpa using h

theorem lastDeclared_cons_of_nil {site : Site} {p : Piece} {ps : List Piece}
    (h : lastDeclared f site ps = []) : lastDeclared f site (p :: ps) = p.declaredFor f site := by
  rw [lastDeclared, if_pos]
  simpa using h

theorem lastDeclared_eq_nil_iff {site : Site} {ps : List Piece} :
    lastDeclared f site ps = [] ↔ ∀ p ∈ ps, p.declaredFor f site = [] := by
  induction ps with
  | nil => simp [lastDeclared]
  | cons p ps ih =>
    rw [List.forall_mem_cons, ← ih]
    by_cases h : lastDeclared f site ps = []
    · rw [lastDeclared_cons_of_nil h]
      exact ⟨fun hp => ⟨hp, h⟩, fun hp => hp.1⟩
    · rw [lastDeclared_cons_of_ne_nil h]
      exact ⟨fun hp => absurd hp h, fun hp => absurd hp.2 h⟩

/-! ## What is collected -/

/-- A piece writes what is fixed, or to the slot of the overrides that it declares. -/
theorem mem_annotations {p : Piece} {ix : Index} {as : List Annotation}
    (h : p.annotations ctx ix = .ok as) {a : Annotation} (ha : a ∈ as) :
    p = fixed (.ok as) ∨ ∃ f site, p.declaredFor f site ≠ [] ∧ Occupies f site a := by
  cases p with
  | fixed bs => exact Or.inl (congrArg fixed h)
  | overrides f declared site =>
    refine Or.inr ⟨f, site, ?_, occupies_of_overrides h a ha⟩
    rw [declaredFor_self]
    rintro rfl
    cases h
    cases ha

/-- A piece that declares nothing for a site leaves its overrides alone. -/
theorem not_occupies_of_declaredFor {p : Piece} (hp : p.Apart) {site : Site}
    (hnil : p.declaredFor f site = []) {ix : Index} {as : List Annotation}
    (h : p.annotations ctx ix = .ok as) : ∀ a ∈ as, ¬ Occupies f site a := by
  intro a ha ho
  rcases mem_annotations h ha with rfl | ⟨g, site', hne, ho'⟩
  · exact hp as rfl a ha f ho.2
  · have hsite : site' = site := Option.some.inj (ho'.1.symm.trans ho.1)
    have hfam : g = f := by
      have hscalar : g.scalar = f.scalar := ho'.2.symm.trans ho.2
      cases g <;> cases f <;> first | rfl | cases hscalar
    subst hsite hfam
    exact hne hnil

/-- Pieces that declare nothing for a site leave its overrides alone. -/
theorem not_occupies_of_lastDeclared {site : Site} {ix : Index} {ps : List Piece}
    (hps : ∀ p ∈ ps, p.Apart) {as : List Annotation} (h : collect ctx ix ps = .ok as)
    (hnil : lastDeclared f site ps = []) : ∀ a ∈ as, ¬ Occupies f site a := by
  intro a ha
  obtain ⟨p, hp, bs, hbs, ha⟩ := exists_of_mem_collect h ha
  exact not_occupies_of_declaredFor (hps p hp) (lastDeclared_eq_nil_iff.1 hnil p hp) hbs a ha

/-- What pieces declare for a site is merged with what could be carried over, and written there. -/
theorem exists_occupies {site : Site} {ix : Index} {ps : List Piece} {as : List Annotation}
    (h : collect ctx ix ps = .ok as) (hne : lastDeclared f site ps ≠ []) :
    (∃ held : List (Item f), (indexed ix f site).mapM Item.carry = .ok held) ∧
      ∃ a ∈ as, Occupies f site a := by
  induction ps generalizing as with
  | nil => exact absurd rfl hne
  | cons p ps ih =>
    obtain ⟨bs, rest, hbs, hrest, rfl⟩ := collect_cons_eq_ok_iff.1 h
    by_cases hps : lastDeclared f site ps = []
    · rw [lastDeclared_cons_of_nil hps] at hne
      rw [eq_overrides_of_declaredFor hne] at hbs
      obtain ⟨-, held, a, hheld, ha, rfl⟩ := (overrides_eq_ok_iff hne).1 hbs
      exact ⟨⟨held, hheld⟩, a, List.mem_cons_self, occupies_of_ofItems ha⟩
    · obtain ⟨hheld, a, ha, ho⟩ := ih hrest hps
      exact ⟨hheld, a, List.mem_append_right _ ha, ho⟩

/-! ## What is held after writing -/

/-- To a site, writing what is collected is one merge, of the list declared last. -/
theorem held_writeAll {site : Site} {ix : Index} {ps : List Piece} (hps : ∀ p ∈ ps, p.Apart)
    {as : List Annotation} (h : collect ctx ix ps = .ok as) {held : List (Item f)}
    (hheld : Held ix f site held) :
    Held (ix.writeAll as) f site
      (mergeInto ctx.defaults ctx.dedupe (lastDeclared f site ps) held) := by
  -- What the pieces are made against stays, while what is written moves on.
  suffices hmoving : ∀ (ps : List Piece), (∀ p ∈ ps, p.Apart) → ∀ (as : List Annotation),
      collect ctx ix ps = .ok as → ∀ (jx : Index) (now : List (Item f)), Held jx f site now →
      Held (jx.writeAll as) f site
        (if (lastDeclared f site ps).isEmpty then now
          else mergeInto ctx.defaults ctx.dedupe (lastDeclared f site ps) held) by
    refine (congrArg (Held (ix.writeAll as) f site) ?_).mp (hmoving ps hps as h ix held hheld)
    split
    · rename_i hnil
      rw [mergeInto, if_pos hnil]
    · rfl
  intro ps
  induction ps with
  | nil =>
    intro _ as h jx now hnow
    cases h
    exact hnow
  | cons p ps ih =>
    intro hps as h jx now hnow
    obtain ⟨bs, rest, hbs, hrest, rfl⟩ := collect_cons_eq_ok_iff.1 h
    have ih := ih (fun q hq => hps q (List.mem_cons_of_mem _ hq)) rest hrest
    rw [Index.writeAll_append]
    by_cases hp : p.declaredFor f site = []
    · have hkeep : Held (jx.writeAll bs) f site now := hnow.congr
        (indexed_writeAll_of_not_occupies jx
          (not_occupies_of_declaredFor (hps p List.mem_cons_self) hp hbs))
      have hlast : lastDeclared f site (p :: ps) = lastDeclared f site ps := by
        by_cases hlater : lastDeclared f site ps = []
        · rw [lastDeclared_cons_of_nil hlater, hp, hlater]
        · exact lastDeclared_cons_of_ne_nil hlater
      rw [hlast]
      exact ih _ now hkeep
    · rw [eq_overrides_of_declaredFor hp] at hbs
      obtain ⟨hnames, held', a, hcarried, ha, rfl⟩ := (overrides_eq_ok_iff hp).1 hbs
      have hsame : held' = held := Except.ok.inj (hcarried.symm.trans hheld.carried)
      subst hsame
      have hwritten := ih _ _ (hheld.write hp hnames ha jx)
      refine (congrArg (Held _ f site) ?_).mp hwritten
      by_cases hlater : lastDeclared f site ps = []
      · rw [lastDeclared_cons_of_nil hlater, hlater]
        simp [hp]
      · rw [lastDeclared_cons_of_ne_nil hlater]
        simp [hlater]

/-! ## Collecting against two indexes -/

theorem coveredBy_of_occupies {site : Site} {a : Annotation} (ha : Occupies f site a)
    {later : List Annotation} (h : ∃ w ∈ later, Occupies f site w) : a.coveredBy later := by
  obtain ⟨w, hw, ho⟩ := h
  refine List.any_eq_true.2 ⟨w, hw, ?_⟩
  rw [ho.1, ho.2, ha.1, ha.2]
  simp

/-- **The same pieces write the same places.** The other index must hold overrides where pieces
declare some. What is then written for a site is the same when what was held differs only in the
names that the last list takes; it need not be the same where all of it is covered later. -/
theorem retraces_collect {ix jx : Index} {ps : List Piece} {as : List Annotation}
    (h : collect ctx ix ps = .ok as)
    (hheld : ∀ f site, lastDeclared f site ps ≠ [] → ∃ y : List (Item f), Held jx f site y) :
    ∃ bs, collect ctx jx ps = .ok bs ∧ ∀ later later', Index.Retraces later later' →
      (∀ f site, lastDeclared f site ps ≠ [] → (∃ w ∈ later, Occupies f site w) ∨
        ∀ x y : List (Item f), (indexed ix f site).mapM Item.carry = .ok x → Held jx f site y →
          fresh (taken f ctx.dedupe (lastDeclared f site ps)) x =
            fresh (taken f ctx.dedupe (lastDeclared f site ps)) y) →
      Index.Retraces (as ++ later) (bs ++ later') := by
  induction ps generalizing as with
  | nil =>
    cases h
    exact ⟨[], rfl, fun later later' hlater _ => hlater⟩
  | cons p ps ih =>
    obtain ⟨cs, rest, hcs, hrest, rfl⟩ := collect_cons_eq_ok_iff.1 h
    have hcons : ∀ f site, lastDeclared f site ps ≠ [] →
        lastDeclared f site (p :: ps) = lastDeclared f site ps :=
      fun f site hne => lastDeclared_cons_of_ne_nil hne
    obtain ⟨rest', hrest', htail⟩ := ih hrest fun f site hne =>
      hheld f site (by rw [hcons f site hne]; exact hne)
    by_cases hindep : p.annotations ctx jx = .ok cs
    · refine ⟨cs ++ rest', collect_cons_eq_ok_iff.2 ⟨cs, rest', hindep, hrest', rfl⟩, ?_⟩
      intro later later' hlater hcover
      rw [List.append_assoc, List.append_assoc]
      refine (htail later later' hlater fun f site hne => ?_).append_left cs
      have hp := hcover f site
      rw [hcons f site hne] at hp
      exact hp hne
    · -- Only overrides can be made differently against the other index.
      cases p with
      | fixed bs => exact absurd hcs hindep
      | overrides f declared site =>
        have hne : declared ≠ [] := by
          rintro rfl
          exact hindep hcs
        have hlast : lastDeclared f site (overrides f declared site :: ps) ≠ [] := by
          rw [Ne, lastDeclared_eq_nil_iff, List.forall_mem_cons, declaredFor_self]
          exact fun hnil => hne hnil.1
        obtain ⟨y, hy⟩ := hheld f site hlast
        obtain ⟨hnames, x, a, hx, ha, rfl⟩ := (overrides_eq_ok_iff hne).1 hcs
        have hitems : mergedItems ctx.dedupe declared y ≠ [] := mergedItems_ne_nil hne y
        obtain ⟨b, hb⟩ := exists_ofItems hitems ctx.defaults (some site)
        have hoa := occupies_of_ofItems ha
        have hob := occupies_of_ofItems hb
        have hjx : ctx.overrides jx f declared site = .ok [b] :=
          (overrides_eq_ok_iff hne).2 ⟨hnames, y, b, hy.carried, hb, rfl⟩
        refine ⟨b :: rest', collect_cons_eq_ok_iff.2 ⟨[b], rest', hjx, hrest', rfl⟩, ?_⟩
        intro later later' hlater hcover
        refine .cons (hob.1.trans hoa.1.symm) (hob.2.trans hoa.2.symm) ?_
          (htail later later' hlater fun g site' hne' => ?_)
        · by_cases hps : lastDeclared f site ps = []
          · rcases hcover f site hlast with ⟨w, hw, how⟩ | hfresh
            · exact Or.inr (coveredBy_of_occupies hoa ⟨w, List.mem_append_right _ hw, how⟩)
            · rw [lastDeclared_cons_of_nil hps, declaredFor_self] at hfresh
              rw [mergedItems, ← hfresh x y hx hy] at hb
              exact Or.inl (Option.some.inj (hb.symm.trans ha))
          · obtain ⟨-, w, hw, how⟩ := exists_occupies hrest hps
            exact Or.inr (coveredBy_of_occupies hoa ⟨w, List.mem_append_left _ hw, how⟩)
        · have hp := hcover g site'
          rw [hcons g site' hne'] at hp
          exact hp hne'

end MappingMetadata.Piece
