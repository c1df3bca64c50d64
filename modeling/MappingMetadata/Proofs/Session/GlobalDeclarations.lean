import MappingMetadata.Proofs.Globals.Registrations
import MappingMetadata.Proofs.Session.Steps

/-!
# The global declarations of a session

A session over an index starts with the declarations that the index holds. Each document and each
step of global declarations that succeeds adds its own, in the order in which they are built; a
step that fails adds nothing.

**Theorem (`run_registered`).** After any run the registry is the outcome of these registrations,
from first to last, and so are the finished metadata.
-/

namespace MappingMetadata.Session

open Declaration

/-! ## The registrations of a run -/

/-- What a session may start as, and the declarations that its registry takes over. -/
inductive Started (settings : Settings) : Session → List BuiltGlobal → Prop where
  | empty : Started settings (start settings) []
  | overIndex {ix : Index} {s : Session} (h : ofIndex settings ix = .ok s) :
      Started settings s (Globals.harvested ix)
  | withClassPath {s : Session} {bs : List BuiltGlobal} (h : Started settings s bs)
      (path : ClassPath) : Started settings (s.withClassPath path) bs

/-- The declarations that a step builds. -/
def builtBy (s : Session) : Step → Outcome (List BuiltGlobal)
  | .document doc => doc.globals.build s.classPath (s.defaultsFor doc)
  | .entity _ => .ok []
  | .globals g => g.build s.classPath s.settings.defaults

/-- The declarations that a step registers: what it builds if it succeeds, else nothing. -/
def registeredBy (s : Session) (t : Step) : List BuiltGlobal :=
  if (s.step t).1.isOk then (s.builtBy t).toOption.getD [] else []

/-- The declarations that a run registers, step after step. -/
def registered (s : Session) : List Step → List BuiltGlobal
  | [] => []
  | t :: ts => s.registeredBy t ++ (s.step t).2.registered ts

/-! ## Starting -/

/-- The registry of a session over an index has registered what the index holds. -/
theorem globals_ofIndex {settings : Settings} {ix : Index} {s : Session}
    (h : ofIndex settings ix = .ok s) :
    s.globals = Globals.empty.registerBuilt (Globals.harvested ix) ∧
      (Globals.harvest ix).mapM Globals.registration = .ok (Globals.harvested ix) := by
  unfold ofIndex at h
  split at h
  · cases h
  · rename_i globals hall
    cases h
    obtain ⟨bs, hbs, rfl⟩ := Globals.registerAll_eq_none hall
    have hharvested : Globals.harvested ix = bs := Globals.filterMap_registration hbs
    rw [hharvested]
    exact ⟨rfl, hbs⟩

theorem Started.globals {settings : Settings} {s : Session} {bs : List BuiltGlobal}
    (h : Started settings s bs) :
    s.globals = Globals.empty.registerBuilt bs ∧ ∀ b ∈ bs, b.Proper := by
  induction h with
  | empty => exact ⟨rfl, fun b hb => by cases hb⟩
  | overIndex h =>
    obtain ⟨hglobals, hbs⟩ := globals_ofIndex h
    refine ⟨hglobals, fun b hb => ?_⟩
    obtain ⟨a, -, ha⟩ := Outcome.exists_of_mem_mapM hbs hb
    exact Globals.proper_of_registration ha
  | withClassPath _ _ ih => exact ih

/-! ## Running -/

/-- One step adds the declarations that it registers. -/
theorem globals_step (s : Session) (t : Step) :
    (s.step t).2.globals = s.globals.registerBuilt (s.registeredBy t) ∧
      ∀ b ∈ s.registeredBy t, b.Proper := by
  have h := s.stepped t
  unfold registeredBy
  generalize s.step t = r at h ⊢
  cases h with
  | failed => exact ⟨rfl, fun b hb => by cases hb⟩
  | entity => exact ⟨rfl, fun b hb => by cases hb⟩
  | document hbuilt _ =>
    rw [builtBy, hbuilt]
    exact ⟨rfl, GlobalDeclarations.proper_build hbuilt⟩
  | globals hbuilt =>
    rw [builtBy, hbuilt]
    exact ⟨rfl, GlobalDeclarations.proper_build hbuilt⟩

theorem globals_run (s : Session) (ts : List Step) :
    (s.run ts).2.globals = s.globals.registerBuilt (s.registered ts) ∧
      ∀ b ∈ s.registered ts, b.Proper := by
  induction ts generalizing s with
  | nil => exact ⟨rfl, fun b hb => by cases hb⟩
  | cons t ts ih =>
    obtain ⟨hstep, hproper⟩ := s.globals_step t
    obtain ⟨hrun, hproper'⟩ := ih (s.step t).2
    rw [run_cons, registered, Globals.registerBuilt_append, ← hstep]
    exact ⟨hrun, fun b hb => (List.mem_append.1 hb).elim (hproper b) (hproper' b)⟩

/-- **The global declarations of a session.** After a run each kind has the distinct names that
were registered, in the order in which they first came, and under each name the last declaration,
of the right kind and on no site. The finished metadata hold nothing for a kind without names, the
declaration itself for one name, and one wrapper for several. -/
theorem run_registered {settings : Settings} {s : Session} {bs : List BuiltGlobal}
    (h : Started settings s bs) (ts : List Step) :
    let s' := (s.run ts).2
    let all := bs ++ s.registered ts
    (∀ k, s'.globals.names k = BuiltGlobal.names all k) ∧
      (∀ k name, s'.globals.get? k name = BuiltGlobal.latest? all k name) ∧
      (∀ k name a, s'.globals.get? k name = some a →
        a.kind = k.scalar ∧ a.name? = some name ∧ a.site = none) ∧
      s'.finish.globals = BuiltGlobal.finished all := by
  intro s' all
  obtain ⟨hstart, hproper⟩ := h.globals
  obtain ⟨hrun, hproper'⟩ := s.globals_run ts
  have hglobals : s'.globals = Globals.empty.registerBuilt all := by
    rw [hrun, hstart, ← Globals.registerBuilt_append]
  have hfinish : s'.finish.globals = s'.globals.finish := rfl
  rw [hfinish, hglobals]
  exact Globals.holds_registerBuilt fun b hb =>
    (List.mem_append.1 hb).elim (hproper b) (hproper' b)

/-- A session over two wrapped queries, the first of which is then declared again after a third. -/
theorem names_over_wrapped_queries :
    let query := fun name : String => NamedQuery.annotation { name := some name }
    let ix : Index := .ofList
      [.wrapper .namedQueries (some (.onClass "Order")) [query "paid", query "open"]]
    let ts : List Step := [.globals { namedQueries := [{ name := some "late" },
      { name := some "paid", query := some "select o from Order o" }] }]
    ∃ s, ofIndex {} ix = .ok s ∧
      (s.run ts).2.globals.names .namedQuery = ["paid", "open", "late"] := by
  intro query ix ts
  have hs : ofIndex {} ix = .ok _ := rfl
  refine ⟨_, hs, ?_⟩
  rw [(run_registered (.overIndex hs) ts).1]
  decide +kernel

end MappingMetadata.Session
