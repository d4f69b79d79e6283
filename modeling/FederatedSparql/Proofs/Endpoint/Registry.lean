import FederatedSparql.Engine.Arrivals
import FederatedSparql.Engine.Strategy
import FederatedSparql.Proofs.Endpoint.Store

/-!
Registries whose members answer, and the triples behind sources.

Members answer every request for data, and no triple occurs twice, neither at one member nor at two
(`Registry.Sound`).  Sources that are registered, each once, then stand for a list of triples
without repetitions (`Registry.nodup_triplesOf`), and every request is answered from the triples of
the member that is asked.
-/

namespace FederatedSparql

namespace Registry

variable {r : Registry} {m : Member} {id : String} {sources : List Source}

/-! ### Members -/

/-- Members answer every request for data, and no triple occurs twice. -/
structure Sound (r : Registry) : Prop where
  answersRequests : ∀ m ∈ r.known, m.failRequests = false
  answersProbes : ∀ m ∈ r.known, m.failProbes = false
  nodup : (r.members.flatMap (·.triples)).Nodup

theorem id_of_known? (h : r.known? id = some m) : m.id = id := by
  simpa using List.find?_some h

theorem mem_known_of_known? (h : r.known? id = some m) : m ∈ r.known := List.mem_of_find?_eq_some h

theorem get?_eq_some_iff : r.get? id = some m ↔ id ∈ r.ids ∧ r.known? id = some m := by
  simp [get?]

theorem id_of_get? (h : r.get? id = some m) : m.id = id := id_of_known? (get?_eq_some_iff.1 h).2

theorem mem_members_of_get? (h : r.get? id = some m) : m ∈ r.members := by
  obtain ⟨hid, hm⟩ := get?_eq_some_iff.1 h
  exact List.mem_filterMap.2 ⟨id, hid, hm⟩

theorem get?_of_mem_members (h : m ∈ r.members) : r.get? m.id = some m := by
  obtain ⟨id, hid, hm⟩ := List.mem_filterMap.1 h
  rw [id_of_known? hm]
  exact get?_eq_some_iff.2 ⟨hid, hm⟩

/-- Members have the ids under which they take part, in their order. -/
theorem map_id_members (r : Registry) :
    r.members.map (·.id) = r.ids.filter fun id => (r.known? id).isSome := by
  rw [members]
  induction r.ids with
  | nil => rfl
  | cons id rest ih =>
    cases hm : r.known? id with
    | none => simpa [hm] using ih
    | some m => simpa [hm, id_of_known? hm] using ih

theorem nodup_members (h : r.ids.Nodup) : (r.members.map (·.id)).Nodup := by
  rw [map_id_members]
  exact h.filter _

theorem get_eq_ok (h : r.get? id = some m) : r.get id = .ok m := by simp [get, h]

/-- What a reference means is known under its own id. -/
theorem known?_of_resolve? {reference : String} (h : r.resolve? reference = some m) :
    r.known? m.id = some m := by
  rcases Option.or_eq_some_iff.1 h with hid | ⟨-, hfound⟩
  · rw [id_of_get? hid]
    exact (get?_eq_some_iff.1 hid).2
  · exact (get?_eq_some_iff.1 (get?_of_mem_members (List.mem_of_find?_eq_some hfound))).2

/-! ### Answers -/

/-- A member that is known and answers every request for data. -/
structure Serves (r : Registry) (m : Member) : Prop where
  known : r.known? m.id = some m
  answersRequests : m.failRequests = false
  answersProbes : m.failProbes = false

theorem Sound.serves (hr : r.Sound) (h : r.get? id = some m) : r.Serves m where
  known := by
    rw [id_of_get? h]
    exact (get?_eq_some_iff.1 h).2
  answersRequests := hr.answersRequests m (mem_known_of_known? (get?_eq_some_iff.1 h).2)
  answersProbes := hr.answersProbes m (mem_known_of_known? (get?_eq_some_iff.1 h).2)

namespace Serves

variable (h : r.Serves m)

include h

theorem answers_has (p : TriplePattern) (b : Bindings) :
    r.answers m.id (.has p b) = .ok (.found (Store.hasMatch m.triples p b)) := by
  simp [answers, h.known, Member.answer, Member.isFailing, h.answersProbes, Store.answer]

theorem answers_get (ps : List TriplePattern) (b : Bindings) (f : Option Expr)
    (projection : Option (List String)) :
    r.answers m.id (.get ps b f projection) =
      .ok (.rows (Store.solutions m.triples ps b f projection)) := by
  simp [answers, h.known, Member.answer, Member.isFailing, h.answersRequests, Store.answer]

theorem answers_bound (ps : List TriplePattern) (rows : List Bindings) (f : Option Expr) :
    r.answers m.id (.bound ps rows f) = .ok (.rows (Store.boundSolutions m.triples ps rows f)) := by
  simp [answers, h.known, Member.answer, Member.isFailing, h.answersRequests, Store.answer]

end Serves

/-! ### Sources -/

/-- Sources that are registered, each once. -/
def Registers (r : Registry) (sources : List Source) : Prop :=
  (∀ s ∈ sources, (r.get? s.endpoint).isSome) ∧ (sources.map (·.endpoint)).Nodup

/-- The members behind sources. -/
def membersAt (r : Registry) (sources : List Source) : List Member :=
  sources.filterMap fun s => r.get? s.endpoint

/-- The triples behind sources. -/
def triplesOf (r : Registry) (sources : List Source) : List Triple :=
  (r.membersAt sources).flatMap (·.triples)

theorem Registers.tail {s : Source} (h : r.Registers (s :: sources)) : r.Registers sources :=
  ⟨fun t ht => h.1 t (List.mem_cons_of_mem s ht), (List.nodup_cons.1 h.2).2⟩

theorem get?_of_mem_membersAt (h : m ∈ r.membersAt sources) : r.get? m.id = some m := by
  obtain ⟨s, -, hm⟩ := List.mem_filterMap.1 h
  rwa [id_of_get? hm]

theorem membersOf_eq_ok (env : Environment) (h : env.registry.Registers sources) :
    env.membersOf sources = .ok (env.registry.membersAt sources) := by
  induction sources with
  | nil => rfl
  | cons s sources ih =>
    obtain ⟨m, hm⟩ := Option.isSome_iff_exists.1 (h.1 s List.mem_cons_self)
    have rest := ih h.tail
    simp only [Environment.membersOf] at rest ⊢
    rw [List.mapM_cons, get_eq_ok hm, rest]
    simp [membersAt, hm]
    rfl

theorem membersAt_ids (h : r.Registers sources) :
    (r.membersAt sources).map (·.id) = sources.map (·.endpoint) := by
  induction sources with
  | nil => rfl
  | cons s sources ih =>
    obtain ⟨m, hm⟩ := Option.isSome_iff_exists.1 (h.1 s List.mem_cons_self)
    have rest := ih h.tail
    simp only [membersAt] at rest ⊢
    rw [List.filterMap_cons, hm, List.map_cons, List.map_cons, rest, id_of_get? hm]

theorem nodup_triples (hr : r.Sound) (h : r.get? id = some m) : m.triples.Nodup :=
  (List.nodup_flatMap.1 hr.nodup).1 m (mem_members_of_get? h)

/-- **Sources that are registered, each once, have no triple twice.** -/
theorem nodup_triplesOf (hr : r.Sound) (h : r.Registers sources) : (r.triplesOf sources).Nodup := by
  refine List.nodup_flatMap.2 ⟨fun m hm => nodup_triples hr (get?_of_mem_membersAt hm), ?_⟩
  have ids : (r.membersAt sources).Pairwise fun m n => m.id ≠ n.id := by
    have distinct := h.2
    rw [← membersAt_ids h] at distinct
    exact List.pairwise_map.1 distinct
  have symmetric : Std.Symm (Function.onFun List.Disjoint fun m : Member => m.triples) :=
    ⟨fun _ _ hd => hd.symm⟩
  have disjoint := (List.nodup_flatMap.1 hr.nodup).2.forall
  refine ids.imp_of_mem fun {m n} hm hn hne => ?_
  exact disjoint (mem_members_of_get? (get?_of_mem_membersAt hm))
    (mem_members_of_get? (get?_of_mem_membersAt hn)) fun heq => hne (heq ▸ rfl)

/-! ### A single member -/

/-- A registry of one member that has some triples. -/
def single (triples : List Triple) : Registry :=
  { known := [{ id := "a", name := "a", triples }], ids := ["a"] }

/-- The source that stands for that member. -/
def onlySource : Source := ⟨"a", .local⟩

theorem single_sound {triples : List Triple} (h : triples.Nodup) : (single triples).Sound where
  answersRequests := by simp [single]
  answersProbes := by simp [single]
  nodup := by simpa [single, members, known?] using h

theorem single_registers (triples : List Triple) : (single triples).Registers [onlySource] := by
  refine ⟨fun s hs => ?_, by simp⟩
  obtain rfl := List.mem_singleton.1 hs
  simp [get?, single, known?, onlySource]

end Registry

end FederatedSparql
