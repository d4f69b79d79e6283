import FederatedSparql.Proofs.Endpoint.Registry

/-!
What stays the same of members while they are asked.

Members count what they are asked and keep a log; what they answer depends on the rest of them alone
(`Member.core`).

* `Registry.holds_foldlM_register`: members of different ids can all be registered.
* `Registry.Holds.update`: a registry goes on to hold the same members, whatever they are asked.
* `Registry.Holds.sound`: members that do not fail and have no triple twice answer as
  `Registry.Sound` wants it.
-/

namespace FederatedSparql

namespace Member

variable {m m' : Member}

/-- The member without what it has counted and logged. -/
def core (m : Member) : Member := { m with requests := 0, probes := 0, repairs := 0, log := [] }

@[simp] theorem core_receive (m : Member) (r : Request) : (m.receive r).core = m.core := by
  cases r <;> rfl

@[simp] theorem core_start (m : Member) : m.start.2.core = m.core := rfl

theorem id_eq_of_core (h : m.core = m'.core) : m.id = m'.id := congrArg (·.id) h

theorem triples_eq_of_core (h : m.core = m'.core) : m.triples = m'.triples :=
  congrArg (·.triples) h

/-- A member that does what it is asked and leaves whole queries to others. -/
structure Reliable (m : Member) : Prop where
  starts : m.failStart = false
  answersRequests : m.failRequests = false
  answersProbes : m.failProbes = false
  unprepared : m.prepared = false

theorem Reliable.of_core (hm : m.Reliable) (h : m'.core = m.core) : m'.Reliable where
  starts := (congrArg (·.failStart) h).trans hm.starts
  answersRequests := (congrArg (·.failRequests) h).trans hm.answersRequests
  answersProbes := (congrArg (·.failProbes) h).trans hm.answersProbes
  unprepared := (congrArg (·.prepared) h).trans hm.unprepared

end Member

namespace Registry

variable {r : Registry} {m : Member} {ms : List Member} {id : String}

/-- The registry holds some members, and all of them take part. -/
structure Holds (r : Registry) (ms : List Member) : Prop where
  known : r.known.map (·.core) = ms.map (·.core)
  ids : r.ids.Perm (ms.map (·.id))
  distinct : (ms.map (·.id)).Nodup

/-! ### Registering -/

theorem insertId_perm (id : String) (ids : List String) : (insertId id ids).Perm (id :: ids) := by
  induction ids with
  | nil => exact .refl _
  | cons i rest ih =>
    unfold insertId
    split
    · exact .refl _
    · exact (ih.cons i).trans (.swap ..)

/-- No id takes part twice. -/
theorem nodup_ids_register {r' : Registry} (hr : r.register m = .ok r') (h : r.ids.Nodup) :
    r'.ids.Nodup := by
  unfold register at hr
  split at hr
  · cases hr
  · next fresh =>
    cases hr
    rw [(insertId_perm m.id r.ids).nodup_iff, List.nodup_cons]
    exact ⟨by simpa using fresh, h⟩

theorem nodup_ids_unregister (id : String) (h : r.ids.Nodup) : (r.unregister id).ids.Nodup :=
  h.filter _

/-- Members of different ids can be registered one after another. -/
theorem exists_foldlM_register (done rest : List Member)
    (hd : ((done ++ rest).map (·.id)).Nodup) {r : Registry} (hknown : r.known = done)
    (hids : r.ids.Perm (done.map (·.id))) :
    ∃ r', rest.foldlM register r = .ok r' ∧ r'.known = done ++ rest ∧
      r'.ids.Perm ((done ++ rest).map (·.id)) := by
  induction rest generalizing done r with
  | nil => exact ⟨r, rfl, by simp [hknown], by simpa using hids⟩
  | cons m rest ih =>
    have fresh : m.id ∉ done.map (·.id) := by
      rw [List.map_append, List.nodup_append] at hd
      exact fun h => hd.2.2 _ h _ (List.mem_map_of_mem List.mem_cons_self) rfl
    have registered : r.register m =
        .ok { r with known := done ++ [m], ids := insertId m.id r.ids } := by
      have absent : r.ids.contains m.id = false := by
        rw [List.contains_eq_mem, decide_eq_false_iff_not, hids.mem_iff]
        exact fresh
      have kept : r.known.filter (·.id != m.id) = done := by
        rw [hknown]
        refine List.filter_eq_self.2 fun n hn => ?_
        rw [bne_iff_ne]
        exact fun h => fresh (h ▸ List.mem_map_of_mem hn)
      rw [register, absent, kept]
      rfl
    rw [List.append_cons] at hd ⊢
    have ids : (insertId m.id r.ids).Perm ((done ++ [m]).map (·.id)) := by
      rw [List.map_append]
      exact (insertId_perm m.id r.ids).trans ((hids.cons m.id).trans
        (List.perm_append_singleton ..).symm)
    obtain ⟨r', hr', hk, hi⟩ :=
      ih (done ++ [m]) hd (r := { r with known := done ++ [m], ids := insertId m.id r.ids }) rfl ids
    exact ⟨r', by rw [List.foldlM_cons, registered]; exact hr', hk, hi⟩

/-- **Members of different ids can all be registered.** -/
theorem holds_foldlM_register (hd : (ms.map (·.id)).Nodup) :
    ∃ r, ms.foldlM register {} = .ok r ∧ r.Holds ms := by
  obtain ⟨r, hr, hk, hi⟩ := exists_foldlM_register [] ms hd (r := {}) rfl (.refl _)
  exact ⟨r, hr, by rw [hk]; rfl, hi, hd⟩

/-! ### Members -/

theorem Holds.change (h : r.Holds ms) (id : String) {f : Member → Member}
    (hf : ∀ m ∈ r.known, m.id = id → (f m).core = m.core) : (r.update id f).Holds ms where
  known := by
    rw [← h.known]
    show (r.known.map fun m => if m.id == id then f m else m).map (·.core) = _
    rw [List.map_map]
    refine List.map_congr_left fun m hm => ?_
    show (if m.id == id then f m else m).core = m.core
    split
    · next hid => exact hf m hm (beq_iff_eq.1 hid)
    · rfl
  ids := h.ids
  distinct := h.distinct

/-- **A registry goes on to hold the same members** if only their counts and logs change. -/
theorem Holds.update (h : r.Holds ms) (id : String) {f : Member → Member}
    (hf : ∀ m, (f m).core = m.core) : (r.update id f).Holds ms :=
  h.change id fun m _ _ => hf m

theorem Holds.known_ids (h : r.Holds ms) : r.known.map (·.id) = ms.map (·.id) := by
  have ids := congrArg (List.map (·.id)) h.known
  rw [List.map_map, List.map_map] at ids
  exact ids

theorem known?_of_mem (hd : (r.known.map (·.id)).Nodup) (hm : m ∈ r.known) :
    r.known? m.id = some m := by
  rw [Registry.known?]
  generalize r.known = known at hd hm
  induction known with
  | nil => exact absurd hm List.not_mem_nil
  | cons n rest ih =>
    rw [List.map_cons, List.nodup_cons] at hd
    rcases List.mem_cons.1 hm with rfl | hm
    · rw [List.find?_cons_of_pos (by simp)]
    · have other : n.id ≠ m.id := fun h => hd.1 (h ▸ List.mem_map_of_mem hm)
      rw [List.find?_cons_of_neg (by simpa using other), ih hd.2 hm]

/-- A registry goes on to hold the same members if one of them is replaced by itself with other
counts and another log. -/
theorem Holds.replace {m' : Member} (h : r.Holds ms) (hk : r.known? id = some m)
    (hm : m'.core = m.core) : (r.update id fun _ => m').Holds ms :=
  h.change id fun n hn hid => by
    have found := known?_of_mem (h.known_ids ▸ h.distinct) hn
    rw [hid, hk] at found
    rw [hm, Option.some.inj found]

/-- Each of the members is found by its id, but for its counts and its log. -/
theorem Holds.exists_known? (h : r.Holds ms) (hm : m ∈ ms) :
    ∃ m', r.known? m.id = some m' ∧ m'.core = m.core := by
  have hc : m.core ∈ r.known.map (·.core) := h.known ▸ List.mem_map_of_mem hm
  obtain ⟨m', hm', hcore⟩ := List.mem_map.1 hc
  refine ⟨m', ?_, hcore⟩
  rw [← Member.id_eq_of_core hcore]
  exact known?_of_mem (h.known_ids ▸ h.distinct) hm'

theorem Holds.mem_ids (h : r.Holds ms) (hm : m ∈ ms) : m.id ∈ r.ids :=
  h.ids.mem_iff.2 (List.mem_map_of_mem hm)

theorem Holds.exists_get? (h : r.Holds ms) (hm : m ∈ ms) :
    ∃ m', r.get? m.id = some m' ∧ m'.core = m.core := by
  obtain ⟨m', hm', hcore⟩ := h.exists_known? hm
  exact ⟨m', get?_eq_some_iff.2 ⟨h.mem_ids hm, hm'⟩, hcore⟩

/-- Whatever holds of the members but for counts and logs holds of what the registry knows. -/
theorem Holds.exists_of_mem_known (h : r.Holds ms) (hm : m ∈ r.known) :
    ∃ m' ∈ ms, m.core = m'.core := by
  have hc : m.core ∈ ms.map (·.core) := h.known ▸ List.mem_map_of_mem hm
  obtain ⟨m', hm', hcore⟩ := List.mem_map.1 hc
  exact ⟨m', hm', hcore.symm⟩

/-- The members that take part, in another order perhaps. -/
theorem Holds.members_perm (h : r.Holds ms) :
    (r.members.map (·.core)).Perm (ms.map (·.core)) := by
  have ordered : ((ms.map (·.id)).filterMap r.known?).map (·.core) = ms.map (·.core) := by
    have each : ∀ l : List Member, (∀ m ∈ l, m ∈ ms) →
        ((l.map (·.id)).filterMap r.known?).map (·.core) = l.map (·.core) := by
      intro l hl
      induction l with
      | nil => rfl
      | cons m l ih =>
        obtain ⟨m', hm', hcore⟩ := h.exists_known? (hl m List.mem_cons_self)
        rw [List.map_cons, List.filterMap_cons, hm', List.map_cons, List.map_cons, hcore,
          ih fun n hn => hl n (List.mem_cons_of_mem m hn)]
    exact each ms fun _ => id
  rw [← ordered]
  exact (h.ids.filterMap _).map _

theorem Holds.triples_perm (h : r.Holds ms) :
    (r.members.flatMap (·.triples)).Perm (ms.flatMap (·.triples)) := by
  have cores : ∀ l : List Member, l.flatMap (·.triples) = (l.map (·.core)).flatMap (·.triples) := by
    intro l
    rw [List.flatMap_map]
    rfl
  rw [cores, cores ms]
  exact h.members_perm.flatMap_right _

/-- The sources of some of the members stand for their triples. -/
theorem Holds.triplesOf_map_source (h : r.Holds ms) {chosen : List Member}
    (hs : ∀ m ∈ chosen, m ∈ ms) :
    r.triplesOf (chosen.map (·.source)) = chosen.flatMap (·.triples) := by
  induction chosen with
  | nil => rfl
  | cons m rest ih =>
    obtain ⟨m', hm', hcore⟩ := h.exists_get? (hs m List.mem_cons_self)
    have others := ih fun n hn => hs n (List.mem_cons_of_mem m hn)
    rw [triplesOf, membersAt] at others ⊢
    rw [List.map_cons, List.filterMap_cons, show r.get? m.source.endpoint = some m' from hm',
      List.flatMap_cons, List.flatMap_cons, others, Member.triples_eq_of_core hcore]

/-- The sources of some of the members are registered, each once. -/
theorem Holds.registers_map_source (h : r.Holds ms) {chosen : List Member}
    (hs : chosen.Sublist ms) :
    r.Registers (chosen.map (·.source)) := by
  refine ⟨fun source hsource => ?_, ?_⟩
  · obtain ⟨m, hm, rfl⟩ := List.mem_map.1 hsource
    obtain ⟨m', hm', -⟩ := h.exists_get? (hs.subset hm)
    exact Option.isSome_iff_exists.2 ⟨m', hm'⟩
  · rw [List.map_map]
    exact (hs.map _).nodup h.distinct

/-- **Members that do not fail and have no triple twice answer soundly.** -/
theorem Holds.sound (h : r.Holds ms) (hm : ∀ m ∈ ms, m.Reliable)
    (hd : (ms.flatMap (·.triples)).Nodup) : r.Sound where
  answersRequests m hk := by
    obtain ⟨m', hm', hcore⟩ := h.exists_of_mem_known hk
    exact ((hm m' hm').of_core hcore).answersRequests
  answersProbes m hk := by
    obtain ⟨m', hm', hcore⟩ := h.exists_of_mem_known hk
    exact ((hm m' hm').of_core hcore).answersProbes
  nodup := h.triples_perm.nodup_iff.2 hd

end Registry

end FederatedSparql
