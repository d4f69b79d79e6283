import FederatedSparql.Engine.Machine.Control
import FederatedSparql.Engine.Selection
import FederatedSparql.Engine.Strategy
import FederatedSparql.Plan.Build
import FederatedSparql.Plan.Pushdown
import FederatedSparql.Plan.Scope
import FederatedSparql.Plan.Sourcing

/-!
A federation of endpoints: its members, what is known about them, and the queries it answers.
-/

namespace FederatedSparql

/-- A federation between queries. -/
structure Federation where
  config : Config
  registry : Registry := {}
  cache : MembershipCache := {}
  join : Pool
  union : Pool
  initialized : Bool := false
  now : Nat := 0

/-- Computations on a federation that may fail; what they did before remains. -/
abbrev Federation.Action (α : Type) : Type := ExceptT FedError (StateM Federation) α

namespace Federation

/-! ### Members -/

/-- A federation without members. -/
def empty (config : Config) : Federation where
  config := config
  cache := { ttl := config.cache.ttlSeconds.map (· * 1000) }
  join := .create "join" config.joinWorkerThreads
  union := .create "union" config.unionWorkerThreads

/-- A federation of some members, whatever its settings are. -/
def ofMembers (config : Config) (members : List Member) : Except FedError Federation := do
  let registry ← members.foldlM Registry.register {}
  return { empty config with registry := registry }

/-- A federation of some members. -/
def build (config : Config) (members : List Member) : Except FedError Federation := do
  config.validate
  ofMembers config members

/-- Starts members one after another; the first that cannot start is an error. -/
def startMembers : List String → Action Unit
  | [] => return ()
  | id :: rest => do
    match (← get).registry.known? id with
    | none => startMembers rest
    | some m =>
      let (r, m) := m.start
      modify fun f => { f with registry := f.registry.update id fun _ => m }
      match r with
      | .ok () => startMembers rest
      | .error e => throw e

/-- Stops a member; that it cannot stop is no error. -/
def stopMember (id : String) : Action Unit :=
  modify fun f => { f with registry := f.registry.update id fun m => m.stop.2 }

/-- Starts the members and the pools, unless that has been done. -/
def initializeMembers : Action Unit := do
  let f ← get
  unless f.initialized do
    startMembers f.registry.ids
    modify fun f => { f with
      join := { f.join with running := true }
      union := { f.union with running := true }
      initialized := true }

/-- Stops the pools and the members, if they have been started. -/
def shutDown : Action Unit := do
  let f ← get
  if f.initialized then
    modify fun f => { f with initialized := false, join := f.join.stop, union := f.union.stop }
    for id in f.registry.ids do stopMember id

/-- Adds a member, which is started first if the others have been. -/
def addMember (m : Member) : Action Unit := do
  let f ← get
  let (started, m) := if f.initialized then m.start else (.ok (), m)
  started
  let registry ← f.registry.register m
  set { f with registry := registry, cache := f.cache.invalidate m.id }

/-- Removes a member, which is stopped if the others have been started. -/
def removeMember (id : String) : Action Unit := do
  let f ← get
  let _ ← f.registry.get id
  set { f with registry := f.registry.unregister id, cache := f.cache.invalidate id }
  if f.initialized then stopMember id

/-- Fails unless members and pools have been started. -/
def ensureInitialized : Action Unit := do
  unless (← get).initialized do throw (.configuration .notInitialized)

/-! ### Plans -/

/-- A query that starts now, under the configured timeout. -/
def startQuery (text : String) (form : QueryForm) : Action QueryContext := do
  let f ← get
  return .start text form f.now f.config.queryTimeout?

/-- The sources of patterns. -/
def select (query : QueryContext) (patterns : List TriplePattern) :
    Action (List (List Source)) := do
  let f ← get
  let (r, s) := Selection.select f.config.sourceSelection query patterns
    { registry := f.registry, cache := f.cache, now := f.now }
  set { f with registry := s.registry, cache := s.cache, now := s.now }
  r

/-- Attaches sources to a plan, if it has statements; gives the next free number too. -/
def attachSources (query : QueryContext) (p : Plan) (nextId : Nat) : Action (Plan × Nat) := do
  match p.statements with
  | [] => return (p, nextId)
  | statements =>
    let selected ← select query (statements.map (·.pattern))
    let sources := (statements.map (·.id)).zip selected
    return (p.attach fun id => (sources.lookup id).getD []).run nextId

/-- The only member, if there is one that accepts whole queries. -/
def onlyMember? (f : Federation) (form : QueryForm) : Option Member :=
  match form, f.registry.members with
  | .construct, _ => none
  | .describe, _ => none
  | _, [m] => if m.prepared then some m else none
  | _, _ => none

/-- The plan of a query.  The only member of a federation gets the whole query if it accepts it. -/
def plan (query : QueryContext) (q : Query) : Action Plan := do
  query.checkAborted
  match (← get).onlyMember? q.form with
  | some m => return .passThrough m.id q
  | none =>
    let (built, structure_, nextId) := Plan.build q.algebra
    let (sourced, _) ← attachSources query built nextId
    return (if structure_.hasFilter then sourced.pushFilters else sourced).scopeVars

/-- The plan of a query that is not evaluated. -/
def prepare (q : Query) : Action Plan := do plan (← startQuery q.text q.form) q

/-! ### Running -/

/-- The workers of a pool, all without a job; they have the numbers from `start` on. -/
def restingCrew {α : Type} (p : Pool) (start : Nat) : Crew α :=
  if p.running && p.accepting then
    let ids := (List.range p.workers).map (start + ·)
    { pool := p, line := ids, threads := ids }
  else { pool := p }

/-- The machine that runs a query. -/
def machine {α : Type} (f : Federation) (query : QueryContext) : Machine α :=
  let join : Crew α := restingCrew f.join 0
  let union : Crew α := restingCrew f.union join.threads.length
  { now := f.now, registry := f.registry, query, join, union
    threads :=
      (join.threads.map fun _ => { activity := .idle .join }).toArray ++
        (union.threads.map fun _ => { activity := .idle .union }).toArray }

/-- Runs something on a machine; what it did remains. -/
def runOn {α β : Type} (query : QueryContext) (a : Machine.Action α β) :
    Action (β × QueryContext) := do
  let f ← get
  let (r, m) := a.run (f.machine query)
  set { f with now := m.now, registry := m.registry, join := m.join.pool, union := m.union.pool }
  return (r, m.query)

/-- Gives up the rest of a query. -/
def close {α : Type} (c : Cursor α) : Machine.Action α Unit := do
  Machine.discard c
  Machine.closeQuery

/-- One step of a query: at the deadline it is aborted, and at its end it is closed. -/
def stepQuery (c : Cursor Bindings) :
    Machine.Action Bindings (Pulled Bindings × Cursor Bindings) := do
  let m ← get
  match c with
  | .closed => return (.done, .closed)
  | c =>
    match m.query.checkTimeout m.now with
    | .error e =>
      Machine.abortQuery
      close c
      return (.failure e, .closed)
    | .ok () =>
      match ← Machine.pull .main c with
      | (.failure e, c) =>
        close c
        return (.failure e, .closed)
      | (.done, c) =>
        close c
        return (.done, .closed)
      | r => return r

/-- The cursor over the rows of a plan; a question has one row without variables if there is any. -/
def openPlan (env : Environment) (p : Plan) (b : Bindings) (form : QueryForm) :
    Machine.Action Bindings (Cursor Bindings) := do
  let m ← get
  match m.query.deadline with
  | some due => if due > m.now then Machine.wakeAt due .main
  | none => pure ()
  let c ← Machine.openFeed (.deferred (env.evaluate p b))
  return if form = .ask then (c.slice 0 (some 1)).map fun _ => ∅ else c

/-- What pulling the rows of a query came to. -/
structure Rows where
  rows : List Bindings
  ending : Machine.Ending
  /-- The query a millisecond after it was closed. -/
  query : QueryContext
  /-- Whether a row came after the query was closed. -/
  rowAfterClose : Bool

/-- Pulls rows of a plan, so many at most, and closes the query. -/
def pullRows (env : Environment) (p : Plan) (b : Bindings) (form : QueryForm)
    (wanted : Option Nat) :
    Machine.Action Bindings (Option (Machine.Taken Bindings × Bool)) := do
  let c ← openPlan env p b form
  match ← Machine.runMain (Machine.takeStep wanted stepQuery) Machine.stepLimit ([], c) with
  | none => return none
  | some taken =>
    match taken.rest with
    | .closed => pure ()
    | rest => close rest
    let after :=
      match ← stepQuery .closed with
      | (.item _, _) => true
      | _ => false
    Machine.sleep 1
    return some (taken, after)

/-- Evaluates a plan and pulls rows, so many at most. -/
def evaluatePlan (query : QueryContext) (p : Plan) (b : Bindings) (wanted : Option Nat) :
    Action Rows := do
  ensureInitialized
  let f ← get
  let env : Environment := ⟨f.registry, f.config⟩
  let (r, query) ← runOn query (pullRows env p b query.form wanted)
  match r with
  | some (taken, after) => return ⟨taken.items, taken.ending, query, after⟩
  | none => return ⟨[], .exhausted, query, false⟩

/-- Evaluates a query and pulls rows, so many at most. -/
def evaluate (q : Query) (wanted : Option Nat) : Action Rows := do
  ensureInitialized
  match q.form with
  | .construct => throw (.malformedQuery (.unsupportedForm .construct))
  | .describe => throw (.malformedQuery (.unsupportedForm .describe))
  | _ => pure ()
  let query ← startQuery q.text q.form
  evaluatePlan query (← plan query q) ∅ wanted

/-- All rows, unless pulling them failed. -/
def Rows.toExcept (r : Rows) : Except FedError (List Bindings) :=
  match r.ending with
  | .failed e => .error e
  | _ => .ok r.rows

/-- Collects the items of a program. -/
def collect {α : Type} [BEq α] (w : Work α) :
    Machine.Action α (Except FedError (List α)) := do
  match ← Machine.runWork w with
  | none => return .ok []
  | some (.error e) => return .error e
  | some (.ok c) =>
    match ← Machine.take none c with
    | none => return .ok []
    | some taken =>
      Machine.discard taken.rest
      match taken.ending with
      | .failed e => return .error e
      | _ => return .ok taken.items

/-- The triples with the given terms at some positions, from all members.  When all positions are
given, finding the sources has already told whether there is such a triple. -/
def triples (s p o : Option Term) : Action (List Triple) := do
  ensureInitialized
  let pattern := TriplePattern.ofPositions s p o
  let query ← startQuery ("getStatements(" ++ pattern.toSparql ++ ")") .select
  let sources := (← select query [pattern]).headD []
  match s, p, o with
  | some s, some p, some o => return if sources.isEmpty then [] else [⟨s, p, o⟩]
  | _, _, _ =>
    let f ← get
    let env : Environment := ⟨f.registry, f.config⟩
    let (r, _) ← runOn query (collect (env.fetchTriples sources s p o))
    r

end Federation

end FederatedSparql
