import FederatedSparql.Config
import FederatedSparql.Endpoint.QueryText
import FederatedSparql.Endpoint.Registry
import FederatedSparql.Engine.BoundTask
import FederatedSparql.Engine.Work

/-!
How each part of a plan is evaluated under a binding set.

Every row of an evaluation extends the binding set.  A statement with variables left asks its
sources for rows, one without asks them whether there is a match.  Joins go from left to right: the
rows so far are sent to the next argument in blocks if it can take them, and one by one otherwise.
-/

namespace FederatedSparql

/-- What evaluation depends on: the members of the federation and its settings. -/
structure Environment where
  registry : Registry
  config : Config
deriving Inhabited

namespace Environment

/-! ### Requests -/

/-- Asks a member for rows. -/
def askRows (endpoint : String) (r : Request) (k : List Bindings → Work Bindings) :
    Work Bindings :=
  .request endpoint r fun answer => .ofExcept answer fun a => k a.toRows

/-- Asks a member for rows and gives them. -/
def fetch (endpoint : String) (r : Request) : Work Bindings :=
  askRows endpoint r fun rows => .done (.rows rows)

/-- Gives the binding set if a member has a match of a pattern, and nothing otherwise. -/
def confirm (endpoint : String) (p : TriplePattern) (b : Bindings) : Work Bindings :=
  .request endpoint (.has p b) fun answer =>
    .ofExcept answer fun a => .done (.rows (if a.isFound then [b] else []))

/-- Gives the binding set if a member has a match of every pattern, asked for one after another. -/
def confirmAll (endpoint : String) (onFailure : FedError → Work Bindings) (under b : Bindings) :
    List TriplePattern → Work Bindings
  | [] => .done (.rows [b])
  | p :: rest =>
    .request endpoint (.has p under) fun
      | .error e => onFailure e
      | .ok a => if a.isFound then confirmAll endpoint onFailure under b rest else .done (.rows [])

/-- The members behind sources; one that is unknown is an error. -/
def membersOf (env : Environment) (sources : List Source) : Except FedError (List Member) :=
  sources.mapM fun s => env.registry.get s.endpoint

/-! ### Statements and groups -/

/-- The variables to ask for: those that anything else refers to, or all if that is no restriction.
-/
def wanted (free localVars : List String) : Option (List String) :=
  if localVars.isEmpty then none else some (free.filter fun v => !localVars.contains v)

/-- Whether a statement without variables left has a match at any of its sources. -/
def checkStatement (env : Environment) (s : Statement) (b : Bindings) : Work Bindings :=
  .ofExcept (env.membersOf s.sources) fun
    | [m] => confirm m.id s.effectivePattern b
    | ms =>
      .done (.slice 0 (some 1) (.union true (ms.map fun m =>
        ("ExistenceCheck @" ++ m.id, (confirm m.id s.effectivePattern b).repairingFaults))))

/-- The rows of a statement with variables left, from all of its sources. -/
def fetchStatement (env : Environment) (s : Statement) (b : Bindings) : Work Bindings :=
  let pattern := s.effectivePattern
  let r := Request.get [pattern] b s.filter (wanted (pattern.freeVars b) s.localVars)
  .ofExcept (env.membersOf s.sources) fun
    | [m] => fetch m.id r
    | ms =>
      .done (.union false (ms.map fun m =>
        ("StatementSource @" ++ m.id, (fetch m.id r).repairingFaults)))

/-- The rows of a statement. -/
def statement (env : Environment) (s : Statement) (b : Bindings) : Work Bindings :=
  if s.sources.isEmpty then .done (.rows [])
  else if s.effectivePattern.hasFreeVars b then env.fetchStatement s b
  else if Expr.acceptsAll s.filter b then env.checkStatement s b
  else .done (.rows [])

/-- The rows of a group, all of them from its owner. -/
def group (env : Environment) (g : ExclusiveGroup) (b : Bindings) : Work Bindings :=
  .ofExcept (env.registry.get g.owner.endpoint) fun m =>
    let patterns := g.patterns.map (·.bind b)
    if patterns.all fun p => !p.hasFreeVars ∅ then
      if Expr.acceptsAll g.filter b then confirmAll m.id Work.failRepairing ∅ b patterns
      else .done (.rows [])
    else
      let free := (patterns.flatMap (·.vars)).eraseDups
      fetch m.id (.get g.patterns b g.filter (wanted free g.localVars))

/-! ### Services -/

/-- The rows of a SERVICE clause at the endpoint that it means. -/
def serviceAt (m : Member) (s : Service) (b : Bindings) : Work Bindings :=
  match s.bgp? with
  | some (patterns, filter) =>
    if patterns.any (·.hasFreeVars b) then fetch m.id (.get patterns b filter none)
    else if Expr.acceptsAll filter b then confirmAll m.id .fail b b patterns
    else .done (.rows [])
  | none =>
    if m.prepared then
      fetch m.id (.query ("SELECT * WHERE " ++ QueryText.braced (QueryText.group s.body)) b)
    else
      .fail (.endpoint (.unsupported m.id "SERVICE with a non basic graph pattern body"))

/-- Runs a program with the endpoint that a SERVICE clause means. -/
def atService (env : Environment) (s : Service) (k : Member → Work Bindings) : Work Bindings :=
  match env.registry.resolve? s.endpoint with
  | some m => k m
  | none => .fail (.endpoint (.unknownEndpoint s.endpoint))

/-- A silent SERVICE clause that fails leaves rows as they are. -/
def silently (s : Service) (rows : List Bindings) (w : Work Bindings) : Work Bindings :=
  if s.silent then w.handle fun _ => .done (.rows rows) else w

/-- The rows of a SERVICE clause. -/
def service (env : Environment) (s : Service) (b : Bindings) : Work Bindings :=
  silently s [b] (env.atService s fun m => serviceAt m s b)

/-! ### Blocks of rows -/

/-- All rows that came back, or the first failure after asking for a repair. -/
def joinResponses (k : List Bindings → Work Bindings) (soFar : List Bindings) :
    List (Except FedError (List Bindings)) → Work Bindings
  | [] => k soFar
  | .ok rows :: rest => joinResponses k (soFar ++ rows) rest
  | .error e :: _ => .failRepairing e

/-- The tagged rows that all sources of a statement have for a block. -/
def fetchTagged (env : Environment) (s : Statement) (block : List Bindings)
    (k : List Bindings → Work Bindings) : Work Bindings :=
  .ofExcept (env.membersOf s.sources) fun ms =>
    .gather (ms.map fun m => fetch m.id (.bound [s.effectivePattern] block s.filter))
      (joinResponses k [])

/-- The rows of a SERVICE clause with a basic graph pattern body for a block. -/
def serviceBlock (env : Environment) (s : Service) (block : List Bindings) : Work Bindings :=
  match s.bgp? with
  | some (patterns, filter) =>
    env.atService s fun m =>
      (askRows m.id (.bound patterns block filter) fun rows =>
        .done (.rows (BoundJoin.demultiplex block (rows.filterMap Tag.untagRow?)))).repairingFaults
  | none => .fail (.internalScheduling (.cannotEvaluate "ServiceJoin" (Plan.service s).label))

/-- The rows of independent statements for a block. -/
def independentBlock (env : Environment) (members : List Statement) (block : List Bindings) :
    Work Bindings :=
  .gather (members.map fun s => env.fetchTagged s block fun rows => .done (.rows rows))
    fun results =>
      match results.mapM id with
      | .ok fetched =>
        .done (.rows (BoundJoin.combine block (fetched.map (·.filterMap Tag.untagRow?))))
      | .error e => .fail e

/-- The rows of a right argument for a block, by the kind that the first row of all decides. -/
def blockTask (env : Environment) (right : Plan) (first : Bindings) (block : List Bindings) :
    Work Bindings :=
  match BoundTaskKind.choose? right first env.config.serviceAsBoundJoin, right with
  | some .boundJoin, .statement s =>
    env.fetchTagged s block fun rows =>
      .done (.rows (BoundJoin.demultiplex block (rows.filterMap Tag.untagRow?)))
  | some .checkJoin, .statement s =>
    env.fetchTagged s block fun rows =>
      .done (.rows (BoundJoin.confirmed block (rows.filterMap Tag.untagRow?)))
  | some .serviceJoin, .service s => silently s block (env.serviceBlock s block)
  | some .independentGroupJoin, .independent members => env.independentBlock members block
  | kind, _ =>
    .fail (.internalScheduling
      (.cannotEvaluate ((kind.map (·.name)).getD "BoundJoin") right.label))

/-! ### Plans -/

/-- Every evaluation starts by looking whether the query is still wanted, and asks for a repair if
it fails by a fault of a connection. -/
def guarded (w : Work Bindings) : Work Bindings := .check w.repairingFaults

/-- The rows of independent statements: each is evaluated by itself and all are merged. -/
def independent (env : Environment) (members : List Statement) (b : Bindings) : Work Bindings :=
  .gather (members.map fun s => guarded (env.statement s b)) fun results =>
    match results.mapM id with
    | .ok perMember => .done (.rows (perMember.foldl BoundJoin.mergeAll [b]))
    | .error e => .fail e

/-- The answer of one endpoint to a whole query. -/
def passThrough (env : Environment) (endpoint : String) (q : Query) (b : Bindings) :
    Work Bindings :=
  .ofExcept (env.registry.get endpoint) fun m =>
    .ofExcept (QueryText.query q) fun text => fetch m.id (.query text b)

/-- Puts back what filters have fixed, keeps the variables of a projection and those that were bound
before. -/
def projectOnto (vars : List String) (inserted b row : Bindings) : Bindings :=
  let row := inserted.entries.foldl (fun r e => r.insert e.1 e.2) row
  let projected := row.project vars
  (b.merge? projected).getD projected

mutual

/-- The rows of a plan that extend a binding set. -/
def evaluate (env : Environment) : Plan → Bindings → Work Bindings
  | .statement s, b => guarded (env.statement s b)
  | .group g, b => guarded (env.group g b)
  | .join args _, b => guarded (evaluateJoin env args b)
  | .union args, b => guarded (.done (.union false (evaluateAll env args b)))
  | .service s, b => guarded (env.service s b)
  | .independent members, b => guarded (env.independent members b)
  | .passThrough endpoint q, b => guarded (env.passThrough endpoint q b)
  | .empty, _ => guarded (.done (.rows []))
  | .filter condition a, b =>
    guarded ((evaluate env a b).mapFeed (.filter fun row => condition.accepts row))
  | .leftJoin l r condition, b =>
    guarded ((evaluate env l b).mapFeed fun left =>
      .optional left (fun row => evaluate env r row) fun row => Expr.acceptsAll condition row)
  | .project vars inserted a, b =>
    guarded ((evaluate env a b).mapFeed (.map (projectOnto vars inserted b)))
  | .slice offset limit a, b => guarded ((evaluate env a b).mapFeed (.slice offset limit))
  | .distinct a, b => guarded ((evaluate env a b).mapFeed .distinct)

/-- The rows of a join. -/
def evaluateJoin (env : Environment) : List Plan → Bindings → Work Bindings
  | [], b => .done (.rows [b])
  | first :: rest, b => (evaluate env first b).bind fun left => .done (joinRest env rest left)

/-- Joins rows with further arguments. -/
def joinRest (env : Environment) : List Plan → Feed Bindings → Feed Bindings
  | [], left => left
  | right :: rest, left =>
    if left.isKnownEmpty then .rows []
    else if BoundTaskKind.supports right env.config.serviceAsBoundJoin then
      joinRest env rest
        (.boundJoin left (max env.config.boundJoinBlockSize 1)
          fun first block => env.blockTask right first block)
    else joinRest env rest (.nestedJoin left fun row => evaluate env right row)

/-- One task for each of some plans. -/
def evaluateAll (env : Environment) : List Plan → Bindings → List (String × Work Bindings)
  | [], _ => []
  | a :: rest, b => ("UnionArg " ++ a.label, evaluate env a b) :: evaluateAll env rest b

end

/-- The triples with the given terms at some positions, from all of some sources. -/
def fetchTriples (env : Environment) (sources : List Source) (s p o : Option Term) :
    Work Triple :=
  let ask (m : Member) : Work Triple :=
    (Work.request m.id (.triples s p o) fun answer =>
      .ofExcept answer fun a => .done (.rows a.toTriples)).repairingFaults
  .ofExcept (env.membersOf sources) fun
    | [] => .done (.rows [])
    | [m] => ask m
    | ms => .done (.union false (ms.map fun m => ("GetStatements @" ++ m.id, ask m)))

end Environment

end FederatedSparql
