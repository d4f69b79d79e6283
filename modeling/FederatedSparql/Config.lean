import FederatedSparql.Error

/-!
The settings of a federation.
-/

namespace FederatedSparql

/-- How long what is known about sources is kept: for ever without a number of seconds. -/
structure CacheConfig where
  ttlSeconds : Option Nat := none
deriving DecidableEq, Repr, Inhabited

/-- How sources are selected. -/
structure SourceSelectionConfig where
  /-- Whether a pattern of which every probe failed is an error instead of having no source. -/
  failOnUnresolvedSources : Bool := false
  /-- How many probes may run at a time; zero means any number. -/
  probeConcurrency : Nat := 0
deriving DecidableEq, Repr, Inhabited

/-- The settings of a federation. -/
structure Config where
  /-- How many rows of the left side a bound join sends in one request. -/
  boundJoinBlockSize : Nat := 15
  /-- Whether SERVICE clauses with a basic graph pattern body are evaluated as bound joins. -/
  serviceAsBoundJoin : Bool := false
  joinWorkerThreads : Nat := 20
  unionWorkerThreads : Nat := 20
  /-- Milliseconds that a query may take; zero means any time. -/
  queryTimeoutMs : Nat := 0
  schedulerShutdownTimeoutSecs : Nat := 30
  logQueries : Bool := false
  cache : CacheConfig := {}
  sourceSelection : SourceSelectionConfig := {}
deriving DecidableEq, Repr, Inhabited

namespace Config

/-- The time a query may take, if it is limited. -/
def queryTimeout? (c : Config) : Option Nat :=
  if c.queryTimeoutMs = 0 then none else some c.queryTimeoutMs

/-- Sets the time a query may take, in microseconds; parts of a millisecond are dropped. -/
def withQueryTimeoutMicros (c : Config) (micros : Nat) : Config :=
  { c with queryTimeoutMs := micros / 1000 }

/-- Refuses settings that nothing can run with. -/
def validate (c : Config) : Except FedError Unit :=
  if c.boundJoinBlockSize = 0 then .error (.configuration .zeroBlockSize)
  else if c.joinWorkerThreads = 0 ∨ c.unionWorkerThreads = 0 then
    .error (.configuration .zeroWorkerThreads)
  else .ok ()

end Config

end FederatedSparql
