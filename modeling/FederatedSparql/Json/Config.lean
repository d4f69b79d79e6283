import FederatedSparql.Json.Decode
import FederatedSparql.Config

/-!
The JSON form of the settings.  Every field has a default.
-/

namespace FederatedSparql.Json

namespace Decode

/-- How long what is known about sources is kept. -/
def cacheConfig : Decoder CacheConfig := fun n j => do
  let f ← fields ["ttl_seconds"] 0 n j
  let ttl ← f.getNullable "ttl_seconds" nat
  return { ttlSeconds := ttl }

/-- How sources are selected. -/
def sourceSelectionConfig : Decoder SourceSelectionConfig := fun n j => do
  let f ← fields ["fail_on_unresolved_sources", "probe_concurrency"] 0 n j
  let d : SourceSelectionConfig := {}
  let fail ← f.getD "fail_on_unresolved_sources" bool d.failOnUnresolvedSources
  let concurrency ← f.getD "probe_concurrency" nat d.probeConcurrency
  return { failOnUnresolvedSources := fail, probeConcurrency := concurrency }

/-- The settings of a federation. -/
def config : Decoder Config := fun n j => do
  let f ← fields ["bound_join_block_size", "enable_service_as_bound_join", "join_worker_threads",
    "union_worker_threads", "query_timeout_ms", "scheduler_shutdown_timeout_secs", "log_queries",
    "cache", "source_selection"] 0 n j
  let d : Config := {}
  let blockSize ← f.getD "bound_join_block_size" nat d.boundJoinBlockSize
  let service ← f.getD "enable_service_as_bound_join" bool d.serviceAsBoundJoin
  let join ← f.getD "join_worker_threads" nat d.joinWorkerThreads
  let union ← f.getD "union_worker_threads" nat d.unionWorkerThreads
  let timeout ← f.getD "query_timeout_ms" nat d.queryTimeoutMs
  let shutdown ← f.getD "scheduler_shutdown_timeout_secs" nat d.schedulerShutdownTimeoutSecs
  let log ← f.getD "log_queries" bool d.logQueries
  let cache ← f.getD "cache" cacheConfig d.cache
  let selection ← f.getD "source_selection" sourceSelectionConfig d.sourceSelection
  return {
    boundJoinBlockSize := blockSize
    serviceAsBoundJoin := service
    joinWorkerThreads := join
    unionWorkerThreads := union
    queryTimeoutMs := timeout
    schedulerShutdownTimeoutSecs := shutdown
    logQueries := log
    cache := cache
    sourceSelection := selection }

end Decode

/-- The settings of a federation as a record. -/
def ofConfig (c : Config) : Json :=
  obj [("bound_join_block_size", nat c.boundJoinBlockSize),
    ("enable_service_as_bound_join", .bool c.serviceAsBoundJoin),
    ("join_worker_threads", nat c.joinWorkerThreads),
    ("union_worker_threads", nat c.unionWorkerThreads),
    ("query_timeout_ms", nat c.queryTimeoutMs),
    ("scheduler_shutdown_timeout_secs", nat c.schedulerShutdownTimeoutSecs),
    ("log_queries", .bool c.logQueries),
    ("cache", obj [("ttl_seconds", opt nat c.cache.ttlSeconds)]),
    ("source_selection", obj [
      ("fail_on_unresolved_sources", .bool c.sourceSelection.failOnUnresolvedSources),
      ("probe_concurrency", nat c.sourceSelection.probeConcurrency)])]

end FederatedSparql.Json
