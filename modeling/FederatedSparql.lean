import FederatedSparql.Config
import FederatedSparql.Json.Reader
import FederatedSparql.Json.Writer
import FederatedSparql.Json.Algebra
import FederatedSparql.Json.Config
import FederatedSparql.Json.Error
import FederatedSparql.Json.Endpoint
import FederatedSparql.Text.Regex.Reader
import FederatedSparql.Plan.Build
import FederatedSparql.Plan.Pushdown
import FederatedSparql.Plan.Scope
import FederatedSparql.Plan.Sourcing
import FederatedSparql.Endpoint.QueryText
import FederatedSparql.Endpoint.Results
import FederatedSparql.Engine.MembershipCache
import FederatedSparql.Engine.BoundTask
import FederatedSparql.Endpoint.Remote
import FederatedSparql.Engine.WaitGroup
import FederatedSparql.Engine.Strategy
import FederatedSparql.Engine.Machine.Control
import FederatedSparql.Engine.Arrivals
import FederatedSparql.Engine.Federation
import FederatedSparql.Proofs.Rdf.Merge
import FederatedSparql.Proofs.Rdf.Rows
import FederatedSparql.Proofs.Algebra.Matching
import FederatedSparql.Proofs.Algebra.Locality
import FederatedSparql.Proofs.Algebra.Conjunctions
import FederatedSparql.Proofs.Rdf.Literals
import FederatedSparql.Proofs.Endpoint.Tag
import FederatedSparql.Proofs.Endpoint.Store
import FederatedSparql.Proofs.Endpoint.Registry
import FederatedSparql.Proofs.Engine.Blocks
import FederatedSparql.Proofs.Engine.Yields
import FederatedSparql.Proofs.Engine.Brings
import FederatedSparql.Proofs.Engine.Parts
import FederatedSparql.Proofs.Engine.BoundJoin
import FederatedSparql.Proofs.Engine.IndependentGroups
import FederatedSparql.Proofs.Plan.Denotation
import FederatedSparql.Proofs.Plan.Blocks
import FederatedSparql.Proofs.Engine.Evaluation
import FederatedSparql.Proofs.Engine.Services
import FederatedSparql.Proofs.Plan.Placing
import FederatedSparql.Proofs.Plan.Moving
import FederatedSparql.Proofs.Plan.Fixing
import FederatedSparql.Proofs.Plan.FixedVars
import FederatedSparql.Proofs.Plan.NestedFilters
import FederatedSparql.Proofs.Plan.Pushdown
import FederatedSparql.Proofs.Plan.Steady
import FederatedSparql.Proofs.Plan.SteadyBlocks
import FederatedSparql.Proofs.Plan.Regrouping
import FederatedSparql.Proofs.Plan.Restructuring
import FederatedSparql.Proofs.Endpoint.Members
import FederatedSparql.Proofs.Engine.Membership
import FederatedSparql.Proofs.Engine.Planning
import FederatedSparql.Proofs.Plan.Patterns
import FederatedSparql.Proofs.Engine.Probing
import FederatedSparql.Proofs.Plan.Scoping
import FederatedSparql.Proofs.Engine.Answering
import FederatedSparql.Proofs.Engine.MayGive
import FederatedSparql.Proofs.Engine.KeptBindings
import FederatedSparql.Proofs.Engine.Framing
import FederatedSparql.Proofs.Plan.ScopedRows
import FederatedSparql.Proofs.Machine.Delivery
import FederatedSparql.Proofs.Machine.Jam
import FederatedSparql.Proofs.Engine.Knowledge
import FederatedSparql.Proofs.Engine.Overlap
import FederatedSparql.Proofs.Engine.Exactness
import FederatedSparql.Proofs.Engine.Layers
import FederatedSparql.Proofs.Engine.PassThrough
import FederatedSparql.Proofs.Machine.Accounts
import FederatedSparql.Proofs.Machine.Closing
import FederatedSparql.Proofs.Machine.Pipelines
import FederatedSparql.Proofs.Plan.Arranging
import FederatedSparql.Proofs.Plan.Building
import FederatedSparql.Proofs.Plan.Attaching
import FederatedSparql.Proofs.Engine.BlockSizes
import FederatedSparql.Proofs.Machine.Bystanders
import FederatedSparql.Proofs.Machine.BlockRuns
import FederatedSparql.Proofs.Machine.Crews
import FederatedSparql.Proofs.Machine.Shutdown
import FederatedSparql.Proofs.Engine.Lifecycle
import FederatedSparql.Proofs.Machine.Polling
import FederatedSparql.Proofs.Machine.MainSteps
import FederatedSparql.Proofs.Machine.Unions
import FederatedSparql.Proofs.Engine.MatchingTriples
import FederatedSparql.Proofs.Machine.Undisturbed
import FederatedSparql.Proofs.Engine.PulledRows
import FederatedSparql.Proofs.Engine.AnsweredQueries
import FederatedSparql.Proofs.Endpoint.Choices
import FederatedSparql.Proofs.Endpoint.Blame
import FederatedSparql.Proofs.Plan.Flattening
