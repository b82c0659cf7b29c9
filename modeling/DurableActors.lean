import DurableActors.Data.KeyOrder
import DurableActors.Data.JsonOrder
import DurableActors.Effects.Program
import DurableActors.Actor.Protocol
import DurableActors.Actor.Executor
import DurableActors.Actor.Driver
import DurableActors.Actor.Outbound
import DurableActors.Storage.Snapshot
import DurableActors.Storage.Numbers
import DurableActors.Storage.Paths
import DurableActors.Actor.Wire
import DurableActors.Actor.Agreement
import DurableActors.Sdk.ActorRuntime
import DurableActors.Sdk.Supervisor
import DurableActors.Host.Task
import DurableActors.Host.Runtime
import DurableActors.Host.Admission
import DurableActors.Host.Trace
import DurableActors.Host.Footprint
import DurableActors.Host.Journal
import DurableActors.Host.Fencing
import DurableActors.Host.Ordering
import DurableActors.Host.Discipline
import DurableActors.Host.Declining
import DurableActors.Host.Dispatcher
import DurableActors.Host.Accounting
import DurableActors.Host.Execution
import DurableActors.Host.Sequencing
import DurableActors.Sdk.Numbering
import DurableActors.Sdk.Instances
import DurableActors.Sdk.Eviction
import DurableActors.Sdk.Session
import DurableActors.Sdk.SocketOutput
import DurableActors.Host.Gate
import DurableActors.Host.Ledger
import DurableActors.Host.Bookkeeping
import DurableActors.Host.Versions
import DurableActors.Host.Retries
import DurableActors.Data.Weight
import DurableActors.Data.Rounding
import DurableActors.Data.Json
import DurableActors.Data.Frames
import DurableActors.Effects.Directory
import DurableActors.Replication.Store
import DurableActors.Replication.Durability
import DurableActors.Replication.StoreSpecs
import DurableActors.Replication.StoreRuns
import DurableActors.Data.Paging
import DurableActors.Data.Quantile
import DurableActors.Data.Base64
import DurableActors.Data.Digits
import DurableActors.Data.Newest
import DurableActors.ControlPlane.Contracts
import DurableActors.ControlPlane.Identity
import DurableActors.Sockets.Browser
import DurableActors.Traces.Query
import DurableActors.Traces.Store
import DurableActors.Traces.Tables
import DurableActors.Traces.Acceptance
import DurableActors.Traces.Subscription
import DurableActors.Traces.Walk
import DurableActors.Traces.Overview
import DurableActors.Bucket.Witnesses
import DurableActors.Sdk.Client
import DurableActors.Sdk.PublicSchema
import DurableActors.Traces.Dashboard
