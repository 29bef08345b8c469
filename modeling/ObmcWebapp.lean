import ObmcWebapp.Application.BrokerHeaps
import ObmcWebapp.Application.Builders
import ObmcWebapp.Application.EntityMap
import ObmcWebapp.Application.InitEntityMap
import ObmcWebapp.Application.Lists
import ObmcWebapp.Application.Registries
import ObmcWebapp.Application.Relations
import ObmcWebapp.Application.RequestBodies
import ObmcWebapp.Application.Requests
import ObmcWebapp.Application.Snapshots
import ObmcWebapp.Application.Termination
import ObmcWebapp.Application.VersionRuns
import ObmcWebapp.Application.Vocabulary
import ObmcWebapp.Brokers.Broker
import ObmcWebapp.Brokers.CaptureLoop
import ObmcWebapp.Brokers.FailedRefresh
import ObmcWebapp.Brokers.Listeners
import ObmcWebapp.Brokers.Manager
import ObmcWebapp.Brokers.ManagerRuns
import ObmcWebapp.Brokers.Publishing
import ObmcWebapp.Brokers.Rounds
import ObmcWebapp.Brokers.Serving
import ObmcWebapp.Brokers.SharedPaths
import ObmcWebapp.Brokers.Teardown
import ObmcWebapp.Brokers.Watch
import ObmcWebapp.Brokers.Workers
import ObmcWebapp.Core.Base64
import ObmcWebapp.Core.Exceptions
import ObmcWebapp.Core.Json
import ObmcWebapp.Core.Records
import ObmcWebapp.Core.Response
import ObmcWebapp.Core.Utils
import ObmcWebapp.Entities.Associations
import ObmcWebapp.Entities.ConcurrentQueries
import ObmcWebapp.Entities.Conditions
import ObmcWebapp.Entities.Creation
import ObmcWebapp.Entities.Enumeration
import ObmcWebapp.Entities.Field
import ObmcWebapp.Entities.HashIdentity
import ObmcWebapp.Entities.Instance
import ObmcWebapp.Entities.Interrupted
import ObmcWebapp.Entities.Inventory
import ObmcWebapp.Entities.ListProperties
import ObmcWebapp.Entities.Manager
import ObmcWebapp.Entities.NotFoundField
import ObmcWebapp.Entities.Outlines
import ObmcWebapp.Entities.Queries
import ObmcWebapp.Entities.SensorLinks
import ObmcWebapp.Entities.SensorStatus
import ObmcWebapp.Entities.Sensors
import ObmcWebapp.Entities.Settling
import ObmcWebapp.Entities.Status
import ObmcWebapp.Entities.Termination
import ObmcWebapp.Entities.Updates
import ObmcWebapp.Entities.Versions
import ObmcWebapp.Entities.Writes
import ObmcWebapp.Graphql.Aliases
import ObmcWebapp.Graphql.Answer
import ObmcWebapp.Graphql.Ast
import ObmcWebapp.Graphql.Builder
import ObmcWebapp.Graphql.Delivery
import ObmcWebapp.Graphql.Evaluation
import ObmcWebapp.Graphql.Fragments
import ObmcWebapp.Graphql.Frame
import ObmcWebapp.Graphql.Handler
import ObmcWebapp.Graphql.Interleaving
import ObmcWebapp.Graphql.Paths
import ObmcWebapp.Graphql.Visits
import ObmcWebapp.Graphql.Walk
import ObmcWebapp.Http.Answers
import ObmcWebapp.Http.Connection
import ObmcWebapp.Http.Headers
import ObmcWebapp.Http.Message
import ObmcWebapp.Http.Provenance
import ObmcWebapp.Http.ServerRuns
import ObmcWebapp.Http.System
import ObmcWebapp.Library.Acyclic
import ObmcWebapp.Library.Base64
import ObmcWebapp.Library.Execution
import ObmcWebapp.Library.Fallible
import ObmcWebapp.Library.OrderedMap
import ObmcWebapp.Library.Wire
import ObmcWebapp.Service.Authorization
import ObmcWebapp.Service.Configuration
import ObmcWebapp.Service.Persistence
import ObmcWebapp.Service.RefusedRequests
import ObmcWebapp.Service.Responding
import ObmcWebapp.Service.Router
import ObmcWebapp.Service.Session
import ObmcWebapp.Service.SessionRuns
import ObmcWebapp.Service.StoreRuns
import ObmcWebapp.Service.TimeoutRange
