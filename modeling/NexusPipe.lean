import NexusPipe.Proof.Api.Handlers.Pipeline
import NexusPipe.Proof.Api.Handlers.Retry
import NexusPipe.Proof.Api.Handlers.Task
import NexusPipe.Proof.Api.Middleware.Buckets
import NexusPipe.Proof.Api.Middleware.CORS
import NexusPipe.Proof.Api.Middleware.CORSHeaders
import NexusPipe.Proof.Api.Middleware.Logging
import NexusPipe.Proof.Api.Middleware.Permissions
import NexusPipe.Proof.Api.Middleware.RateLimit
import NexusPipe.Proof.Api.Middleware.TokenKinds
import NexusPipe.Proof.Api.RateLimiter
import NexusPipe.Proof.Auth.EffectivePermissions
import NexusPipe.Proof.Auth.RateLimit
import NexusPipe.Proof.Auth.Transition
import NexusPipe.Proof.Circuit.Recovery
import NexusPipe.Proof.Circuit.Sequential
import NexusPipe.Proof.Cmd.Worker
import NexusPipe.Proof.Dag.ActiveRuns
import NexusPipe.Proof.Dag.Determinism
import NexusPipe.Proof.Dag.Validation
import NexusPipe.Proof.Pipeline.Builder
import NexusPipe.Proof.Pipeline.Cycles
import NexusPipe.Proof.Pipeline.Dependencies
import NexusPipe.Proof.Pipeline.Dispatcher
import NexusPipe.Proof.Pipeline.Events
import NexusPipe.Proof.Pipeline.Stages
import NexusPipe.Proof.Pkg.Attempts
import NexusPipe.Proof.Pkg.CacheAccess
import NexusPipe.Proof.Pkg.Delay
import NexusPipe.Proof.Pkg.Validator
import NexusPipe.Proof.Queue.Backoff
import NexusPipe.Proof.Queue.Consumer
import NexusPipe.Proof.Queue.Lifecycle
import NexusPipe.Proof.Queue.RabbitMQ
import NexusPipe.Proof.Queue.Receiver
import NexusPipe.Proof.Queue.Topology
import NexusPipe.Proof.Repository.Pipeline
import NexusPipe.Proof.Retry.Delay
import NexusPipe.Proof.Retry.Permanent
import NexusPipe.Proof.Scheduler.Describe
import NexusPipe.Proof.Scheduler.DryRun
import NexusPipe.Proof.Scheduler.MarkFailed
import NexusPipe.Proof.Scheduler.Poll
import NexusPipe.Proof.Scheduler.Service
import NexusPipe.Proof.Webhooks.DeadLetter
import NexusPipe.Proof.Webhooks.Manager
import NexusPipe.Proof.Webhooks.Query
import NexusPipe.Proof.Webhooks.Recording
import NexusPipe.Proof.Webhooks.Shutdown
import NexusPipe.Proof.Worker.HealthCheck
import NexusPipe.Proof.Worker.Metrics
