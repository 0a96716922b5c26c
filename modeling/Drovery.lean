import Drovery.Objects.Delivery
import Drovery.Objects.Fleet
import Drovery.Objects.Command
import Drovery.Data.Table
import Drovery.Objects.Theorems.Delivery
import Drovery.Concurrency.Prog
import Drovery.Concurrency.Pool
import Drovery.Concurrency.Logic
import Drovery.Concurrency.Method
import Drovery.Concurrency.Sequential
import Drovery.Objects.Wallet
import Drovery.Objects.Promo
import Drovery.Objects.Payment
import Drovery.Execution.Store
import Drovery.Services.Dispatch
import Drovery.Services.Money
import Drovery.Services.Termination
import Drovery.Services.Create
import Drovery.Services.Simulation
import Drovery.Services.Commands
import Drovery.Services.Telemetry
import Drovery.Execution.System
import Drovery.Services.Theorems.Blocks
import Drovery.Execution.Theorems.Store
import Drovery.Objects.Theorems.Wallet
import Drovery.Execution.Theorems.Money
import Drovery.Theorems.Wallet
import Drovery.Theorems.Reconcile
import Drovery.Theorems.Handoff
import Drovery.Theorems.Refund
import Drovery.Theorems.Promo
import Drovery.Execution.Theorems.Warrant
import Drovery.Theorems.Calls
import Drovery.Theorems.Lifecycle
import Drovery.Theorems.Commands
import Drovery.Theorems.Fleet
import Drovery.Theorems.Transport
import Drovery.Theorems.Watchdog
import Drovery.Theorems.Grounding
import Drovery.Theorems.Driver
import Drovery.Theorems.Leak
import Drovery.Theorems.Payments
import Drovery.Objects.Airspace
import Drovery.Services.Airspace
import Drovery.Theorems.Airspace
import Drovery.Data.Calendar
import Drovery.Objects.Recurrence
import Drovery.Services.Recurring
import Drovery.Theorems.Recurring
import Drovery.Theorems.Compensation
import Drovery.Theorems.Checkout
import Drovery.Theorems.Atomic
import Drovery.Concurrency.Duties
import Drovery.Theorems.Charge
import Drovery.Concurrency.Local
import Drovery.Services.Roles
import Drovery.Theorems.Roles
import Drovery.Objects.Outbox
import Drovery.Services.Outbox
import Drovery.Theorems.Outbox
import Drovery.Theorems.Referral
import Drovery.Objects.Auth
import Drovery.Services.Auth
import Drovery.Theorems.Sessions
import Drovery.Theorems.Reset
import Drovery.Objects.Tracking
import Drovery.Services.Tracking
import Drovery.Theorems.Tracking
import Drovery.Theorems.Checkpoints
import Drovery.Services.Gateway
import Drovery.Theorems.Gateway
import Drovery.Services.Reaper
import Drovery.Theorems.Reaper
import Drovery.Objects.Theorems.Recurrence
import Drovery.Theorems.Zones
import Drovery.Theorems.Materialize
import Drovery.Data.Marked
import Drovery.Services.SavedAddresses
import Drovery.Theorems.SavedAddresses
import Drovery.Services.PaymentMethods
import Drovery.Theorems.PaymentMethods
import Drovery.Objects.Audit
import Drovery.Services.Support
import Drovery.Theorems.Support
import Drovery.Concurrency.Session
import Drovery.Objects.Columns
import Drovery.Objects.Theorems.Audit
import Drovery.Services.Admin
import Drovery.Theorems.Admin
import Drovery.Services.Registry
import Drovery.Theorems.Registry
import Drovery.Theorems.Preflight
import Drovery.Data.Decimal
import Drovery.Data.Partition
import Drovery.Services.Partitions
import Drovery.Theorems.Partitions
import Drovery.Objects.Pickup
import Drovery.Theorems.Liveness
import Drovery.Theorems.Kickoff
import Drovery.Data.Sphere
import Drovery.Objects.Flight
import Drovery.Theorems.Energy
import Drovery.Data.Ranking
import Drovery.Services.Flight
import Drovery.Theorems.Selection
import Drovery.Theorems.Pickup
import Drovery.Theorems.Offers
import Drovery.Data.Segment
import Drovery.Services.Serviceability
import Drovery.Theorems.Serviceability
import Drovery.Theorems.Pricing
import Drovery.Theorems.Positions
import Drovery.Theorems.Capture
import Drovery.Theorems.Lockout
import Drovery.Theorems.Reaped
import Drovery.Objects.Uuid
import Drovery.Services.JobQueue
import Drovery.Services.Coalescer
import Drovery.Theorems.JobQueue
import Drovery.Theorems.Coalescer
import Drovery.Services.Mqtt
import Drovery.Theorems.Mqtt
import Drovery.Theorems.SavedCoordinates
import Drovery.Theorems.Ranking
import Drovery.Theorems.Topics
import Drovery.Data.JsNumber
import Drovery.Data.Json
import Drovery.Data.JsonText
import Drovery.Objects.AuditFields
import Drovery.Theorems.AuditDiff
import Drovery.Data.JsValue
import Drovery.Services.Workflows
import Drovery.Theorems.Workflows
import Drovery.Objects.Broker
import Drovery.Services.Broker
import Drovery.Theorems.FlightLog
import Drovery.Theorems.Broker
import Drovery.Theorems.Pubsub
import Drovery.Theorems.Caching
import Drovery.Theorems.Notifications
import Drovery.Concurrency.Agreement
import Drovery.Theorems.Agreement
import Drovery.Theorems.Reservations
import Drovery.Theorems.Frames
