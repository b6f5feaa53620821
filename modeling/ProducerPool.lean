import ProducerPool.Cache
import ProducerPool.Config
import ProducerPool.Config.Document
import ProducerPool.Duration
import ProducerPool.Error
import ProducerPool.Format
import ProducerPool.Json.Decimal
import ProducerPool.Json.Format
import ProducerPool.Json.Lexer
import ProducerPool.Json.Reader
import ProducerPool.Json.Tree
import ProducerPool.Json.Value
import ProducerPool.Json.Writer
import ProducerPool.Pool.Basic
import ProducerPool.Pool.Create
import ProducerPool.Pool.Journal
import ProducerPool.Pool.Lifetime
import ProducerPool.Pool.Producer
import ProducerPool.Pool.Sweep
import ProducerPool.Pool.Transaction
import ProducerPool.Pool.Use
import ProducerPool.Proofs.Acquisition
import ProducerPool.Proofs.Attendance
import ProducerPool.Proofs.Carried
import ProducerPool.Proofs.CheckOut
import ProducerPool.Proofs.Closing
import ProducerPool.Proofs.Connections
import ProducerPool.Proofs.Course.Basic
import ProducerPool.Proofs.Course.Code
import ProducerPool.Proofs.Course.Create
import ProducerPool.Proofs.Course.Use
import ProducerPool.Proofs.Creation
import ProducerPool.Proofs.Dealings
import ProducerPool.Proofs.Destroyed
import ProducerPool.Proofs.Discretion
import ProducerPool.Proofs.Documents
import ProducerPool.Proofs.Execution
import ProducerPool.Proofs.Failures
import ProducerPool.Proofs.Flow.Code
import ProducerPool.Proofs.Flow.Create
import ProducerPool.Proofs.Flow.Lifetime
import ProducerPool.Proofs.Flow.Sweep
import ProducerPool.Proofs.Flow.Use
import ProducerPool.Proofs.Format
import ProducerPool.Proofs.Generation
import ProducerPool.Proofs.Handles
import ProducerPool.Proofs.Identity
import ProducerPool.Proofs.Informed
import ProducerPool.Proofs.Invariant.Code
import ProducerPool.Proofs.Invariant.Create
import ProducerPool.Proofs.Invariant.Lifetime
import ProducerPool.Proofs.Invariant.Motion
import ProducerPool.Proofs.Invariant.Move
import ProducerPool.Proofs.Invariant.Sweep
import ProducerPool.Proofs.Invariant.Use
import ProducerPool.Proofs.Json.Building
import ProducerPool.Proofs.Json.Format
import ProducerPool.Proofs.Json.Lexing
import ProducerPool.Proofs.Json.Values
import ProducerPool.Proofs.Kept
import ProducerPool.Proofs.Later
import ProducerPool.Proofs.Lease
import ProducerPool.Proofs.Ledger
import ProducerPool.Proofs.Live
import ProducerPool.Proofs.Notices
import ProducerPool.Proofs.Notified
import ProducerPool.Proofs.Numbers
import ProducerPool.Proofs.Obtain
import ProducerPool.Proofs.Places
import ProducerPool.Proofs.Points
import ProducerPool.Proofs.Queues
import ProducerPool.Proofs.Requests
import ProducerPool.Proofs.Reuse
import ProducerPool.Proofs.Rounds.Basic
import ProducerPool.Proofs.Rounds.Code
import ProducerPool.Proofs.Rounds.Create
import ProducerPool.Proofs.Rounds.Use
import ProducerPool.Proofs.Routing
import ProducerPool.Proofs.Run
import ProducerPool.Proofs.Script
import ProducerPool.Proofs.Search
import ProducerPool.Proofs.Singleton
import ProducerPool.Proofs.Slots
import ProducerPool.Proofs.Step
import ProducerPool.Proofs.Tables
import ProducerPool.Proofs.Threads
import ProducerPool.Proofs.TransactionalId
import ProducerPool.Proofs.Transactions
import ProducerPool.Proofs.Twin.Alike
import ProducerPool.Proofs.Twin.Code
import ProducerPool.Proofs.Twin.Create
import ProducerPool.Proofs.Twin.Lifetime
import ProducerPool.Proofs.Twin.Sweep
import ProducerPool.Proofs.Twin.Use
import ProducerPool.Proofs.Unused
import ProducerPool.Raw
import ProducerPool.Record
import ProducerPool.Scenario.Report
import ProducerPool.Scenario.Run
import ProducerPool.Scenario.Stage
import ProducerPool.Scenario.Step
import ProducerPool.Scripted
import ProducerPool.SortedMap
import ProducerPool.Text.Escaped
import ProducerPool.Text.Quoted
import ProducerPool.TransactionScope
