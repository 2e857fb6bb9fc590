import CommandApi.Async.Prog
import CommandApi.Async.Machine
import CommandApi.Async.Control
import CommandApi.Async.History
import CommandApi.Async.Polls
import CommandApi.Async.Permits
import CommandApi.Async.Threads
import CommandApi.Async.Clock
import CommandApi.Data.Table
import CommandApi.Unix.Forest
import CommandApi.Windows.Job
import CommandApi.Text.Utf8
import CommandApi.Text.LineLog
import CommandApi.Text.Json
import CommandApi.Text.Base64
import CommandApi.Text.Utf16
import CommandApi.Text.Unicode
import CommandApi.Model
import CommandApi.Config.Types
import CommandApi.Config.Resolve
import CommandApi.Config.Arguments
import CommandApi.Secret.Protect
import CommandApi.Secret.Verify
import CommandApi.Store.Events
import CommandApi.Store.Recovery
import CommandApi.Store.Crash
import CommandApi.Store.Output
import CommandApi.Store.Decode
import CommandApi.Store.Paging
import CommandApi.Store.Reopen
import CommandApi.Store.Orphans
import CommandApi.Process.Program
import CommandApi.Process.Phases
import CommandApi.Process.World
import CommandApi.Process.Clocked
import CommandApi.Process.Runs
import CommandApi.Process.Lifecycle
import CommandApi.Process.Failures
import CommandApi.Process.Causes
import CommandApi.Process.Durability
import CommandApi.Process.Eof
import CommandApi.Process.Kill
import CommandApi.Process.Permits
import CommandApi.Process.Unix
import CommandApi.Process.Windows
import CommandApi.Process.Outcome
import CommandApi.Process.Capture
import CommandApi.Process.Readers
import CommandApi.Process.Logging
import CommandApi.Process.Tailing
import CommandApi.Process.Waits
import CommandApi.Process.Worker
import CommandApi.Process.Pipe
import CommandApi.Process.ParentLoss
import CommandApi.Process.Reaping
import CommandApi.Process.Futures
import CommandApi.Process.Awaits
import CommandApi.Server.Execute
import CommandApi.Server.Paid
import CommandApi.Server.Restart
import CommandApi.Server.Start
import CommandApi.Server.Conservation
import CommandApi.Server.Teardown
import CommandApi.Server.Retention
import CommandApi.Server.Requests
import CommandApi.Server.Management
import CommandApi.Server.Integrity
import CommandApi.Server.Batch
import CommandApi.Server.Authenticate
import CommandApi.Server.Cooldown
import CommandApi.Server.Issued
import CommandApi.Server.Recording
import CommandApi.Server.Idle
import CommandApi.Server.Deadlines
