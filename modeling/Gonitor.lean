import Gonitor.Framework.AtomicProgram
import Gonitor.Framework.AssuredProgram
import Gonitor.Framework.ProgramTrace
import Gonitor.Framework.LockstepProgram
import Gonitor.Framework.SoftDeleteTable
import Gonitor.Framework.AcyclicRelation
import Gonitor.Model.Rows
import Gonitor.Server.Operations
import Gonitor.Server.Bootstrap
import Gonitor.Controller.Response
import Gonitor.Controller.Task
import Gonitor.Controller.TaskTransfer
import Gonitor.Deploy.Commands
import Gonitor.Controller.Node
import Gonitor.Requests.Serving
import Gonitor.Requests.Responsibilities
import Gonitor.Requests.NodeGuard
import Gonitor.Requests.Tables
import Gonitor.Requests.Placing
import Gonitor.Requests.TaskUpdates
import Gonitor.Requests.Effects
import Gonitor.Requests.Schedule
import Gonitor.Requests.Health
import Gonitor.Requests.Guarantees
import Gonitor.Concurrent.Threads
import Gonitor.Concurrent.Discipline
import Gonitor.Concurrent.Invariants
import Gonitor.Concurrent.Orphans
import Gonitor.Concurrent.KeyRotation
import Gonitor.Concurrent.LostUpdates
import Gonitor.Concurrent.Processes
import Gonitor.Concurrent.Signals
import Gonitor.Concurrent.Accounting
import Gonitor.Concurrent.Phases
import Gonitor.Concurrent.Stopping
import Gonitor.Concurrent.Completion
import Gonitor.Concurrent.Exclusion
import Gonitor.Web.Middleware
import Gonitor.Web.Routes
import Gonitor.Web.Authentication
import Gonitor.Web.Sessions
import Gonitor.Framework.PosixShell
import Gonitor.Deploy.Injection
import Gonitor.Integrity.Changes
import Gonitor.Integrity.Importing
import Gonitor.Integrity.Writers
import Gonitor.Integrity.Scheduling
import Gonitor.Integrity.Validity
import Gonitor.Integrity.RoundTrip
import Gonitor.Integrity.Placement
import Gonitor.Integrity.Dependencies
import Gonitor.Integrity.References
import Gonitor.Concurrent.MasterRuns
import Gonitor.Task.Calls
import Gonitor.Task.Jobs
import Gonitor.Task.Attempts
import Gonitor.Task.RunRecord
import Gonitor.Task.Pauses
import Gonitor.Task.ExecLog
import Gonitor.Requests.Isolation
import Gonitor.Integrity.MasterNode
import Gonitor.Concurrent.Accounts
import Gonitor.Integrity.AuditTrail
import Gonitor.Framework.IncrementalPull
import Gonitor.Integrity.TaskSync
import Gonitor.Framework.LabelledTraces
import Gonitor.Web.Hub
import Gonitor.Web.Backpressure
import Gonitor.Framework.Toggles
import Gonitor.Web.Subscriptions
import Gonitor.Web.Delivery
import Gonitor.Mobile.AppController
import Gonitor.Mobile.CurrentSession
import Gonitor.Integrity.Remapping
import Gonitor.Integrity.Storing
import Gonitor.Requests.Uploads
import Gonitor.Framework.CivilTime
import Gonitor.Framework.DateTimeText
import Gonitor.Integrity.AgentClock
import Gonitor.Task.ResultHandler
import Gonitor.Requests.DeployStatus
import Gonitor.Deploy.AgentConfig
import Gonitor.Integrity.NodeNames
import Gonitor.Framework.Binary64
import Gonitor.Integrity.Paging
import Gonitor.Framework.Json
import Gonitor.Mobile.Refresh
import Gonitor.Model.LogJson
import Gonitor.Mobile.ExecutionLogs
import Gonitor.Client.TaskTags
import Gonitor.Web.Lock
import Gonitor.Web.LockRenewal
import Gonitor.Web.LockRelease
import Gonitor.Framework.RateLimit
import Gonitor.Web.Limiter
import Gonitor.Concurrent.Credentials
import Gonitor.Concurrent.RunHistory
import Gonitor.Framework.SlashPath
import Gonitor.Framework.Timers
import Gonitor.Web.Connection
import Gonitor.Web.Resource
import Gonitor.Web.Browser
import Gonitor.Web.LockExclusion
import Gonitor.Web.Publishing
import Gonitor.Controller.TaskList
import Gonitor.Integrity.Coverage
import Gonitor.Integrity.Dashboard
import Gonitor.Controller.TaskExport
import Gonitor.Web.Access
