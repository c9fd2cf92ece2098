import WaitingRoom.Shared.Table
import WaitingRoom.Shared.Ranking
import WaitingRoom.Shared.Batch
import WaitingRoom.Shared.Union
import WaitingRoom.Shared.Run
import WaitingRoom.Shared.Gate
import WaitingRoom.Shared.Document
import WaitingRoom.Shared.Decode
import WaitingRoom.Shared.Base64
import WaitingRoom.Shared.Runes
import WaitingRoom.Shared.Raw
import WaitingRoom.Shared.Json
import WaitingRoom.Shared.Window
import WaitingRoom.Shared.Decimal
import WaitingRoom.Shared.Path
import WaitingRoom.Queue.State
import WaitingRoom.Queue.Fence
import WaitingRoom.Queue.Command
import WaitingRoom.Queue.Validate
import WaitingRoom.Queue.System
import WaitingRoom.Queue.Effect
import WaitingRoom.Queue.Move
import WaitingRoom.Queue.Index
import WaitingRoom.Queue.Consistent
import WaitingRoom.Queue.Hold
import WaitingRoom.Queue.Epoch
import WaitingRoom.Queue.History
import WaitingRoom.Queue.Order
import WaitingRoom.Queue.Rate
import WaitingRoom.Queue.Lease
import WaitingRoom.Admission.Token
import WaitingRoom.Admission.Gateway
import WaitingRoom.Queue.Evidence
import WaitingRoom.Queue.Sound
import WaitingRoom.Queue.Isolation
import WaitingRoom.Queue.Failure
import WaitingRoom.Queue.Sweep
import WaitingRoom.Queue.Probe
import WaitingRoom.Queue.Replay
import WaitingRoom.Queue.Migration
import WaitingRoom.Keyring.Ring
import WaitingRoom.Admission.Join
import WaitingRoom.Reference.Model
import WaitingRoom.Reference.Law
import WaitingRoom.Runtime.Recovery
import WaitingRoom.Runtime.Incident
import WaitingRoom.Runtime.Retry
import WaitingRoom.Trust.Snapshot
import WaitingRoom.Trust.History
import WaitingRoom.Trust.Quarantine
import WaitingRoom.Control.Config
import WaitingRoom.Control.Delivery
import WaitingRoom.Control.Codec
import WaitingRoom.Control.Publication
import WaitingRoom.Control.Effect
import WaitingRoom.Control.Budget
import WaitingRoom.Control.Succession
import WaitingRoom.Control.Seal
import WaitingRoom.Control.Acceptance
import WaitingRoom.Control.Lockout
import WaitingRoom.Control.Completion
import WaitingRoom.Control.Schedule
import WaitingRoom.Control.Route
import WaitingRoom.Control.Logo
import WaitingRoom.Control.Exact
import WaitingRoom.Runtime.Report
import WaitingRoom.Runtime.Arrival
import WaitingRoom.Admin.Limit
import WaitingRoom.Admin.Account
import WaitingRoom.Admin.Login
import WaitingRoom.Admin.Command
import WaitingRoom.Admin.System
import WaitingRoom.Admin.Effect
import WaitingRoom.Admin.Row
import WaitingRoom.Admin.Factor
import WaitingRoom.Admin.Revocation
import WaitingRoom.Admin.Once
import WaitingRoom.Guard.Check
import WaitingRoom.Guard.Quota
import WaitingRoom.Guard.Memory
import WaitingRoom.Guard.Spacing
import WaitingRoom.Plane.Serve
import WaitingRoom.Plane.Exclusion
import WaitingRoom.Browser.Return
import WaitingRoom.Browser.Intent
import WaitingRoom.Keyring.Lifecycle
import WaitingRoom.Install.Cost
import WaitingRoom.Backup.Archive
import WaitingRoom.Backup.Create
