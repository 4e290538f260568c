import DataPipe.Flow.InboxSurvival
import DataPipe.RuntimeClient.Session
import DataPipe.Flow.DrainLock
import DataPipe.Flow.Exactness
import DataPipe.Flow.FreshDeploy
import DataPipe.Flow.Disabled
import DataPipe.Flow.EventOrder
import DataPipe.Flow.Entry
import DataPipe.Flow.Forwarding
import DataPipe.Flow.QueueOwners
import DataPipe.Nodes.Sinks
import DataPipe.Bus.Isolation
import DataPipe.Flow.ValidationRules
import DataPipe.ControlPlane.NewestVersion
import DataPipe.ControlPlane.CrashMarks
import DataPipe.ControlPlane.ProfileScope
import DataPipe.ControlPlane.AuditTamper
import DataPipe.RuntimeClient.Commands
import DataPipe.ControlPlane.DebugHub
import DataPipe.Secsii.Decoding
import DataPipe.Hsms.Conn
import DataPipe.ControlPlane.Enrollment
import DataPipe.ControlPlane.EnrollTokens
import DataPipe.ControlPlane.ExportImport
import DataPipe.ControlPlane.Backup
import DataPipe.Nodes.RecordFormat
import DataPipe.Nodes.Framing
import DataPipe.Nodes.Modbus
import DataPipe.Nodes.Merge
import DataPipe.Nodes.Windows
import DataPipe.Nodes.Webhook
import DataPipe.Nodes.SplitBatch
import DataPipe.Nodes.Loop
import DataPipe.Nodes.Lookup
import DataPipe.Bus.Delivery
import DataPipe.ControlPlane.Roles
import DataPipe.Flow.FailedDeploy
import DataPipe.Flow.Retries
import DataPipe.StoreForward.Bounds
import DataPipe.Expr.Runtime
import DataPipe.ControlPlane.NodeTrace
import DataPipe.Flow.DebugRing
