import BloomWorkspaces.Library.Transition
import BloomWorkspaces.Library.Table
import BloomWorkspaces.Control.Config
import BloomWorkspaces.Control.Database
import BloomWorkspaces.Control.Workspaces.Basic
import BloomWorkspaces.Control.Workspaces.Admission
import BloomWorkspaces.Control.Workspaces.Step
import BloomWorkspaces.Control.Workspaces.Rows
import BloomWorkspaces.Control.Workspaces.Admitted
import BloomWorkspaces.Control.Workspaces.Capacity
import BloomWorkspaces.Control.Workspaces.Quotas
import BloomWorkspaces.Control.Workspaces.Volumes
import BloomWorkspaces.Agent.PtyRuntime
import BloomWorkspaces.System.Lifecycle
import BloomWorkspaces.System.Termination
import BloomWorkspaces.Guest.Validate
import BloomWorkspaces.Guest.Logs
import BloomWorkspaces.Guest.LogOffsets
import BloomWorkspaces.Guest.JobEngine
import BloomWorkspaces.Guest.JobTable
import BloomWorkspaces.Guest.JobReports
import BloomWorkspaces.Guest.JobStart
import BloomWorkspaces.Jobs.Status
import BloomWorkspaces.Guest.WaitLoop
import BloomWorkspaces.Agent.GuestWorkspace
import BloomWorkspaces.Agent.FirecrackerRuntime
import BloomWorkspaces.Control.Auth
import BloomWorkspaces.Agent.Egress.Address
import BloomWorkspaces.Agent.Egress.Policy
import BloomWorkspaces.Agent.Egress.Proxy
import BloomWorkspaces.Library.BigEndian
import BloomWorkspaces.Library.Checked
import BloomWorkspaces.Agent.Egress.Tls
import BloomWorkspaces.Agent.Egress.ClientHello
import BloomWorkspaces.Agent.Egress.Inspection
import BloomWorkspaces.Ssh.Revocation
import BloomWorkspaces.Ssh.TunnelUpgrade
import BloomWorkspaces.Library.Routine
import BloomWorkspaces.Agent.DataCalls
import BloomWorkspaces.Library.Action
import BloomWorkspaces.Library.Utf8
import BloomWorkspaces.Guest.WorkspaceTree
import BloomWorkspaces.Guest.FileSystem
import BloomWorkspaces.Guest.WorkspaceFiles
import BloomWorkspaces.Guest.Confinement
import BloomWorkspaces.Guest.Outcomes
import BloomWorkspaces.Guest.WriteFailure
import BloomWorkspaces.Guest.Accounting
import BloomWorkspaces.Guest.StorageQuota
import BloomWorkspaces.Library.Utf16
import BloomWorkspaces.Agent.GuestProtocol
import BloomWorkspaces.Agent.GuestChannel
import BloomWorkspaces.Agent.Upload
import BloomWorkspaces.Agent.UploadLoop
import BloomWorkspaces.Agent.RoundTrip
import BloomWorkspaces.Agent.AllOrNothing
import BloomWorkspaces.Jobs.StructuredJobSpec
import BloomWorkspaces.Jobs.StartRequest
import BloomWorkspaces.Jobs.Forwarding
import BloomWorkspaces.Agent.Egress.Reception
import BloomWorkspaces.Library.UrlHost
import BloomWorkspaces.Agent.Egress.ServerName
import BloomWorkspaces.Control.Workspaces.Lifecycle
import BloomWorkspaces.Control.Workspaces.AuditTrail
import BloomWorkspaces.Control.Workspaces.Destruction
import BloomWorkspaces.Agent.VmRuntime
import BloomWorkspaces.Agent.VolumeRemoval
import BloomWorkspaces.Agent.CreateFailure
import BloomWorkspaces.Agent.SessionTable
import BloomWorkspaces.Agent.RuntimeSessions
import BloomWorkspaces.Agent.CallSessions
import BloomWorkspaces.System.NodeSessions
import BloomWorkspaces.Guest.Connections
import BloomWorkspaces.Guest.BloomIpc
import BloomWorkspaces.Guest.Ceremony
import BloomWorkspaces.Guest.ErrorMessages
import BloomWorkspaces.Guest.Waiting
import BloomWorkspaces.Guest.Identity
import BloomWorkspaces.Guest.GuestControl
import BloomWorkspaces.Agent.Egress.Metering
import BloomWorkspaces.Control.ChallengeRate
import BloomWorkspaces.Control.SignIn
import BloomWorkspaces.Agent.Egress.Denotation
import BloomWorkspaces.Agent.Egress.Acceptance
import BloomWorkspaces.Library.JsArithmetic
import BloomWorkspaces.Agent.Egress.Arithmetic
import BloomWorkspaces.Agent.Egress.PublicAddress
import BloomWorkspaces.Guest.JobProcesses
import BloomWorkspaces.Jobs.EventStream
import BloomWorkspaces.Control.Workspaces.Unread
import BloomWorkspaces.System.DataOperations
import BloomWorkspaces.Agent.GuestFrames
import BloomWorkspaces.Library.JsString
import BloomWorkspaces.Ssh.PublicKey
import BloomWorkspaces.Library.Sha256
import BloomWorkspaces.Library.Shell
import BloomWorkspaces.Library.Url
import BloomWorkspaces.Ssh.GatewayOrigin
import BloomWorkspaces.Ssh.ProxyArguments
import BloomWorkspaces.Ssh.ClientPlan
import BloomWorkspaces.Guest.Principals
import BloomWorkspaces.Agent.PathValidators
import BloomWorkspaces.Guest.Client
import BloomWorkspaces.Guest.Listing
import BloomWorkspaces.Guest.ProcessGroups
import BloomWorkspaces.Control.TerminalAdmission
import BloomWorkspaces.Agent.TerminalInput
import BloomWorkspaces.Agent.TerminalOutput
import BloomWorkspaces.Guest.VsockRelay
import BloomWorkspaces.Agent.VolumeAttachment
import BloomWorkspaces.Control.TunnelBridge
import BloomWorkspaces.Agent.DataQuota
import BloomWorkspaces.Control.ClientIp
import BloomWorkspaces.Library.LeastFirst
import BloomWorkspaces.Control.Workspaces.QueuePositions
import BloomWorkspaces.Library.Descriptors
import BloomWorkspaces.Guest.Descriptors
import BloomWorkspaces.Guest.DescriptorTable
import BloomWorkspaces.Guest.Protocol
import BloomWorkspaces.Guest.Transports
import BloomWorkspaces.Guest.JobReplies
import BloomWorkspaces.Guest.ResponseSize
import BloomWorkspaces.Guest.FrameLimit
import BloomWorkspaces.Agent.PathCalls
import BloomWorkspaces.Agent.RealBloom
import BloomWorkspaces.Control.Workspaces.Restart
import BloomWorkspaces.Control.Workspaces.Recovery
import BloomWorkspaces.Library.UriComponent
import BloomWorkspaces.Agent.Routes
import BloomWorkspaces.Control.AgentClient
import BloomWorkspaces.Control.AgentReplies
import BloomWorkspaces.System.ErrorPath
import BloomWorkspaces.Control.Cookies
import BloomWorkspaces.Control.Sessions
import BloomWorkspaces.Agent.PtyTerminal
import BloomWorkspaces.Library.TextDecoder
import BloomWorkspaces.Web.JobLog
import BloomWorkspaces.Web.JobForm
import BloomWorkspaces.Agent.SshConnections
