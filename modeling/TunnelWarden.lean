import TunnelWarden.App.Credentials
import TunnelWarden.App.Groups
import TunnelWarden.App.Instance
import TunnelWarden.App.SshImport
import TunnelWarden.App.Tray
import TunnelWarden.Common.Fixed
import TunnelWarden.Common.Greatest
import TunnelWarden.Forwarding.Connection
import TunnelWarden.Forwarding.Destinations
import TunnelWarden.Forwarding.Relay
import TunnelWarden.Forwarding.Release
import TunnelWarden.Forwarding.SeenRemote
import TunnelWarden.Forwarding.Socks5
import TunnelWarden.Import.Include
import TunnelWarden.Import.Limits
import TunnelWarden.Import.Preview
import TunnelWarden.Import.Quoted
import TunnelWarden.Import.Tree
import TunnelWarden.Import.Words
import TunnelWarden.Lifecycle.Applied
import TunnelWarden.Lifecycle.Chain
import TunnelWarden.Lifecycle.Generations
import TunnelWarden.Lifecycle.Journal
import TunnelWarden.Lifecycle.Listening
import TunnelWarden.Lifecycle.Runtime
import TunnelWarden.Lifecycle.Stop
import TunnelWarden.Manager.Approval
import TunnelWarden.Manager.Checks
import TunnelWarden.Manager.KnownKeys
import TunnelWarden.Manager.Prompts
import TunnelWarden.Manager.Recount
import TunnelWarden.Manager.Rollout
import TunnelWarden.Manager.Stop
import TunnelWarden.Manager.Stored
import TunnelWarden.Manager.Trusted
import TunnelWarden.Manager.UpToDate
import TunnelWarden.Manager.Verdict
import TunnelWarden.Ssh.Build
import TunnelWarden.Ssh.Model.Remote
import TunnelWarden.Ssh.Remote
import TunnelWarden.Ssh.Secrets
import TunnelWarden.Ssh.Strict
import TunnelWarden.Ssh.Transports
import TunnelWarden.Store.Backups
import TunnelWarden.Store.Normal
import TunnelWarden.Store.Recover
import TunnelWarden.Supervisor.Blocked
import TunnelWarden.Supervisor.Delay
import TunnelWarden.Supervisor.Health
import TunnelWarden.Supervisor.Model.Delay
import TunnelWarden.Supervisor.Port
import TunnelWarden.Supervisor.SamePolicy
import TunnelWarden.Supervisor.Schedule
import TunnelWarden.Supervisor.Told
