import TunnelWarden.Common.Io
import TunnelWarden.Domain.Model

/-!
# Errors of the SSH engine, and which of them may be retried

The errors a connection attempt can end with, their texts, and
`summary`, which sorts them by kind, stage and whether trying again can
help. The errors of the `russh` crate are the cases the program tells
apart, with their texts.
-/

namespace TunnelWarden

namespace Ssh

inductive ChannelOpenFailure where
  | administrativelyProhibited
  | connectFailed
  | unknownChannelType
  | resourceShortage
  | unknown
  deriving DecidableEq, Repr

inductive RusshErrorKind where
  | requestDenied
  | channelOpenFailure (reason : ChannelOpenFailure)
  | other
  deriving DecidableEq, Repr

/-- `russh::Error`: the cases told apart, and its text. -/
structure RusshError where
  kind : RusshErrorKind
  text : String
  deriving DecidableEq, Repr

def maxKnownHostsBytes : ℕ := 1024 * 1024

inductive HostKeyError where
  | protocol (source : RusshError)
  | unknown (host : String) (port : ℕ) (fingerprint : String)
  | declined (host : String) (port : ℕ)
  | approvalUnavailable (host : String) (port : ℕ)
  | changed (host : String) (port : ℕ) (path : PathBuf) (line : ℕ)
  | unsupportedCertificate (host : String) (port : ℕ)
  | knownHostsIo (path : PathBuf) (source : IoError)
  | knownHostsTooLarge (path : PathBuf)
  | invalidKnownHosts (path : PathBuf) (source : String)
  deriving DecidableEq, Repr

/-- The text of a host-key error. -/
def HostKeyError.display : HostKeyError → String
  | .protocol source => source.text
  | .unknown host port fingerprint =>
    "host key for " ++ host ++ ":" ++ digits 10 port ++ " is unknown (" ++ fingerprint ++ ")"
  | .declined host port =>
    "host key confirmation was cancelled for " ++ host ++ ":" ++ digits 10 port
  | .approvalUnavailable host port =>
    "host key confirmation queue is full or closed for " ++ host ++ ":" ++ digits 10 port
  | .changed host port path line =>
    "host key changed for " ++ host ++ ":" ++ digits 10 port ++ " in " ++ path.display ++
      ", line " ++ digits 10 line
  | .unsupportedCertificate host port =>
    "SSH host certificates are not supported yet for " ++ host ++ ":" ++ digits 10 port
  | .knownHostsIo path source => "cannot read known_hosts at " ++ path.display ++ ": " ++ source.text
  | .knownHostsTooLarge path =>
    "known_hosts at " ++ path.display ++ " exceeds " ++ digits 10 maxKnownHostsBytes ++ " bytes"
  | .invalidKnownHosts path source => "invalid known_hosts at " ++ path.display ++ ": " ++ source

inductive SshConnectError where
  | invalidConfig (what : String)
  | cancelled
  | timeout (during : String)
  | tcp (source : IoError)
  | handshake (source : HostKeyError)
  | authentication (source : RusshError)
  | authenticationRejected
  | privateKeyTooLarge
  | privateKeyIo (source : IoError)
  | privateKeyDecode (source : String)
  | agent (source : String)
  | agentAuthentication (source : String)
  | noAgentIdentities
  | session (source : RusshError)
  | channelOpen (source : RusshError)
  | remoteForward (source : RusshError)
  deriving DecidableEq, Repr

/-- The text of a connection error. -/
def SshConnectError.display : SshConnectError → String
  | .invalidConfig what => "invalid SSH configuration: " ++ what
  | .cancelled => "SSH connection cancelled"
  | .timeout during => "SSH connection timed out during " ++ during
  | .tcp source => "TCP connection failed: " ++ source.text
  | .handshake source => "SSH handshake failed: " ++ source.display
  | .authentication source => "SSH authentication failed: " ++ source.text
  | .authenticationRejected => "SSH credentials were rejected"
  | .privateKeyTooLarge => "private key file is too large"
  | .privateKeyIo source => "cannot read private key: " ++ source.text
  | .privateKeyDecode source => "cannot decode private key: " ++ source
  | .agent source => "SSH agent failed: " ++ source
  | .agentAuthentication source => "SSH agent authentication failed: " ++ source
  | .noAgentIdentities => "SSH agent has no usable identities"
  | .session source => "SSH session operation failed: " ++ source.text
  | .channelOpen source => "SSH direct-tcpip channel failed: " ++ source.text
  | .remoteForward source => "SSH remote forwarding request failed: " ++ source.text

/-- Kind, stage and retryability of a connection error. -/
def SshConnectError.classify : SshConnectError → TunnelErrorKind × FailureStage × Retryability
  | .invalidConfig _ => (.invalidConfig, .configValidation, .blocked)
  | .cancelled => (.cancelled, .shutdown, .blocked)
  | .timeout during =>
    if during = "TCP connect" then (.timeout, .connectTcp, .transient)
    else if during = "authentication" then (.timeout, .authentication, .transient)
    else if during = "SSH ping" then (.timeout, .healthCheck, .transient)
    else if during = "SSH shutdown" then (.timeout, .shutdown, .transient)
    else (.timeout, .sshHandshake, .transient)
  | .tcp _ => (.network, .connectTcp, .transient)
  | .handshake (.unknown ..) | .handshake (.declined ..) | .handshake (.approvalUnavailable ..) =>
    (.hostKeyUnknown, .hostKeyVerification, .blocked)
  | .handshake (.changed ..) => (.hostKeyMismatch, .hostKeyVerification, .blocked)
  | .handshake (.unsupportedCertificate ..) | .handshake (.knownHostsIo ..)
  | .handshake (.knownHostsTooLarge _) | .handshake (.invalidKnownHosts ..) =>
    (.invalidConfig, .hostKeyVerification, .blocked)
  | .handshake (.protocol _) => (.network, .sshHandshake, .transient)
  | .authenticationRejected => (.authentication, .authentication, .blocked)
  | .authentication _ => (.network, .authentication, .transient)
  | .privateKeyTooLarge | .privateKeyIo _ | .privateKeyDecode _ =>
    (.invalidConfig, .authentication, .blocked)
  | .agent _ | .agentAuthentication _ => (.authentication, .authentication, .transient)
  | .noAgentIdentities => (.authentication, .authentication, .blocked)
  | .session _ => (.network, .healthCheck, .transient)
  | .remoteForward source =>
    if source.kind = .requestDenied then (.remoteForwardRejected, .registerForward, .blocked)
    else (.network, .relay, .transient)
  | .channelOpen _ => (.network, .relay, .transient)

/-- `SshConnectError::summary`. -/
def SshConnectError.summary (e : SshConnectError) : TunnelError :=
  { kind := e.classify.1, stage := e.classify.2.1, message := takeChars 512 e.display,
    retryability := e.classify.2.2 }

inductive SshChainError where
  | empty
  | tooManyHops
  | hop (hop : ℕ) (source : SshConnectError)
  | credential (hop : ℕ) (reason : String)
  deriving DecidableEq, Repr

/-- The text of a chain error. -/
def SshChainError.display : SshChainError → String
  | .empty => "jump chain is empty"
  | .tooManyHops => "jump chain exceeds 16 hosts"
  | .hop k source => "SSH hop " ++ digits 10 k ++ " failed: " ++ source.display
  | .credential k reason =>
    "credential for SSH hop " ++ digits 10 k ++ " unavailable: " ++ reason

end Ssh

/-- `chain_retryability`. -/
def chainRetryability : Ssh.SshChainError → Retryability
  | .empty | .tooManyHops | .credential .. => .blocked
  | .hop _ source => source.summary.retryability

end TunnelWarden
