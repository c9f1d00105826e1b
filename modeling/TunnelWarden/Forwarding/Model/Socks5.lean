import TunnelWarden.Common.Io
import TunnelWarden.Common.Net
import TunnelWarden.Common.Wire

/-!
# The SOCKS5 front end

`Socks5Frontend` of the `forwarding` crate: the greeting, the choice of
a method, and the request for a connection, read from a stream whose
writes succeed. Every refusal after the choice but the end of the stream
is answered with a reply.
-/

namespace TunnelWarden

namespace Socks5

def version : UInt8 := 5
def connect : UInt8 := 1
def noAuth : UInt8 := 0

inductive Destination where
  | ip (address : SocketAddr)
  | domain (host : String) (port : ℕ)
  deriving DecidableEq, Repr

/-- `Destination::host`. -/
def Destination.host : Destination → String
  | .ip address => address.ip.display
  | .domain host _ => host

/-- `Destination::port`. -/
def Destination.port : Destination → ℕ
  | .ip address => address.port
  | .domain _ port => port

structure SocksConnectRequest where
  destination : Destination
  deriving DecidableEq, Repr

inductive SocksReply where
  | succeeded
  | generalFailure
  | notAllowed
  | networkUnreachable
  | hostUnreachable
  | connectionRefused
  | ttlExpired
  | commandNotSupported
  | addressTypeNotSupported
  deriving DecidableEq, Repr

/-- The code of a reply. -/
def SocksReply.code : SocksReply → UInt8
  | .succeeded => 0
  | .generalFailure => 1
  | .notAllowed => 2
  | .networkUnreachable => 3
  | .hostUnreachable => 4
  | .connectionRefused => 5
  | .ttlExpired => 6
  | .commandNotSupported => 7
  | .addressTypeNotSupported => 8

inductive SocksError where
  | io (source : IoError)
  | noAcceptedMethod
  | invalidRequest (what : String)
  deriving DecidableEq, Repr

/-- The bytes of a reply. -/
def SocksReply.bytes (reply : SocksReply) : List UInt8 :=
  [version, reply.code, 0, 1, 0, 0, 0, 0, 0, 0]

/-- `Socks5Frontend::reply`. -/
def reply (r : SocksReply) : Wire SocksError Unit := Wire.writeAll r.bytes

/-- A reply, and the error it stands for. -/
def refuse {α : Type} (r : SocksReply) (what : String) : Wire SocksError α := do
  reply r
  Wire.fail (.invalidRequest what)

/-- `read_exact`, with the error of a stream that has ended. -/
def read (n : ℕ) : Wire SocksError (List UInt8) :=
  Wire.readExact (.io ⟨.other, "early eof"⟩) n

/-- `u16::from_be_bytes`. -/
def fromBeBytes (hi lo : UInt8) : ℕ := hi.toNat * 256 + lo.toNat

/-- `read_port`. -/
def readPort : Wire SocksError ℕ := do
  let bytes ← read 2
  return fromBeBytes (bytes.getD 0 0) (bytes.getD 1 0)

/-- `Ipv4Addr::from`. -/
def ipv4From (octets : List UInt8) : IpAddr :=
  .v4 (octets.getD 0 0).toNat (octets.getD 1 0).toNat (octets.getD 2 0).toNat
    (octets.getD 3 0).toNat

/-- The segments of an IPv6 address, two octets each. -/
def segments : List UInt8 → List ℕ
  | hi :: lo :: rest => fromBeBytes hi lo :: segments rest
  | _ => []

/-- `Ipv6Addr::from`. -/
def ipv6From (octets : List UInt8) : IpAddr := .v6 (segments octets)

/-- `str::from_utf8`. -/
def fromUtf8 (bytes : List UInt8) : Option String := String.fromUTF8? ⟨bytes.toArray⟩

/-- The address of a request, by its type, and the port behind it. -/
def readDestination (addressType : UInt8) : Wire SocksError Destination :=
  if addressType = 1 then do
    let address ← read 4
    let port ← readPort
    return .ip { ip := ipv4From address, port }
  else if addressType = 3 then do
    let length ← read 1
    if length.getD 0 0 = 0 then refuse .addressTypeNotSupported "empty domain"
    else
      let bytes ← read (length.getD 0 0).toNat
      match fromUtf8 bytes with
      | none => refuse .addressTypeNotSupported "domain is not UTF-8"
      | some host =>
        let port ← readPort
        return .domain host port
  else if addressType = 4 then do
    let address ← read 16
    let port ← readPort
    return .ip { ip := ipv6From address, port }
  else refuse .addressTypeNotSupported "unsupported address type"

/-- The request, once the method is chosen. -/
def readRequest : Wire SocksError SocksConnectRequest := do
  let header ← read 4
  if header.getD 0 0 ≠ version ∨ header.getD 2 0 ≠ 0 then
    refuse .generalFailure "invalid request header"
  else if header.getD 1 0 ≠ connect then
    refuse .commandNotSupported "only CONNECT is supported"
  else
    let destination ← readDestination (header.getD 3 0)
    if destination.port = 0 then refuse .generalFailure "port is zero"
    else return ⟨destination⟩

/-- `Socks5Frontend::read_connect`. -/
def readConnect : Wire SocksError SocksConnectRequest := do
  let greeting ← read 2
  if greeting.getD 0 0 ≠ version ∨ greeting.getD 1 0 = 0 then
    Wire.fail (.invalidRequest "invalid greeting")
  else
    let methods ← read (greeting.getD 1 0).toNat
    if noAuth ∉ methods then
      Wire.writeAll [version, 0xff]
      Wire.fail .noAcceptedMethod
    else
      Wire.writeAll [version, noAuth]
      readRequest

end Socks5

end TunnelWarden
