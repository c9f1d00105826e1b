import TunnelWarden.Common.NetRead
import TunnelWarden.Domain.Valid
import TunnelWarden.Manager.Bookkeeping

/-!
# The address a tunnel listens at

`validate` reads the local host as an IP address; `start` puts host and
port together and reads the text as a socket address. For an IPv4 host
the two agree. The text of an IPv6 host lacks the brackets a socket
address needs, so a tunnel that is validated is blocked at its start.
-/

namespace TunnelWarden

namespace Manager

variable {t : TunnelConfig}

/-- The text `start` makes the listener's address of. -/
def listenerText (t : TunnelConfig) : String :=
  t.localEnd.host ++ ":" ++ digits 10 t.localEnd.port

/-- The reason a tunnel is blocked for where there is no such address. -/
def invalidListener : String := "Invalid listener address: invalid socket address syntax"

theorem toList_listenerText :
    (listenerText t).toList = t.localEnd.host.toList ++ ':' :: Nat.toDigits 10 t.localEnd.port := by
  simp [listenerText, digits, String.toList_append]

/-! ## IPv4 -/

theorem readIpv4_of_parse {s : String} {a b c d : ℕ} (h : IpAddr.parse s = some (.v4 a b c d)) :
    readIpv4 s.toList = some ((a, b, c, d), []) := by
  unfold IpAddr.parse parseAll readIp at h
  rcases hv4 : readIpv4 s.toList with _ | ⟨⟨o₀, o₁, o₂, o₃⟩, rest⟩
  · rw [hv4] at h
    rcases hv6 : readIpv6 s.toList with _ | ⟨segments, rest⟩
    · simp [hv6] at h
    · cases rest <;> simp [hv6] at h
  · rw [hv4] at h
    cases rest with
    | nil => simpa using h
    | cons c cs => simp at h

/-- **An IPv4 host and a port make the socket address.** -/
theorem parse_listenerText_v4 {a b c d : ℕ} (hport : t.localEnd.port < 65536)
    (h : IpAddr.parse t.localEnd.host = some (.v4 a b c d)) :
    SocketAddr.parse (listenerText t) = some ⟨.v4 a b c d, t.localEnd.port, 0⟩ := by
  have hstops : StopsDigits 10 (':' :: Nat.toDigits 10 t.localEnd.port) := by
    intro x xs hx
    rw [← (List.cons.inj hx).1]
    decide
  have hread := readIpv4_extends hstops _ _ _ (readIpv4_of_parse h)
  have hsocket : readSocketV4 (listenerText t).toList =
      some (⟨.v4 a b c d, t.localEnd.port, 0⟩, []) := by
    rw [toList_listenerText]
    simp [readSocketV4, hread, readPort_digits hport]
  simp [SocketAddr.parse, parseAll, hsocket]

/-! ## IPv6 -/

/-- An IPv6 address does not start with a bracket. -/
theorem head_of_parse_v6 {s : String} {segments : List ℕ}
    (h : IpAddr.parse s = some (.v6 segments)) : ∃ c cs, s.toList = c :: cs ∧ c ≠ '[' := by
  unfold IpAddr.parse parseAll at h
  cases hs : s.toList with
  | nil => simp [hs, show readIp [] = none from rfl] at h
  | cons c cs =>
      refine ⟨c, cs, rfl, ?_⟩
      rintro rfl
      have hnone : readIp ('[' :: cs) = none := rfl
      simp [hs, hnone] at h

/-- What is read from a text without a bracket is no IPv6 address. -/
theorem parse_listenerText_ne_v6 {segments : List ℕ} {port scope : ℕ}
    (h : ∃ c cs, t.localEnd.host.toList = c :: cs ∧ c ≠ '[') :
    SocketAddr.parse (listenerText t) ≠ some ⟨.v6 segments, port, scope⟩ := by
  obtain ⟨c, cs, hhost, hc⟩ := h
  have hv6 : readSocketV6 (listenerText t).toList = none := by
    rw [toList_listenerText, hhost]
    simp [readSocketV6, readGivenChar, hc]
  unfold SocketAddr.parse parseAll
  dsimp only
  rw [hv6, Option.or_none]
  intro hparse
  rcases hv4 : readSocketV4 (listenerText t).toList with _ | ⟨address, _ | ⟨x, xs⟩⟩
  · simp [hv4] at hparse
  · rw [hv4] at hparse
    obtain rfl : address = ⟨.v6 segments, port, scope⟩ := by simpa using hparse
    unfold readSocketV4 at hv4
    simp only [Option.bind_eq_bind, Option.bind_eq_some_iff] at hv4
    obtain ⟨⟨⟨o₀, o₁, o₂, o₃⟩, cs₀⟩, -, ⟨port', cs₁⟩, -, hend⟩ := hv4
    simp at hend
  · simp [hv4] at hparse

/-! ## The start -/

/-- The errors of a listener begin with a small letter, unlike the
manager's own. -/
theorem display_head {error : Lifecycle.ListenerRuntimeError} {first : Char}
    (h : error.display.toList.head? = some first) : first.isLower = true := by
  cases error with
  | state error =>
      cases error <;> simp only [Lifecycle.ListenerRuntimeError.display,
        Lifecycle.MachineError.display, String.toList_append] at h <;>
        obtain rfl := Option.some.inj h <;> decide
  | bind address source =>
      simp only [Lifecycle.ListenerRuntimeError.display, String.toList_append] at h
      obtain rfl := Option.some.inj h
      decide

theorem display_ne {text : String} {first : Char} (hfirst : text.toList.head? = some first)
    (hupper : first.isLower = false) (error : Lifecycle.ListenerRuntimeError) :
    error.display ≠ text := by
  rintro rfl
  rw [display_head hfirst] at hupper
  simp at hupper

theorem acquire_ne_invalidListener {env : Env} {address : SocketAddr}
    (h : SocketAddr.parse (listenerText t) = some address) :
    World.acquire env t ≠ .error invalidListener := by
  unfold World.acquire
  split
  · simp
  · rw [show SocketAddr.parse (t.localEnd.host ++ ":" ++ digits 10 t.localEnd.port) = some address
      from h]
    dsimp only
    split
    · rename_i error _ _
      exact fun heq => display_ne rfl (by decide) error (Except.error.inj heq)
    · split
      · decide
      · split
        · decide
        · simp

/-- **When a validated tunnel can listen where it is told to.** The
address `start` reads has the configured IP and port, and the start is
not blocked for it, exactly where the host is no IPv6 address. -/
theorem listensAsConfigured_iff (t : TunnelConfig) (hosts : List SshHost)
    (groups : List TunnelGroup) (hvalid : t.validate hosts groups = .ok ())
    (hmode : t.mode ≠ .remote) (hport : t.localEnd.port < 2 ^ 16) :
    ((∃ ip, IpAddr.parse t.localEnd.host = some ip ∧
        SocketAddr.parse (listenerText t) = some ⟨ip, t.localEnd.port, 0⟩) ∧
      ∀ env, World.acquire env t ≠ .error invalidListener) ↔
    ∀ segments, IpAddr.parse t.localEnd.host ≠ some (.v6 segments) := by
  constructor
  · rintro ⟨⟨ip, hip, hsocket⟩, -⟩ segments hv6
    obtain rfl : ip = .v6 segments := Option.some.inj (hip.symm.trans hv6)
    exact parse_listenerText_ne_v6 (head_of_parse_v6 hv6) hsocket
  · intro hno
    have hparses := (TunnelConfig.validate_iff.1 hvalid).bindAddress hmode
    obtain ⟨ip, hip⟩ := Option.ne_none_iff_exists'.1 hparses
    cases ip with
    | v6 segments => exact absurd hip (hno segments)
    | v4 a b c d =>
        have hsocket := parse_listenerText_v4 hport hip
        exact ⟨⟨_, hip, hsocket⟩, fun env => acquire_ne_invalidListener hsocket⟩

theorem listensAsConfigured_iff_socksTunnel :
    ((∃ ip, IpAddr.parse socksTunnel.localEnd.host = some ip ∧
        SocketAddr.parse (listenerText socksTunnel) = some ⟨ip, socksTunnel.localEnd.port, 0⟩) ∧
      ∀ env, World.acquire env socksTunnel ≠ .error invalidListener) ↔
    ∀ segments, IpAddr.parse socksTunnel.localEnd.host ≠ some (.v6 segments) :=
  listensAsConfigured_iff socksTunnel [labHost] [] (by decide +kernel) (by decide) (by decide)

/-- The same tunnel at the IPv6 loopback address. -/
def loopbackTunnel : TunnelConfig := { socksTunnel with localEnd := ⟨"::1", 1080⟩ }

/-- **A validated IPv6 listener is blocked at its start.** -/
theorem loopbackTunnel_blocked :
    loopbackTunnel.validate [labHost] [] = .ok () ∧ loopbackTunnel.mode ≠ .remote ∧
      World.acquire calm loopbackTunnel = .error invalidListener ∧
      ¬ ∃ ip, IpAddr.parse loopbackTunnel.localEnd.host = some ip ∧
        SocketAddr.parse (listenerText loopbackTunnel) = some ⟨ip, loopbackTunnel.localEnd.port, 0⟩ := by
  have hnone : SocketAddr.parse (listenerText loopbackTunnel) = none := by decide +kernel
  refine ⟨by decide +kernel, by decide, by decide +kernel, ?_⟩
  rintro ⟨ip, -, hsocket⟩
  simp [hnone] at hsocket

end Manager

end TunnelWarden
