import TunnelWarden.Manager.Address
import TunnelWarden.Manager.Model.Hops
import TunnelWarden.Store.Accepted
import TunnelWarden.Supervisor.Model.Worker

/-!
# An accepted configuration passes the later checks

The schema, the manager, the chain and the session each check the
configuration again, in their own words. What `into_domain` accepts
passes the checks of all of them.
-/

namespace TunnelWarden

namespace Manager

open Ssh

variable {home : Option PathBuf} {document : ConfigDocument} {c : DomainConfig}
variable {t : TunnelConfig} {hosts : List SshHost}

/-! ## The manager is set up -/

/-- The loop over the tunnels ends well where their identifiers are
distinct. -/
theorem define_ok {tunnels : List TunnelConfig} {definitions : Map TunnelId TunnelConfig}
    {current : ManagerSnapshot} {autoStart : List TunnelId}
    (hnodup : (tunnels.map TunnelConfig.id).Nodup) (hfresh : ∀ t ∈ tunnels, t.id ∉ definitions) :
    ∃ acc, define tunnels (definitions, current, autoStart) = .ok acc := by
  induction tunnels generalizing definitions current autoStart with
  | nil => exact ⟨_, rfl⟩
  | cons t rest ih =>
      obtain ⟨hnot, hrest⟩ := List.nodup_cons.1 hnodup
      unfold define
      rw [if_neg (hfresh t List.mem_cons_self)]
      refine ih hrest fun t' ht' hmem => ?_
      -- a later tunnel is not the one just added, nor one added before
      rcases (AList.mem_insert _).1 hmem with heq | hmem
      · exact hnot (List.mem_map.2 ⟨t', ht', heq⟩)
      · exact hfresh t' (List.mem_cons_of_mem _ ht') hmem

theorem new_of_accepted (h : document.Accepted home c) (order : ℕ) :
    ∃ w, new order c.hosts c.groups c.tunnels = .ok w := by
  have hlen : c.tunnels.length ≤ maxTunnels := by
    rw [← h.tunnels.length_eq]
    exact h.tunnelCount
  have hnodup : (c.tunnels.map TunnelConfig.id).Nodup := h.nodup_tunnels
  have hfresh : ∀ t ∈ c.tunnels, t.id ∉ (∅ : Map TunnelId TunnelConfig) :=
    fun _ _ => AList.notMem_empty _
  obtain ⟨acc, hdefine⟩ : ∃ acc, define c.tunnels (∅, ∅, []) = .ok acc := define_ok hnodup hfresh
  unfold new
  rw [if_neg (by omega), hdefine]
  exact ⟨_, rfl⟩

/-! ## The chain is resolved -/

/-- A hop that names one host finds it. -/
theorem findHost_of_filter {hop : HostId} {host : SshHost}
    (h : (hosts.filter fun h => h.id = hop) = [host]) : findHost hosts hop = some host := by
  unfold findHost
  rw [← List.head?_filter, h]
  rfl

/-- **Each hop has its one host.** -/
theorem resolve_chain {chain : List HostId} (h : ∀ hop ∈ chain, TunnelConfig.Resolves hosts hop) :
    ∃ found, chain.mapM (findHost hosts) = some found ∧
      List.Forall₂ (fun hop host => (hosts.filter fun h => h.id = hop) = [host]) chain found := by
  induction chain with
  | nil => exact ⟨[], rfl, .nil⟩
  | cons hop rest ih =>
      obtain ⟨host, hhost⟩ := List.length_eq_one_iff.1 (h hop List.mem_cons_self)
      obtain ⟨found, hfound, hall⟩ := ih fun x hx => h x (List.mem_cons_of_mem _ hx)
      refine ⟨host :: found, ?_, .cons hhost hall⟩
      rw [List.mapM_cons, findHost_of_filter hhost, hfound]
      rfl

/-! ## The hops are accepted by the engine -/

theorem ne_empty_of_not_blank {s : String} (h : TunnelConfig.blank s = false) : s ≠ "" := by
  rintro rfl
  revert h
  decide

/-- A credential of `build_hops` is of the kind its host asks for. -/
theorem checkMethod_of_hopCredential {load : SecretRef → Except String String} {hop : ℕ}
    {auth : AuthConfig} {credential : SshCredential}
    (h : hopCredential load hop auth = .ok credential) : checkMethod auth credential = .ok () := by
  cases auth with
  | agent socket =>
      obtain rfl := Except.ok.inj h
      rfl
  | keyboardInteractive => simp [hopCredential] at h
  | password reference =>
      obtain ⟨secret, -, h⟩ := bind_eq_ok.1 h
      obtain rfl := Except.ok.inj h
      rfl
  | privateKey path reference =>
      cases reference with
      | none =>
          obtain rfl := Except.ok.inj h
          rfl
      | some reference =>
          obtain ⟨secret, -, h⟩ := bind_eq_ok.1 h
          obtain rfl := Except.ok.inj h
          rfl

/-- The secret an authentication needs. -/
def secretOf : AuthConfig → Option SecretRef
  | .password reference => some reference
  | .privateKey _ reference => reference
  | _ => none

/-- The store has every secret the hosts need. -/
def SecretsLoad (load : SecretRef → Except String String) (hosts : List SshHost) : Prop :=
  ∀ host ∈ hosts, ∀ reference, secretOf host.auth = some reference →
    ∃ secret, load reference = .ok secret

theorem hopCredential_ok {load : SecretRef → Except String String} {auth : AuthConfig} (hop : ℕ)
    (hauth : auth ≠ .keyboardInteractive)
    (hload : ∀ reference, secretOf auth = some reference → ∃ secret, load reference = .ok secret) :
    ∃ credential, hopCredential load hop auth = .ok credential := by
  have hsecret {reference : SecretRef} (h : secretOf auth = some reference) :
      ∃ secret, loadSecret load reference hop = .ok secret := by
    obtain ⟨secret, hs⟩ := hload reference h
    exact ⟨secret, by rw [loadSecret, hs]; rfl⟩
  cases auth with
  | agent socket => exact ⟨_, rfl⟩
  | keyboardInteractive => exact absurd rfl hauth
  | password reference =>
      obtain ⟨secret, hs⟩ := hsecret rfl
      exact ⟨.password secret, by rw [hopCredential, hs]; rfl⟩
  | privateKey path reference =>
      cases reference with
      | none => exact ⟨_, rfl⟩
      | some reference =>
          obtain ⟨secret, hs⟩ := hsecret rfl
          exact ⟨.privateKey (some secret), by rw [hopCredential, hs]; rfl⟩

/-- A host the schema accepts has what the engine asks for. -/
theorem validate_of_accepted (h : document.Accepted home c) {host : SshHost} (hmem : host ∈ c.hosts)
    {credential : SshCredential} (hmethod : checkMethod host.auth credential = .ok ())
    {paths : List PathBuf} (hpaths : paths.length ≤ maxKnownHostsPaths) :
    validate host credential paths = .ok () := by
  obtain ⟨r, -, hr⟩ := exists_of_mem_forall₂ h.hosts hmem
  obtain ⟨hfilled, a, -, rfl⟩ := HostRecord.intoDomain_eq_ok.1 hr
  have htimeout : (r.host a).connectTimeout ≠ 0 :=
    Nat.mul_ne_zero hfilled.connectTimeout (by decide)
  unfold validate
  simp only [throw_bind, ite_error_eq_ok, bind_eq_ok]
  refine ⟨(), hmethod, ?_, ?_, hfilled.port, htimeout, ?_⟩
  · simp [HostRecord.host, hfilled.hostname]
  · simp [HostRecord.host, hfilled.username]
  · rw [if_neg (by omega)]
    rfl

theorem knownHosts_length (userHome appKnownHosts : Option PathBuf) :
    (knownHosts userHome appKnownHosts).length ≤ maxKnownHostsPaths := by
  cases userHome <;> cases appKnownHosts <;> simp [knownHosts, maxKnownHostsPaths]

/-- **The hops are built, and the engine accepts each of them.** -/
theorem buildHops_of_accepted (h : document.Accepted home c)
    {load : SecretRef → Except String String} {paths : List PathBuf}
    (hpaths : paths.length ≤ maxKnownHostsPaths) (hhosts : ∀ host ∈ hosts, host ∈ c.hosts)
    (hauth : ∀ host ∈ hosts, host.auth ≠ .keyboardInteractive) (hload : SecretsLoad load hosts)
    (first : ℕ) :
    ∃ hops, buildHops load paths first hosts = .ok hops ∧ hops.map HopSpec.host = hosts ∧
      ∀ hop ∈ hops, validate hop.host hop.credential hop.knownHostsPaths = .ok () := by
  induction hosts generalizing first with
  | nil => exact ⟨[], rfl, rfl, by simp⟩
  | cons host rest ih =>
      obtain ⟨hhost, hrest⟩ := List.forall_mem_cons.1 hhosts
      obtain ⟨hkind, hkinds⟩ := List.forall_mem_cons.1 hauth
      obtain ⟨hsecret, hsecrets⟩ := List.forall_mem_cons.1 hload
      obtain ⟨credential, hcredential⟩ := hopCredential_ok first hkind hsecret
      obtain ⟨hops, hbuilt, hmap, hall⟩ := ih hrest hkinds hsecrets (first + 1)
      have hvalid := validate_of_accepted h hhost (checkMethod_of_hopCredential hcredential) hpaths
      refine ⟨⟨host, credential, paths⟩ :: hops, ?_, ?_, ?_⟩
      · rw [buildHops, hcredential, hbuilt]
        rfl
      · rw [List.map_cons, hmap]
      · exact List.forall_mem_cons.2 ⟨hvalid, hall⟩

/-! ## The ends of a tunnel -/

/-- The far end `validate` accepts for a mode that has one. -/
theorem remote_of_valid {groups : List TunnelGroup} (h : t.Valid hosts groups)
    (hmode : t.mode ≠ .dynamic) :
    ∃ remote, t.remote = some remote ∧ remote.host ≠ "" ∧ byteLen remote.host ≤ 255 ∧
      (t.mode = .local → remote.port ≠ 0) := by
  rcases TunnelConfig.checkRemote_ok_iff.1 h.remote with ⟨hdynamic, -⟩ |
    ⟨-, remote, hsome, hhost, hlen, hport, -⟩
  · exact absurd hdynamic hmode
  · refine ⟨remote, hsome, ne_empty_of_not_blank hhost, hlen, fun hlocal => ?_⟩
    rcases hport with hport | hport
    · exact hport
    · rw [hlocal] at hport
      simp at hport

theorem checkDestination_ok {host : String} {port : ℕ} :
    checkDestination host port = .ok () ↔ host ≠ "" ∧ byteLen host ≤ 255 ∧ port ≠ 0 := by
  unfold checkDestination
  rw [ite_error_eq_ok]
  simp only [not_or, Nat.not_lt, and_true, ne_eq]

theorem validTarget_of_valid {groups : List TunnelGroup} (h : t.Valid hosts groups) :
    validTarget t.localEnd = true := by
  simp [validTarget, ne_empty_of_not_blank h.localHost, h.localLength, h.localPort]

/-! ## The last session -/

theorem connectHop_ok {net : Net} {number : ℕ} {hop : HopSpec} {remote : Option RemoteEndpoint}
    {session : Session} (h : SshChain.connectHop net number hop remote = .ok session) :
    session = ⟨remote, none⟩ := by
  have hok := mapError_eq_ok.1 h
  simp only [bind_eq_ok] at hok
  obtain ⟨-, -, -, -, hsession⟩ := hok
  exact (Except.ok.inj hsession).symm

theorem connectRest_last {net : Net} {total : ℕ} {remote : Option RemoteEndpoint} {number : ℕ}
    {hops : List HopSpec} {sessions : List Session} (hne : hops ≠ [])
    (htotal : number + hops.length = total + 1)
    (h : SshChain.connectRest net total remote number hops = .ok sessions) :
    sessions.getLast? = some ⟨remote, none⟩ := by
  induction hops generalizing number sessions with
  | nil => exact absurd rfl hne
  | cons hop rest ih =>
      simp only [SshChain.connectRest, bind_eq_ok] at h
      obtain ⟨-, -, session, hsession, others, hothers, hlist⟩ := h
      obtain rfl := Except.ok.inj hlist
      -- the forward goes to the hop whose number is the length of the chain
      cases rest with
      | nil =>
          obtain rfl := Except.ok.inj hothers
          rw [List.length_singleton] at htotal
          rw [connectHop_ok hsession, if_pos (by omega)]
          rfl
      | cons next more =>
          have hlast := ih (by simp) (by simp only [List.length_cons] at htotal ⊢; omega) hothers
          rw [List.getLast?_cons, hlast]
          rfl

/-- **The last session is the one with the forward.** -/
theorem connectWithApproval_last {net : Net} {hops : List HopSpec} {remote : Option RemoteEndpoint}
    {sessions : List Session} (h : SshChain.connectWithApproval net hops remote = .ok sessions) :
    sessions.getLast? = some ⟨remote, none⟩ := by
  cases hops with
  | nil => simp [SshChain.connectWithApproval] at h
  | cons first rest =>
      simp only [SshChain.connectWithApproval, ite_error_eq_ok, bind_eq_ok] at h
      obtain ⟨-, session, hsession, others, hothers, hlist⟩ := h
      obtain rfl := Except.ok.inj hlist
      cases rest with
      | nil =>
          obtain rfl := Except.ok.inj hothers
          rw [connectHop_ok hsession]
          rfl
      | cons next more =>
          have hlast := connectRest_last (by simp) (by simp only [List.length_cons]; omega) hothers
          rw [List.getLast?_cons, hlast]
          rfl

/-! ## The start -/

def unknownJumpHost : String := "Unknown jump host"
def remoteMissing : String := "Remote target is missing"

/-- A start of a tunnel with a far end is blocked for its listener only. -/
theorem acquire_error {env : Env} {reason : String} (hremote : t.mode = .local → t.remote ≠ none)
    (h : World.acquire env t = .error reason) : reason ≠ unknownJumpHost ∧ reason ≠ remoteMissing := by
  unfold World.acquire at h
  split at h
  · simp at h
  split at h
  · obtain rfl := Except.error.inj h
    decide
  dsimp only at h
  split at h
  · rename_i error _ _
    obtain rfl := Except.error.inj h
    exact ⟨display_ne rfl (by decide) error, display_ne rfl (by decide) error⟩
  split at h
  · rename_i hmissing
    exact absurd hmissing.2 (hremote hmissing.1)
  split at h
  · obtain rfl := Except.error.inj h
    decide
  · simp at h

/-- What the manager asks of a tunnel when it is started, with the hosts
of its chain. -/
structure Startable (c : DomainConfig) (t : TunnelConfig) (hosts : List SshHost) : Prop where
  validated : t.validate c.hosts c.groups = .ok ()
  resolved : List.Forall₂ (fun hop host => (c.hosts.filter fun h => h.id = hop) = [host])
    t.jumpChain hosts
  nonempty : 1 ≤ hosts.length
  short : hosts.length ≤ maxHops
  /-- A start goes through, or is blocked by neither of the two checks. -/
  start : ∀ (w : World) (env : Env), w.hosts = c.hosts → w.groups = c.groups →
    w.tunnels.lookup t.id = some t → t.id ∉ w.active →
      (∃ reason, reason ≠ unknownJumpHost ∧ reason ≠ remoteMissing ∧
        w.start env t.id = w.setState t.id (.blocked reason) none) ∨
      ∃ localAddr, w.start env t.id =
        { (w.spawn t.id t hosts).setState t.id (.connecting 1) localAddr with
          active := w.active.insert t.id w.tasks.length }

/-- What the engine and the workers ask of a tunnel, with the hops of
its chain. -/
structure Connectable (t : TunnelConfig) (hosts : List SshHost) (hops : List HopSpec) : Prop where
  hosts : hops.map HopSpec.host = hosts
  validated : ∀ hop ∈ hops, validate hop.host hop.credential hop.knownHostsPaths = .ok ()
  destination : t.mode = .local → ∃ remote, t.remote = some remote ∧
    checkDestination remote.host remote.port = .ok ()
  target : t.mode = .remote → validTarget t.localEnd = true
  forward : t.mode = .remote → ∀ net sessions,
    SshChain.connectWithApproval net hops t.remote = .ok sessions →
      ∃ final binding, sessions.getLast? = some final ∧ final.checkForwarded = .ok binding ∧
        t.remote = some binding

theorem startable_of_valid (hvalid : t.Valid c.hosts c.groups) (hshort : t.jumpChain.length ≤ maxHops)
    (hfound : t.jumpChain.mapM (findHost c.hosts) = some hosts)
    (hall : List.Forall₂ (fun hop host => (c.hosts.filter fun h => h.id = hop) = [host])
      t.jumpChain hosts) : Startable c t hosts := by
  have hok := TunnelConfig.validate_iff.2 hvalid
  have hlen := hall.length_eq
  refine ⟨hok, hall, ?_, hlen ▸ hshort, fun w env hh hg ht hactive => ?_⟩
  · rw [← hlen]
    exact List.length_pos_iff.2 hvalid.chain
  · have hremote : t.mode = .local → t.remote ≠ none := by
      intro hlocal hnone
      obtain ⟨remote, hsome, -⟩ := remote_of_valid hvalid (by rw [hlocal]; decide)
      rw [hnone] at hsome
      simp at hsome
    unfold World.start
    rw [if_neg hactive, ht]
    dsimp only
    rw [hh, hg, hok]
    dsimp only
    rw [hfound]
    dsimp only
    cases hacquire : World.acquire env t with
    | error reason =>
        obtain ⟨hunknown, hmissing⟩ := acquire_error hremote hacquire
        exact .inl ⟨reason, hunknown, hmissing, rfl⟩
    | ok localAddr =>
        refine .inr ⟨localAddr, ?_⟩
        dsimp only
        rw [World.setState_active]
        rfl

theorem connectable_of_valid {groups : List TunnelGroup} {known : List SshHost}
    (hvalid : t.Valid known groups) {hops : List HopSpec} (hmap : hops.map HopSpec.host = hosts)
    (hall : ∀ hop ∈ hops, validate hop.host hop.credential hop.knownHostsPaths = .ok ()) :
    Connectable t hosts hops := by
  refine ⟨hmap, hall, fun hlocal => ?_, fun _ => validTarget_of_valid hvalid,
    fun hmode net sessions hsessions => ?_⟩
  · obtain ⟨remote, hsome, hhost, hlen, hport⟩ :=
      remote_of_valid hvalid (by rw [hlocal]; decide)
    exact ⟨remote, hsome, checkDestination_ok.2 ⟨hhost, hlen, hport hlocal⟩⟩
  · obtain ⟨remote, hsome, hhost, hlen, -⟩ := remote_of_valid hvalid (by rw [hmode]; decide)
    refine ⟨_, remote, connectWithApproval_last hsessions, ?_, hsome⟩
    rw [Session.checkForwarded, hsome]
    dsimp only
    rw [if_neg (by rw [not_or, Nat.not_lt]; exact ⟨hhost, hlen⟩)]

/-- **An accepted configuration passes the later checks**: the manager is
set up with it, each of its tunnels can be started, and where its hosts
need no prompt and their secrets load, the engine and the workers accept
what `build_hops` makes of it. -/
theorem accepted_passes (h : document.intoDomain home = .ok c) :
    (∀ order, ∃ w, new order c.hosts c.groups c.tunnels = .ok w) ∧
    ∀ t ∈ c.tunnels, ∃ hosts, Startable c t hosts ∧
      ∀ (load : SecretRef → Except String String) (userHome appKnownHosts : Option PathBuf),
        (∀ host ∈ hosts, host.auth ≠ .keyboardInteractive) → SecretsLoad load hosts →
          ∃ hops, buildHops load (knownHosts userHome appKnownHosts) 1 hosts = .ok hops ∧
            Connectable t hosts hops := by
  have haccepted := ConfigDocument.intoDomain_eq_ok.1 h
  refine ⟨new_of_accepted haccepted, fun t ht => ?_⟩
  obtain ⟨r, -, hr⟩ := exists_of_mem_forall₂ haccepted.tunnels ht
  obtain ⟨hrecord, hvalid⟩ := TunnelRecord.checked_eq_ok.1 hr
  have hshort : t.jumpChain.length ≤ maxHops := by
    obtain ⟨hlen, remote, -, rfl⟩ := TunnelRecord.intoDomain_eq_ok.1 hrecord
    rw [TunnelRecord.tunnel, List.length_map]
    exact hlen
  obtain ⟨hosts, hfound, hall⟩ := resolve_chain hvalid.resolves
  -- the hosts of the chain are hosts of the configuration, so the schema has checked them
  have hmem : ∀ host ∈ hosts, host ∈ c.hosts := by
    intro host hhost
    obtain ⟨hop, -, hfilter⟩ := exists_of_mem_forall₂ hall hhost
    exact List.mem_of_mem_filter (hfilter ▸ List.mem_singleton_self host)
  refine ⟨hosts, startable_of_valid hvalid hshort hfound hall,
    fun load userHome appKnownHosts hauth hload => ?_⟩
  obtain ⟨hops, hbuilt, hmap, hvalidated⟩ := buildHops_of_accepted haccepted
    (knownHosts_length userHome appKnownHosts) hmem hauth hload 1
  exact ⟨hops, hbuilt, connectable_of_valid hvalid hmap hvalidated⟩

/-- A host behind another, a tunnel to a database and one back. -/
def forwardsDocument : ConfigDocument where
  hosts := [
    { id := "gate", name := "Gate", hostname := "gate.example.test", port := 22, username := "operator",
      authType := .agent, credentialRef := none, identityFile := none, passphraseRef := none,
      agentSocket := none, hostKeyPolicy := .strict, connectTimeoutMs := 10000,
      keepaliveIntervalMs := 30000, keepaliveMax := 3, notes := "" },
    { id := "db", name := "Database", hostname := "10.0.0.5", port := 22, username := "operator",
      authType := .password, credentialRef := some "tw-db", identityFile := none,
      passphraseRef := none, agentSocket := none, hostKeyPolicy := .strict,
      connectTimeoutMs := 10000, keepaliveIntervalMs := 30000, keepaliveMax := 3, notes := "" }]
  tunnels := [
    { id := "sql", name := "SQL", groupId := none, mode := .local, jumpChain := ["gate", "db"],
      localHost := "127.0.0.1", localPort := 5432, remoteHost := some "localhost",
      remotePort := some 5432, autoStart := true, reconnectBaseMs := 1000, reconnectMaxMs := 30000,
      reconnectResetMs := 60000, reconnectJitterPercent := 20, description := "" },
    { id := "back", name := "Back", groupId := none, mode := .remote, jumpChain := ["gate"],
      localHost := "localhost", localPort := 8080, remoteHost := some "127.0.0.1",
      remotePort := some 0, autoStart := false, reconnectBaseMs := 1000, reconnectMaxMs := 30000,
      reconnectResetMs := 60000, reconnectJitterPercent := 20, description := "" }]

/-- The checks of that configuration. -/
theorem accepted_passes_forwards :
    ∃ c, forwardsDocument.intoDomain none = .ok c ∧ c.tunnels.length = 2 ∧
    (∀ order, ∃ w, new order c.hosts c.groups c.tunnels = .ok w) ∧
    ∀ t ∈ c.tunnels, ∃ hosts, Startable c t hosts ∧
      ∀ (load : SecretRef → Except String String) (userHome appKnownHosts : Option PathBuf),
        (∀ host ∈ hosts, host.auth ≠ .keyboardInteractive) → SecretsLoad load hosts →
          ∃ hops, buildHops load (knownHosts userHome appKnownHosts) 1 hosts = .ok hops ∧
            Connectable t hosts hops := by
  have hok : ((forwardsDocument.intoDomain none).toOption.map fun c => c.tunnels.length) =
      some 2 := by
    decide +kernel
  cases h : forwardsDocument.intoDomain none with
  | error e => simp [h, Except.toOption] at hok
  | ok c => exact ⟨c, rfl, by simpa [h, Except.toOption] using hok, accepted_passes h⟩

end Manager

end TunnelWarden
