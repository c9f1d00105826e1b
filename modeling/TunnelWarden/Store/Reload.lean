import TunnelWarden.Store.Accepted
import TunnelWarden.Store.Persist

/-!
# What a stored configuration is when it is loaded

The file holds whole milliseconds, and loading replaces a leading `~` of
a key path by the home directory. Everything else comes back as it was,
so a configuration is loaded as it was saved exactly where its durations
are whole milliseconds and its key paths need no home directory.
-/

namespace TunnelWarden

open Prog ConfigStore

variable {home : Option PathBuf}

/-! ## What the file can hold -/

/-- The duration is a whole number of milliseconds. -/
def Duration.Whole (d : Duration) : Prop := d % 1000000 = 0

/-- A key path that stands as it is. -/
def AuthConfig.Literal (home : Option PathBuf) : AuthConfig → Prop
  | .privateKey path _ => expandHome home path = some path
  | _ => True

structure SshHost.Literal (home : Option PathBuf) (h : SshHost) : Prop where
  auth : h.auth.Literal home
  connectTimeout : h.connectTimeout.Whole
  keepaliveInterval : h.keepaliveInterval.Whole

structure TunnelConfig.Literal (t : TunnelConfig) : Prop where
  baseDelay : t.reconnect.baseDelay.Whole
  maxDelay : t.reconnect.maxDelay.Whole
  resetAfterHealthy : t.reconnect.resetAfterHealthy.Whole

/-- **The file holds the configuration as it is.** -/
structure DomainConfig.Literal (home : Option PathBuf) (c : DomainConfig) : Prop where
  hosts : ∀ h ∈ c.hosts, h.Literal home
  tunnels : ∀ t ∈ c.tunnels, t.Literal

theorem Duration.fromMillis_asMillis {d : Duration} :
    Duration.fromMillis d.asMillis = d ↔ d.Whole := by
  have h (n : ℕ) : n / 1000000 * 1000000 = n ↔ n % 1000000 = 0 := by omega
  exact h d

theorem milliseconds_ok {d : Duration} {ms : ℕ} (h : milliseconds d = .ok ms) : ms = d.asMillis := by
  unfold milliseconds at h
  split at h
  · exact (Except.ok.inj h).symm
  · simp at h

/-! ## One record -/

/-- What an authentication is loaded as. -/
def AuthConfig.reloaded (home : Option PathBuf) : AuthConfig → Option AuthConfig
  | .privateKey path passphrase => (expandHome home path).map fun path => .privateKey path passphrase
  | auth => some auth

theorem AuthConfig.reloaded_self {a : AuthConfig} : a.reloaded home = some a ↔ a.Literal home := by
  cases a with
  | privateKey path passphrase => simp [AuthConfig.reloaded, AuthConfig.Literal]
  | _ => simp [AuthConfig.reloaded, AuthConfig.Literal]

/-- What a host is loaded as, with the authentication `a`. -/
def SshHost.reloaded (h : SshHost) (a : AuthConfig) : SshHost :=
  { h with
    auth := a
    connectTimeout := .fromMillis h.connectTimeout.asMillis
    keepaliveInterval := .fromMillis h.keepaliveInterval.asMillis }

/-- What a tunnel is loaded as. -/
def TunnelConfig.reloaded (t : TunnelConfig) : TunnelConfig :=
  { t with
    reconnect := {
      baseDelay := .fromMillis t.reconnect.baseDelay.asMillis
      maxDelay := .fromMillis t.reconnect.maxDelay.asMillis
      resetAfterHealthy := .fromMillis t.reconnect.resetAfterHealthy.asMillis
      jitterPercent := t.reconnect.jitterPercent } }

theorem HostRecord.auth_tryFrom {h : SshHost} {r : HostRecord} {a : AuthConfig}
    (hr : HostRecord.tryFrom h = .ok r) (ha : r.auth home = .ok a) :
    h.auth.reloaded home = some a := by
  obtain ⟨id, name, hostname, port, username, auth, policy, timeout, interval, max, notes⟩ := h
  obtain ⟨c, -, hr⟩ := bind_eq_ok.1 hr
  obtain ⟨k, -, hr⟩ := bind_eq_ok.1 hr
  obtain rfl := Except.ok.inj hr
  cases auth with
  | password reference =>
      by_cases hne : reference.val = ""
      · simp [HostRecord.auth, Option.filter, hne] at ha
      · simpa [HostRecord.auth, Option.filter, hne, AuthConfig.reloaded] using ha
  | privateKey path passphrase =>
      cases he : expandHome home path with
      | none => simp [HostRecord.auth, he] at ha
      | some p =>
          simpa [HostRecord.auth, he, AuthConfig.reloaded, Function.comp_def] using ha
  | agent socket => simpa [HostRecord.auth, AuthConfig.reloaded] using ha
  | keyboardInteractive => simpa [HostRecord.auth, AuthConfig.reloaded] using ha

/-- **A host through the file.** -/
theorem HostRecord.intoDomain_tryFrom {h h' : SshHost} {r : HostRecord}
    (hr : HostRecord.tryFrom h = .ok r) (hd : r.intoDomain home = .ok h') :
    ∃ a, h.auth.reloaded home = some a ∧ h' = h.reloaded a := by
  obtain ⟨-, a, ha, rfl⟩ := HostRecord.intoDomain_eq_ok.1 hd
  refine ⟨a, HostRecord.auth_tryFrom hr ha, ?_⟩
  obtain ⟨c, hc, hr⟩ := bind_eq_ok.1 hr
  obtain ⟨k, hk, hr⟩ := bind_eq_ok.1 hr
  obtain rfl := Except.ok.inj hr
  rw [milliseconds_ok hc, milliseconds_ok hk]
  rfl

theorem TunnelRecord.remote_tryFrom {t : TunnelConfig} {r : TunnelRecord}
    {remote : Option RemoteEndpoint} (hr : TunnelRecord.tryFrom t = .ok r)
    (hremote : r.remote = .ok remote) : remote = t.remote := by
  obtain ⟨b, -, hr⟩ := bind_eq_ok.1 hr
  obtain ⟨m, -, hr⟩ := bind_eq_ok.1 hr
  obtain ⟨s, -, hr⟩ := bind_eq_ok.1 hr
  obtain rfl := Except.ok.inj hr
  cases hrem : t.remote with
  | none => simpa [TunnelRecord.remote, hrem] using hremote.symm
  | some e => simpa [TunnelRecord.remote, hrem] using hremote.symm

/-- **A tunnel through the file.** -/
theorem TunnelRecord.intoDomain_tryFrom {t t' : TunnelConfig} {r : TunnelRecord}
    (hr : TunnelRecord.tryFrom t = .ok r) (hd : r.intoDomain = .ok t') : t' = t.reloaded := by
  obtain ⟨-, remote, hremote, rfl⟩ := TunnelRecord.intoDomain_eq_ok.1 hd
  obtain rfl := TunnelRecord.remote_tryFrom hr hremote
  obtain ⟨b, hb, hr⟩ := bind_eq_ok.1 hr
  obtain ⟨m, hm, hr⟩ := bind_eq_ok.1 hr
  obtain ⟨s, hs, hr⟩ := bind_eq_ok.1 hr
  obtain rfl := Except.ok.inj hr
  rw [milliseconds_ok hb, milliseconds_ok hm, milliseconds_ok hs]
  simp only [TunnelRecord.tunnel, TunnelConfig.reloaded, Option.map_map, List.map_map,
    Function.comp_def, Option.map_id', List.map_id']

theorem SshHost.reloaded_eq {h : SshHost} {a : AuthConfig} (ha : h.auth.reloaded home = some a) :
    h.reloaded a = h ↔ h.Literal home := by
  constructor
  · intro heq
    have hauth : a = h.auth := congrArg SshHost.auth heq
    refine ⟨?_, ?_, ?_⟩
    · rw [← AuthConfig.reloaded_self, ha, hauth]
    · exact Duration.fromMillis_asMillis.1 (congrArg SshHost.connectTimeout heq)
    · exact Duration.fromMillis_asMillis.1 (congrArg SshHost.keepaliveInterval heq)
  · intro hl
    obtain rfl : h.auth = a := Option.some.inj ((AuthConfig.reloaded_self.2 hl.auth).symm.trans ha)
    unfold SshHost.reloaded
    rw [Duration.fromMillis_asMillis.2 hl.connectTimeout,
      Duration.fromMillis_asMillis.2 hl.keepaliveInterval]

theorem TunnelConfig.reloaded_eq {t : TunnelConfig} : t.reloaded = t ↔ t.Literal := by
  constructor
  · intro heq
    have hpolicy := congrArg TunnelConfig.reconnect heq
    exact ⟨Duration.fromMillis_asMillis.1 (congrArg RetryPolicy.baseDelay hpolicy),
      Duration.fromMillis_asMillis.1 (congrArg RetryPolicy.maxDelay hpolicy),
      Duration.fromMillis_asMillis.1 (congrArg RetryPolicy.resetAfterHealthy hpolicy)⟩
  · intro hl
    unfold TunnelConfig.reloaded
    rw [Duration.fromMillis_asMillis.2 hl.baseDelay, Duration.fromMillis_asMillis.2 hl.maxDelay,
      Duration.fromMillis_asMillis.2 hl.resetAfterHealthy]

/-! ## The whole configuration -/

/-- There and back again, entry by entry. -/
theorem eq_iff_of_forall₂ {α β : Type} {as as' : List α} {bs : List β} {R : α → β → Prop}
    {S : β → α → Prop} {P : α → Prop} (hthere : List.Forall₂ R as bs)
    (hback : List.Forall₂ S bs as') (h : ∀ a b a', R a b → S b a' → (a' = a ↔ P a)) :
    as' = as ↔ ∀ a ∈ as, P a := by
  induction hthere generalizing as' with
  | nil =>
      cases hback
      simp
  | cons hab _ ih =>
      cases hback with
      | cons hba hrest => rw [List.cons.injEq, h _ _ _ hab hba, ih hrest, List.forall_mem_cons]

/-- **When a configuration is loaded as it was saved.** -/
theorem ConfigDocument.intoDomain_tryFrom_iff {c c' : DomainConfig} {doc : ConfigDocument}
    (hdoc : ConfigDocument.tryFrom c = .ok doc) (hload : doc.intoDomain home = .ok c') :
    c' = c ↔ c.Literal home := by
  obtain ⟨hosts, hhosts, hdoc⟩ := bind_eq_ok.1 hdoc
  obtain ⟨tunnels, htunnels, hdoc⟩ := bind_eq_ok.1 hdoc
  obtain rfl := Except.ok.inj hdoc
  have hback := ConfigDocument.intoDomain_eq_ok.1 hload
  have hhost : c'.hosts = c.hosts ↔ ∀ h ∈ c.hosts, h.Literal home := by
    refine eq_iff_of_forall₂ (mapM_eq_ok.1 hhosts) hback.hosts fun h r h' hr hr' => ?_
    obtain ⟨a, ha, rfl⟩ := HostRecord.intoDomain_tryFrom hr hr'
    exact SshHost.reloaded_eq ha
  have htunnel : c'.tunnels = c.tunnels ↔ ∀ t ∈ c.tunnels, t.Literal := by
    refine eq_iff_of_forall₂ (mapM_eq_ok.1 htunnels) hback.tunnels fun t r t' hr hr' => ?_
    rw [TunnelRecord.intoDomain_tryFrom hr (TunnelRecord.checked_eq_ok.1 hr').1]
    exact TunnelConfig.reloaded_eq
  have hgroup : c'.groups = c.groups := by
    rw [← hback.groups, List.map_map]
    exact List.map_id' c.groups
  constructor
  · rintro rfl
    exact ⟨hhost.1 rfl, htunnel.1 rfl⟩
  · intro hl
    obtain ⟨app, hs, gs, ts⟩ := c'
    obtain rfl : app = c.app := hback.app
    obtain rfl : hs = c.hosts := hhost.2 hl.hosts
    obtain rfl : gs = c.groups := hgroup
    obtain rfl : ts = c.tunnels := htunnel.2 hl.tunnels
    rfl

/-! ## Loading what was saved -/

variable {codec : Codec} {directory : PathBuf} {document : ConfigDocument} {text : String}

/-- A text that is read in one piece. -/
theorem fromUTF8_extract {limit : ℕ} (h : byteLen text ≤ limit) :
    String.fromUTF8? (text.toUTF8.extract 0 limit) = some text := by
  have hall : text.toUTF8.extract 0 limit = text.toByteArray := by
    have hmax : max limit text.toByteArray.size = limit := max_eq_left h
    rw [String.toUTF8_eq_toByteArray, ← hmax, ByteArray.extract_zero_max_size]
  rw [hall, String.fromUTF8?, dif_pos text.isValidUTF8]
  rfl

/-- A file with the text of a document, once it is open. -/
theorem readFile_of_text {fenv : Verdicts FileOp IoError} (henv : Works fenv) {d : Disk} (n : ℕ)
    {path : PathBuf} {c : DomainConfig} (hlen : byteLen text ≤ maxConfigBytes)
    (hcodec : codec.fromStr text = .ok document) (hc : document.intoDomain home = .ok c)
    (hfile : d.lookup path = some (.file text.toUTF8)) :
    (readFile home codec path fenv (n, d)).1 = .value c := by
  have hread : ioAt path (FileProg.readToString path (maxConfigBytes + 1)) fenv (n, d) =
      (.value text, n + 1, d) := by
    obtain ⟨r, hr⟩ := henv n (.read path)
    simp only [ioAt, Prog.mapError, FileProg.readToString, FileProg.step, Prog.op, hr,
      Disk.read_eq hfile, fromUTF8_extract (Nat.le_succ_of_le hlen)]
  unfold readFile
  rw [bind_of_value hread, if_neg (by omega), hcodec]
  rw [bind_of_value (t := (n + 1, d)) (a := document) rfl, hc]
  rfl

/-- **Loading reads the document that was saved.** -/
theorem load_of_serialized {fenv : Verdicts FileOp IoError} (henv : Works fenv) {d : Disk} (n : ℕ)
    (hser : serialized home codec document = .ok text) (hcodec : codec.fromStr text = .ok document)
    (hfile : d.lookup (configPath directory) = some (.file text.toUTF8)) :
    ∃ c, document.intoDomain home = .ok c ∧ (load home codec directory fenv (n, d)).1 = .value c := by
  obtain ⟨-, ⟨c, hc⟩, hlen⟩ := serialized_cases hser
  refine ⟨c, hc, ?_⟩
  have hopen : ((FileProg.openFile (configPath directory)).attempt :
      FileProg ConfigStoreError (Except IoError Unit)) fenv (n, d) =
        (.value (.ok ()), n + 1, d) := by
    obtain ⟨r, hr⟩ := henv n (.open (configPath directory))
    simp only [Prog.attempt, FileProg.openFile, FileProg.step, Prog.op, hr, hfile]
  unfold load
  rw [bind_of_value hopen]
  exact readFile_of_text henv (n + 1) hlen hcodec hc hfile

/-- **Importing reads the document that was exported.** -/
theorem importFile_of_text {fenv : Verdicts FileOp IoError} (henv : Works fenv) {d : Disk} (n : ℕ)
    {path : PathBuf} {c : DomainConfig} (hlen : byteLen text ≤ maxConfigBytes)
    (hcodec : codec.fromStr text = .ok document) (hc : document.intoDomain home = .ok c)
    (hfile : d.lookup path = some (.file text.toUTF8)) :
    (importFile home codec path fenv (n, d)).1 = .value c := by
  have hopen : ioAt path (FileProg.openFile path) fenv (n, d) = (.value (), n + 1, d) := by
    obtain ⟨r, hr⟩ := henv n (.open path)
    simp only [ioAt, Prog.mapError, FileProg.openFile, FileProg.step, Prog.op, hr, hfile]
  unfold importFile
  rw [bind_of_value hopen]
  exact readFile_of_text henv (n + 1) hlen hcodec hc hfile

end TunnelWarden
