import Mathlib.Data.List.Forall2
import TunnelWarden.Domain.Valid
import TunnelWarden.Store.Model.Schema

/-!
# What an accepted document is

One inversion for each conversion from the file to the domain: what the
checks ask for, and what is made of the record. Later proofs read these
and do not unfold a conversion.
-/

namespace TunnelWarden

variable {home : Option PathBuf}

/-! ## One record -/

/-- **The ways a host record authenticates.** -/
theorem HostRecord.auth_cases {r : HostRecord} {a : AuthConfig} (h : r.auth home = .ok a) :
    (r.authType = .password ∧ ∃ reference, reference ≠ "" ∧ r.credentialRef = some reference ∧
      a = .password ⟨reference⟩) ∨
    (r.authType = .privateKey ∧ ∃ path path', r.identityFile = some path ∧
      expandHome home path = some path' ∧ a = .privateKey path' (r.passphraseRef.map SecretRef.mk)) ∨
    (r.authType = .agent ∧ a = .agent r.agentSocket) ∨
    (r.authType = .keyboardInteractive ∧ a = .keyboardInteractive) := by
  unfold HostRecord.auth at h
  cases htype : r.authType with
  | password =>
      rw [htype] at h
      dsimp only at h
      split at h
      · simp at h
      · rename_i reference href
        obtain ⟨hsome, hne⟩ := Option.filter_eq_some_iff.1 href
        exact .inl ⟨rfl, reference, by simpa using hne, hsome, (Except.ok.inj h).symm⟩
  | privateKey =>
      rw [htype] at h
      dsimp only at h
      split at h
      · simp at h
      · rename_i path hpath
        split at h
        · simp at h
        · rename_i path' hexpand
          exact .inr (.inl ⟨rfl, path, path', hpath, hexpand, (Except.ok.inj h).symm⟩)
  | agent =>
      rw [htype] at h
      exact .inr (.inr (.inl ⟨rfl, (Except.ok.inj h).symm⟩))
  | keyboardInteractive =>
      rw [htype] at h
      exact .inr (.inr (.inr ⟨rfl, (Except.ok.inj h).symm⟩))

/-- The fields every host must fill in. -/
structure HostRecord.Filled (r : HostRecord) : Prop where
  id : TunnelConfig.blank r.id = false
  name : TunnelConfig.blank r.name = false
  hostname : TunnelConfig.blank r.hostname = false
  username : TunnelConfig.blank r.username = false
  port : r.port ≠ 0
  connectTimeout : r.connectTimeoutMs ≠ 0
  keepaliveMax : r.keepaliveMax ≠ 0

/-- The host a record stands for, with the authentication `a`. -/
def HostRecord.host (r : HostRecord) (a : AuthConfig) : SshHost where
  id := ⟨r.id⟩
  name := r.name
  hostname := r.hostname
  port := r.port
  username := r.username
  auth := a
  hostKeyPolicy := r.hostKeyPolicy
  connectTimeout := .fromMillis r.connectTimeoutMs
  keepaliveInterval := .fromMillis r.keepaliveIntervalMs
  keepaliveMax := r.keepaliveMax
  notes := r.notes

/-- **A host record that is accepted.** -/
theorem HostRecord.intoDomain_eq_ok {r : HostRecord} {h : SshHost} :
    r.intoDomain home = .ok h ↔ r.Filled ∧ ∃ a, r.auth home = .ok a ∧ h = r.host a := by
  unfold HostRecord.intoDomain
  simp only [throw_bind, ite_error_eq_ok, bind_eq_ok]
  refine and_congr ⟨fun h => ?_, fun h => ?_⟩ ⟨?_, ?_⟩
  · simp only [not_or, Bool.not_eq_true] at h
    exact ⟨h.1, h.2.1, h.2.2.1, h.2.2.2.1, h.2.2.2.2.1, h.2.2.2.2.2.1, h.2.2.2.2.2.2⟩
  · simp [h.id, h.name, h.hostname, h.username, h.port, h.connectTimeout, h.keepaliveMax]
  · rintro ⟨a, ha, hh⟩
    exact ⟨a, ha, (Except.ok.inj hh).symm⟩
  · rintro ⟨a, ha, rfl⟩
    exact ⟨a, ha, rfl⟩

/-- The tunnel a record stands for, with the far end `remote`. -/
def TunnelRecord.tunnel (r : TunnelRecord) (remote : Option RemoteEndpoint) : TunnelConfig where
  id := ⟨r.id⟩
  name := r.name
  groupId := r.groupId.map GroupId.mk
  mode := r.mode
  jumpChain := r.jumpChain.map HostId.mk
  localEnd := ⟨r.localHost, r.localPort⟩
  remote := remote
  autoStart := r.autoStart
  reconnect := {
    baseDelay := .fromMillis r.reconnectBaseMs, maxDelay := .fromMillis r.reconnectMaxMs,
    resetAfterHealthy := .fromMillis r.reconnectResetMs,
    jitterPercent := r.reconnectJitterPercent }
  description := r.description

/-- **A tunnel record that is accepted**, but for its validation. -/
theorem TunnelRecord.intoDomain_eq_ok {r : TunnelRecord} {t : TunnelConfig} :
    r.intoDomain = .ok t ↔
      r.jumpChain.length ≤ maxJumpHops ∧ ∃ remote, r.remote = .ok remote ∧ t = r.tunnel remote := by
  unfold TunnelRecord.intoDomain
  simp only [throw_bind, ite_error_eq_ok, bind_eq_ok, Nat.not_lt]
  refine and_congr_right fun _ => ⟨?_, ?_⟩
  · rintro ⟨remote, hremote, ht⟩
    exact ⟨remote, hremote, (Except.ok.inj ht).symm⟩
  · rintro ⟨remote, hremote, rfl⟩
    exact ⟨remote, hremote, rfl⟩

theorem TunnelRecord.checked_eq_ok {hosts : List SshHost} {groups : List TunnelGroup}
    {r : TunnelRecord} {t : TunnelConfig} :
    r.checked hosts groups = .ok t ↔ r.intoDomain = .ok t ∧ t.Valid hosts groups := by
  unfold TunnelRecord.checked
  rw [bind_eq_ok]
  constructor
  · rintro ⟨t', ht', h⟩
    split at h
    · simp at h
    · rename_i hvalid
      obtain rfl := Except.ok.inj h
      exact ⟨ht', TunnelConfig.validate_iff.1 hvalid⟩
  · rintro ⟨ht, hvalid⟩
    refine ⟨t, ht, ?_⟩
    rw [TunnelConfig.validate_iff.2 hvalid]

/-! ## Lists of records -/

section Lists

variable {ε α β : Type} {f : α → Except ε β} {as : List α} {bs : List β}

/-- A conversion entry by entry. -/
theorem mapM_eq_ok : as.mapM f = .ok bs ↔ List.Forall₂ (fun a b => f a = .ok b) as bs := by
  induction as generalizing bs with
  | nil =>
      rw [List.forall₂_nil_left_iff]
      exact ⟨fun h => (Except.ok.inj h).symm, fun h => by rw [h]; rfl⟩
  | cons a as ih =>
      simp only [List.mapM_cons, bind_eq_ok, ih, List.forall₂_cons_left_iff]
      constructor
      · rintro ⟨b, hb, bs', hbs, h⟩
        exact ⟨b, bs', hb, hbs, (Except.ok.inj h).symm⟩
      · rintro ⟨b, bs', hb, hbs, rfl⟩
        exact ⟨b, hb, bs', hbs, rfl⟩

theorem exists_of_mem_forall₂ {R : α → β → Prop} (h : List.Forall₂ R as bs) {b : β} (hb : b ∈ bs) :
    ∃ a ∈ as, R a b := by
  induction h with
  | nil => simp at hb
  | @cons a b' as bs hab _ ih =>
      rcases List.mem_cons.1 hb with rfl | hb
      · exact ⟨a, List.mem_cons_self, hab⟩
      · obtain ⟨a', ha', hab'⟩ := ih hb
        exact ⟨a', List.mem_cons_of_mem _ ha', hab'⟩

variable {kind : String} {id : β → String} {convert : β → Except ConfigValidationError α}

/-- **The loop over one kind of record**: the identifiers are new and
distinct, and every record converts. -/
theorem convertRecords_eq_ok {seen : List String} :
    convertRecords kind id convert seen bs = .ok as ↔
      (bs.map id).Nodup ∧ (∀ b ∈ bs, id b ∉ seen) ∧
        List.Forall₂ (fun b a => convert b = .ok a) bs as := by
  induction bs generalizing as seen with
  | nil =>
      simp only [convertRecords, Except.ok.injEq, List.map_nil, List.nodup_nil, List.not_mem_nil,
        false_implies, implies_true, List.forall₂_nil_left_iff, true_and]
      exact eq_comm
  | cons b bs ih =>
      unfold convertRecords
      simp only [ite_error_eq_ok, bind_eq_ok, ih, List.map_cons, List.nodup_cons,
        List.forall_mem_cons, List.forall₂_cons_left_iff, List.mem_map]
      simp only [List.mem_cons, not_or]
      constructor
      · rintro ⟨hb, a, ha, as', ⟨hnodup, hfresh, has⟩, h⟩
        refine ⟨⟨?_, hnodup⟩, ⟨hb, fun x hx => (hfresh x hx).2⟩, a, as', ha, has,
          (Except.ok.inj h).symm⟩
        rintro ⟨x, hx, heq⟩
        exact (hfresh x hx).1 heq
      · rintro ⟨⟨hnot, hnodup⟩, ⟨hb, hfresh⟩, a, as', ha, has, rfl⟩
        refine ⟨hb, a, ha, as', ⟨hnodup, fun x hx => ⟨?_, hfresh x hx⟩, has⟩, rfl⟩
        exact fun heq => hnot ⟨x, hx, heq⟩

end Lists

/-! ## The document -/

/-- **A document that is accepted**, and what is made of it. -/
structure ConfigDocument.Accepted (home : Option PathBuf) (doc : ConfigDocument)
    (c : DomainConfig) : Prop where
  version : doc.version = schemaVersion
  hostCount : doc.hosts.length ≤ maxHosts
  groupCount : doc.groups.length ≤ maxGroups
  tunnelCount : doc.tunnels.length ≤ maxTunnels
  app : c.app = doc.app
  hostIds : (doc.hosts.map HostRecord.id).Nodup
  hosts : List.Forall₂ (fun r h => HostRecord.intoDomain home r = .ok h) doc.hosts c.hosts
  groupIds : (doc.groups.map GroupRecord.id).Nodup
  groups : doc.groups.map GroupRecord.intoDomain = c.groups
  tunnelIds : (doc.tunnels.map TunnelRecord.id).Nodup
  tunnels : List.Forall₂ (fun r t => TunnelRecord.checked c.hosts c.groups r = .ok t) doc.tunnels
    c.tunnels

theorem ConfigDocument.intoDomain_eq_ok {doc : ConfigDocument} {c : DomainConfig} :
    doc.intoDomain home = .ok c ↔ doc.Accepted home c := by
  have hgroup {rs : List GroupRecord} {gs : List TunnelGroup} :
      List.Forall₂ (fun r g => Except.ok r.intoDomain =
        (Except.ok g : Except ConfigValidationError TunnelGroup)) rs gs ↔
          rs.map GroupRecord.intoDomain = gs := by
    simp only [Except.ok.injEq]
    rw [← List.forall₂_eq_eq_eq, List.forall₂_map_left_iff]
  unfold ConfigDocument.intoDomain
  simp only [throw_bind, ite_error_eq_ok, bind_eq_ok, convertRecords_eq_ok, hgroup, Nat.not_lt,
    not_not, List.not_mem_nil, not_false_eq_true, implies_true, true_and]
  constructor
  · rintro ⟨hversion, hhosts, hgroups, htunnels, hs, ⟨hids, hconv⟩, gs, ⟨hgids, rfl⟩, ts,
      ⟨htids, htconv⟩, h⟩
    obtain rfl := Except.ok.inj h
    exact ⟨hversion, hhosts, hgroups, htunnels, rfl, hids, hconv, hgids, rfl, htids, htconv⟩
  · intro h
    obtain ⟨app, hs, gs, ts⟩ := c
    obtain rfl : app = doc.app := h.app
    exact ⟨h.version, h.hostCount, h.groupCount, h.tunnelCount, hs, ⟨h.hostIds, h.hosts⟩, gs,
      ⟨h.groupIds, h.groups⟩, ts, ⟨h.tunnelIds, h.tunnels⟩, rfl⟩

/-! ## What the entries agree in -/

/-- Entries that agree in a field. -/
theorem map_eq_map_of_forall₂ {α β γ : Type} {f : α → γ} {g : β → γ} {as : List α} {bs : List β}
    (h : List.Forall₂ (fun a b => g b = f a) as bs) : bs.map g = as.map f := by
  symm
  rw [← List.forall₂_eq_eq_eq, List.forall₂_map_left_iff, List.forall₂_map_right_iff]
  exact h.imp fun _ _ h => h.symm

/-- **Each tunnel has its own id**: that of its record. -/
theorem ConfigDocument.Accepted.nodup_tunnels {doc : ConfigDocument} {c : DomainConfig}
    (h : doc.Accepted home c) : (c.tunnels.map TunnelConfig.id).Nodup := by
  have hids : c.tunnels.map TunnelConfig.id = doc.tunnels.map fun r => ⟨r.id⟩ := by
    refine map_eq_map_of_forall₂ (h.tunnels.imp fun r t ht => ?_)
    obtain ⟨-, remote, -, rfl⟩ :=
      TunnelRecord.intoDomain_eq_ok.1 (TunnelRecord.checked_eq_ok.1 ht).1
    rfl
  have hnodup := h.tunnelIds
  rw [hids]
  rw [List.Nodup, List.pairwise_map] at hnodup ⊢
  exact hnodup.imp fun hne heq => hne (congrArg TunnelId.val heq)

end TunnelWarden
