import TunnelWarden.Store.Normal

/-!
# What the window checks before it sends a configuration

A configuration is accepted where it can be written as a document that
`into_domain` accepts. What a document is loaded as is accepted, and so
is a configuration with other groups, as long as each of its tunnels is
in one of them or in none.
-/

namespace TunnelWarden

/-- **A configuration that is accepted**: it can be written as a
document, and `into_domain` accepts the document. -/
def DomainConfig.Accepted (home : Option PathBuf) (c : DomainConfig) : Prop :=
  ∃ doc c', ConfigDocument.tryFrom c = .ok doc ∧ doc.intoDomain home = .ok c'

variable {home : Option PathBuf}

/-! ## The document of a configuration -/

/-- What is written for a configuration. -/
structure ConfigDocument.Writes (c : DomainConfig) (doc : ConfigDocument) : Prop where
  version : doc.version = schemaVersion
  app : doc.app = c.app
  hosts : List.Forall₂ (fun h r => HostRecord.tryFrom h = .ok r) c.hosts doc.hosts
  groups : doc.groups = c.groups.map GroupRecord.ofDomain
  tunnels : List.Forall₂ (fun t r => TunnelRecord.tryFrom t = .ok r) c.tunnels doc.tunnels

theorem ConfigDocument.tryFrom_eq_ok {c : DomainConfig} {doc : ConfigDocument} :
    ConfigDocument.tryFrom c = .ok doc ↔ ConfigDocument.Writes c doc := by
  unfold ConfigDocument.tryFrom
  simp only [bind_eq_ok, mapM_eq_ok]
  constructor
  · rintro ⟨hosts, hhosts, tunnels, htunnels, h⟩
    obtain rfl := Except.ok.inj h
    exact ⟨rfl, rfl, hhosts, rfl, htunnels⟩
  · intro h
    obtain ⟨version, app, hosts, groups, tunnels⟩ := doc
    obtain rfl : version = schemaVersion := h.version
    obtain rfl : app = c.app := h.app
    obtain rfl : groups = c.groups.map GroupRecord.ofDomain := h.groups
    exact ⟨hosts, h.hosts, tunnels, h.tunnels, rfl⟩

/-- A host is written under its id. -/
theorem HostRecord.id_tryFrom {h : SshHost} {r : HostRecord} (hr : HostRecord.tryFrom h = .ok r) :
    r.id = h.id.val := by
  obtain ⟨c, -, hr⟩ := bind_eq_ok.1 hr
  obtain ⟨k, -, hr⟩ := bind_eq_ok.1 hr
  obtain rfl := Except.ok.inj hr
  rfl

/-- **The ids of the hosts** of an accepted configuration are
distinct. -/
theorem DomainConfig.Accepted.nodup_hosts {c : DomainConfig} (h : c.Accepted home) :
    (c.hosts.map SshHost.id).Nodup := by
  obtain ⟨doc, c', hdoc, hload⟩ := h
  have hwrites := ConfigDocument.tryFrom_eq_ok.1 hdoc
  have hids : (c.hosts.map SshHost.id).map HostId.val = doc.hosts.map HostRecord.id := by
    rw [List.map_map]
    exact (map_eq_map_of_forall₂ (hwrites.hosts.imp fun _ _ hr => HostRecord.id_tryFrom hr)).symm
  have hnodup := (ConfigDocument.intoDomain_eq_ok.1 hload).hostIds
  rw [← hids] at hnodup
  exact hnodup.of_map _

/-! ## What a document is loaded as -/

/-- What is expanded can be expanded again. -/
theorem expandHome_again {p q : PathBuf} (h : expandHome home p = some q) :
    ∃ q', expandHome home q = some q' := by
  cases home with
  | none =>
      have hsame : q = p := by
        unfold expandHome at h
        split at h
        · exact (Option.some.inj h).symm
        · cases h
      rw [hsame]
      exact ⟨q, h⟩
  | some dir =>
      unfold expandHome
      split
      · exact ⟨q, rfl⟩
      · exact ⟨_, rfl⟩

/-- The normal record authenticates in the same way. -/
theorem HostRecord.auth_again {r : HostRecord} {a : AuthConfig} (ha : r.auth home = .ok a) :
    ∃ a', (r.normal a).auth home = .ok a' := by
  rcases HostRecord.auth_cases ha with ⟨htype, reference, hne, -, rfl⟩ |
    ⟨htype, path, path', -, hexpand, rfl⟩ | ⟨htype, rfl⟩ | ⟨htype, rfl⟩
  · exact ⟨.password ⟨reference⟩,
      by simp [HostRecord.auth, HostRecord.normal, htype, Option.filter, hne]⟩
  · obtain ⟨q, hq⟩ := expandHome_again hexpand
    have hauth : (r.normal (.privateKey path' (r.passphraseRef.map SecretRef.mk))).auth home =
        .ok (.privateKey q (r.passphraseRef.map SecretRef.mk)) := by
      simp [HostRecord.auth, HostRecord.normal, htype, hq, Function.comp_def]
    exact ⟨_, hauth⟩
  · exact ⟨.agent r.agentSocket, by simp [HostRecord.auth, HostRecord.normal, htype]⟩
  · exact ⟨.keyboardInteractive, by simp [HostRecord.auth, HostRecord.normal, htype]⟩

/-- **What is made of a host record** can be written, as a record that is
accepted again. -/
theorem HostRecord.intoDomain_again {r : HostRecord} {h : SshHost} (hr : r.InRange)
    (hh : r.intoDomain home = .ok h) :
    ∃ r', HostRecord.tryFrom h = .ok r' ∧
      (r'.id = r.id ∧ ∃ h', r'.intoDomain home = .ok h' ∧ h'.id = h.id) := by
  obtain ⟨hfilled, a, ha, rfl⟩ := HostRecord.intoDomain_eq_ok.1 hh
  obtain ⟨a', ha'⟩ := HostRecord.auth_again ha
  have hfilled' : (r.normal a).Filled :=
    ⟨hfilled.id, hfilled.name, hfilled.hostname, hfilled.username, hfilled.port,
      hfilled.connectTimeout, hfilled.keepaliveMax⟩
  exact ⟨r.normal a, HostRecord.tryFrom_host hr ha, rfl, _,
    HostRecord.intoDomain_eq_ok.2 ⟨hfilled', a', ha', rfl⟩, rfl⟩

/-- **What a document is loaded as is accepted.** -/
theorem DomainConfig.accepted_of_intoDomain {doc : ConfigDocument} {c : DomainConfig}
    (hrange : doc.InRange) (h : doc.intoDomain home = .ok c) : c.Accepted home := by
  have hacc := ConfigDocument.intoDomain_eq_ok.1 h
  obtain ⟨hosts', hwritten, hids⟩ := exists_forall₂
    (S := fun host r' => HostRecord.tryFrom host = .ok r' ∧
      ∃ h', HostRecord.intoDomain home r' = .ok h' ∧ h'.id = host.id)
    (T := fun r r' => HostRecord.id r' = HostRecord.id r) hacc.hosts fun r host hr hhost => by
      obtain ⟨r', hr', hid, hback⟩ := HostRecord.intoDomain_again (hrange.hosts r hr) hhost
      exact ⟨r', ⟨hr', hback⟩, hid⟩
  obtain ⟨hosts'', hread, hkept⟩ := exists_forall₂
    (S := fun r' h' => HostRecord.intoDomain home r' = .ok h')
    (T := fun host h' => SshHost.id h' = SshHost.id host) hwritten
    fun host r' _ hr' => by
      obtain ⟨-, h', hh', hid⟩ := hr'
      exact ⟨h', hh', hid⟩
  obtain ⟨doc', hwrites, hload⟩ := ConfigDocument.intoDomain_rewritten hrange h
    (hwritten.imp fun _ _ h => h.1) hids hread hkept
  exact ⟨doc', _, hwrites, hload⟩

/-! ## Other groups -/

section Groups

variable {groups : List TunnelGroup} {f : Option GroupId → Option GroupId}

/-- The configuration with other groups, where a tunnel goes from its
group to the one `f` says. -/
def DomainConfig.regrouped (groups : List TunnelGroup) (f : Option GroupId → Option GroupId)
    (c : DomainConfig) : DomainConfig :=
  { c with groups, tunnels := c.tunnels.map fun t => { t with groupId := f t.groupId } }

/-- The record of a tunnel in another group. -/
def TunnelRecord.regrouped (f : Option GroupId → Option GroupId) (r : TunnelRecord) :
    TunnelRecord :=
  { r with groupId := (f (r.groupId.map GroupId.mk)).map GroupId.val }

/-- The document with other groups. -/
def ConfigDocument.regrouped (groups : List TunnelGroup) (f : Option GroupId → Option GroupId)
    (doc : ConfigDocument) : ConfigDocument :=
  { doc with
    groups := groups.map GroupRecord.ofDomain
    tunnels := doc.tunnels.map (TunnelRecord.regrouped f) }

theorem TunnelRecord.groupId_tryFrom {t : TunnelConfig} {r : TunnelRecord}
    (hr : TunnelRecord.tryFrom t = .ok r) : r.groupId.map GroupId.mk = t.groupId := by
  obtain ⟨b, -, hr⟩ := bind_eq_ok.1 hr
  obtain ⟨m, -, hr⟩ := bind_eq_ok.1 hr
  obtain ⟨s, -, hr⟩ := bind_eq_ok.1 hr
  obtain rfl := Except.ok.inj hr
  simp [Function.comp_def]

theorem TunnelRecord.tryFrom_regrouped {t : TunnelConfig} {r : TunnelRecord}
    (hr : TunnelRecord.tryFrom t = .ok r) :
    TunnelRecord.tryFrom { t with groupId := f t.groupId } = .ok (r.regrouped f) := by
  have hgroup := TunnelRecord.groupId_tryFrom hr
  obtain ⟨b, hb, hr⟩ := bind_eq_ok.1 hr
  obtain ⟨m, hm, hr⟩ := bind_eq_ok.1 hr
  obtain ⟨s, hs, hr⟩ := bind_eq_ok.1 hr
  obtain rfl := Except.ok.inj hr
  unfold TunnelRecord.tryFrom TunnelRecord.regrouped
  dsimp only at hgroup ⊢
  rw [hb, hm, hs, hgroup]
  rfl

theorem ConfigDocument.Writes.regrouped {c : DomainConfig} {doc : ConfigDocument}
    (h : ConfigDocument.Writes c doc) :
    ConfigDocument.Writes (c.regrouped groups f) (doc.regrouped groups f) where
  version := h.version
  app := h.app
  hosts := h.hosts
  groups := rfl
  tunnels := by
    rw [DomainConfig.regrouped, ConfigDocument.regrouped, List.forall₂_map_left_iff,
      List.forall₂_map_right_iff]
    exact h.tunnels.imp fun _ _ hr => TunnelRecord.tryFrom_regrouped hr

theorem TunnelRecord.groupId_intoDomain {r : TunnelRecord} {t : TunnelConfig}
    (ht : r.intoDomain = .ok t) : t.groupId = r.groupId.map GroupId.mk := by
  obtain ⟨-, remote, -, rfl⟩ := TunnelRecord.intoDomain_eq_ok.1 ht
  rfl

theorem TunnelRecord.intoDomain_regrouped {r : TunnelRecord} {t : TunnelConfig}
    (ht : r.intoDomain = .ok t) :
    (r.regrouped f).intoDomain = .ok { t with groupId := f t.groupId } := by
  obtain ⟨hlength, remote, hremote, rfl⟩ := TunnelRecord.intoDomain_eq_ok.1 ht
  refine TunnelRecord.intoDomain_eq_ok.2 ⟨hlength, remote, hremote, ?_⟩
  simp [TunnelRecord.tunnel, TunnelRecord.regrouped, Function.comp_def]

/-- **A document with other groups is accepted**, if each of its tunnels
is in one of them or in none. -/
theorem ConfigDocument.Accepted.regrouped {c : DomainConfig} {doc : ConfigDocument}
    (h : doc.Accepted home c) (hcount : groups.length ≤ maxGroups)
    (hids : (groups.map TunnelGroup.id).Nodup)
    (hin : ∀ t ∈ c.tunnels, TunnelConfig.checkGroup groups (f t.groupId) = .ok ()) :
    (doc.regrouped groups f).Accepted home (c.regrouped groups f) := by
  have hval : Function.Injective GroupId.val := fun a b hab => by
    cases a
    cases b
    exact congrArg GroupId.mk hab
  refine { h with
    groupCount := ?_, tunnelCount := ?_, groupIds := ?_, groups := ?_, tunnelIds := ?_,
    tunnels := ?_ }
  · rw [ConfigDocument.regrouped, List.length_map]
    exact hcount
  · rw [ConfigDocument.regrouped, List.length_map]
    exact h.tunnelCount
  · rw [ConfigDocument.regrouped, List.map_map]
    have hnodup := hids.map hval
    rw [List.map_map] at hnodup
    exact hnodup
  · rw [ConfigDocument.regrouped, List.map_map]
    exact List.map_id' groups
  · rw [ConfigDocument.regrouped, List.map_map]
    exact h.tunnelIds
  · rw [ConfigDocument.regrouped, DomainConfig.regrouped, List.forall₂_map_left_iff,
      List.forall₂_map_right_iff]
    refine List.forall₂_iff_get.2 ⟨h.tunnels.length_eq, fun i hi hi' => ?_⟩
    have ht : TunnelRecord.checked c.hosts c.groups (doc.tunnels.get ⟨i, hi⟩) =
        .ok (c.tunnels.get ⟨i, hi'⟩) := h.tunnels.get hi hi'
    obtain ⟨hload, hvalid⟩ := TunnelRecord.checked_eq_ok.1 ht
    exact TunnelRecord.checked_eq_ok.2 ⟨TunnelRecord.intoDomain_regrouped hload,
      { hvalid with group := hin _ (List.get_mem _ _) }⟩

/-- The groups of an accepted configuration. -/
structure DomainConfig.Grouped (c : DomainConfig) : Prop where
  count : c.groups.length ≤ maxGroups
  ids : (c.groups.map TunnelGroup.id).Nodup
  known : ∀ t ∈ c.tunnels, TunnelConfig.checkGroup c.groups t.groupId = .ok ()

/-- The groups a document is loaded with are those it was written
with. -/
theorem ConfigDocument.Writes.groups_eq {c c' : DomainConfig} {doc : ConfigDocument}
    (h : ConfigDocument.Writes c doc) (hacc : doc.Accepted home c') : c'.groups = c.groups := by
  rw [← hacc.groups, h.groups, List.map_map]
  exact List.map_id' c.groups

/-- And the tunnels are in the groups they were in. -/
theorem ConfigDocument.Writes.groupIds_eq {c c' : DomainConfig} {doc : ConfigDocument}
    (h : ConfigDocument.Writes c doc) (hacc : doc.Accepted home c') :
    c'.tunnels.map TunnelConfig.groupId = c.tunnels.map TunnelConfig.groupId := by
  have hwritten : doc.tunnels.map (fun r => r.groupId.map GroupId.mk) =
      c.tunnels.map TunnelConfig.groupId :=
    map_eq_map_of_forall₂ (h.tunnels.imp fun _ _ hr => TunnelRecord.groupId_tryFrom hr)
  rw [← hwritten]
  exact map_eq_map_of_forall₂ (hacc.tunnels.imp fun _ _ ht =>
    TunnelRecord.groupId_intoDomain (TunnelRecord.checked_eq_ok.1 ht).1)

theorem DomainConfig.Accepted.grouped {c : DomainConfig} (h : c.Accepted home) : c.Grouped := by
  obtain ⟨doc, c', hdoc, hload⟩ := h
  have hwrites := ConfigDocument.tryFrom_eq_ok.1 hdoc
  have hacc := ConfigDocument.intoDomain_eq_ok.1 hload
  have hgroups := hwrites.groups_eq hacc
  refine ⟨?_, ?_, fun t ht => ?_⟩
  · rw [← hgroups, ← hacc.groups, List.length_map]
    exact hacc.groupCount
  · have hids : (c.groups.map TunnelGroup.id).map GroupId.val = doc.groups.map GroupRecord.id := by
      rw [← hgroups, ← hacc.groups, List.map_map, List.map_map]
      rfl
    have hnodup := hacc.groupIds
    rw [← hids] at hnodup
    exact hnodup.of_map _
  · have hmem : t.groupId ∈ c'.tunnels.map TunnelConfig.groupId := by
      rw [hwrites.groupIds_eq hacc]
      exact List.mem_map_of_mem ht
    obtain ⟨t', ht', hsame⟩ := List.mem_map.1 hmem
    obtain ⟨r, -, hr⟩ := exists_of_mem_forall₂ hacc.tunnels ht'
    rw [← hsame, ← hgroups]
    exact (TunnelRecord.checked_eq_ok.1 hr).2.group

/-- **A configuration with other groups is accepted**, if each of its
tunnels is in one of them or in none. -/
theorem DomainConfig.Accepted.regrouped {c : DomainConfig} (h : c.Accepted home)
    (hcount : groups.length ≤ maxGroups) (hids : (groups.map TunnelGroup.id).Nodup)
    (hin : ∀ t ∈ c.tunnels, TunnelConfig.checkGroup groups (f t.groupId) = .ok ()) :
    (c.regrouped groups f).Accepted home := by
  obtain ⟨doc, c', hdoc, hload⟩ := h
  have hwrites := ConfigDocument.tryFrom_eq_ok.1 hdoc
  have hacc := ConfigDocument.intoDomain_eq_ok.1 hload
  refine ⟨doc.regrouped groups f, c'.regrouped groups f,
    ConfigDocument.tryFrom_eq_ok.2 hwrites.regrouped,
    ConfigDocument.intoDomain_eq_ok.2 (hacc.regrouped hcount hids fun t' ht' => ?_)⟩
  have hmem : t'.groupId ∈ c.tunnels.map TunnelConfig.groupId := by
    rw [← hwrites.groupIds_eq hacc]
    exact List.mem_map_of_mem ht'
  obtain ⟨t, ht, hsame⟩ := List.mem_map.1 hmem
  rw [← hsame]
  exact hin t ht

end Groups

end TunnelWarden
