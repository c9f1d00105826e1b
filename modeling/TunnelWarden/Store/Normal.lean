import TunnelWarden.Store.Reload

/-!
# Loading normalises once

What a document is loaded as can be written back, and the document
written is loaded as the same again. A record of a tunnel or a group
comes back as it was; a record of a host comes back with the references
its authentication does not use gone and its key path expanded. The
second expansion finds nothing to expand, since a home directory that is
there and does not start with `~` leads to a path that does not.
-/

namespace TunnelWarden

open Prog ConfigStore

variable {home : Option PathBuf}

/-! ## The home directory -/

/-- A path that does not start with `~`. -/
def PathBuf.Expanded (p : PathBuf) : Prop := p.components.head? ≠ some (.normal "~")

theorem stripPrefix_home {p : PathBuf} :
    p.stripPrefix (.ofName "~") = none ↔ p.Expanded := by
  unfold PathBuf.stripPrefix PathBuf.Expanded PathBuf.ofName
  obtain ⟨_ | ⟨c, cs⟩⟩ := p
  · simp
  · simp [List.cons_prefix_cons, eq_comm]

/-- Where the home directory is a place, the path below it is one. -/
theorem expandHome_expanded {dir p q : PathBuf} (hset : dir.components ≠ []) (hdir : dir.Expanded)
    (h : expandHome (some dir) p = some q) : q.Expanded := by
  unfold expandHome at h
  split at h
  · rename_i hnone
    obtain rfl := Option.some.inj h
    exact stripPrefix_home.1 hnone
  · rename_i rest hrest
    obtain rfl : dir.join rest = q := by simpa using h
    unfold PathBuf.join
    split
    · -- The rest is a path of its own, and starts with its root.
      rename_i hreplaces
      unfold PathBuf.replaces at hreplaces
      unfold PathBuf.Expanded
      split at hreplaces <;> simp_all
    · have happend (cs : List Component) :
          PathBuf.Expanded ⟨dir.components ++ cs⟩ := by
        unfold PathBuf.Expanded
        rw [List.head?_append_of_ne_nil _ hset]
        exact hdir
      split
      · exact happend _
      · exact happend _

theorem expandHome_of_expanded {p : PathBuf} (h : p.Expanded) : expandHome home p = some p := by
  unfold expandHome
  rw [stripPrefix_home.2 h]

/-! ## One record -/

/-- The durations of a record are `u64` numbers of milliseconds. -/
structure HostRecord.InRange (r : HostRecord) : Prop where
  connectTimeout : r.connectTimeoutMs < 2 ^ 64
  keepaliveInterval : r.keepaliveIntervalMs < 2 ^ 64

structure TunnelRecord.InRange (r : TunnelRecord) : Prop where
  base : r.reconnectBaseMs < 2 ^ 64
  max : r.reconnectMaxMs < 2 ^ 64
  reset : r.reconnectResetMs < 2 ^ 64

structure ConfigDocument.InRange (doc : ConfigDocument) : Prop where
  hosts : ∀ r ∈ doc.hosts, r.InRange
  tunnels : ∀ r ∈ doc.tunnels, r.InRange

theorem milliseconds_fromMillis {ms : ℕ} (h : ms < 2 ^ 64) :
    milliseconds (.fromMillis ms) = .ok ms := by
  have hms : (Duration.fromMillis ms).asMillis = ms := Nat.mul_div_cancel ms (by decide)
  rw [milliseconds, hms, if_pos h]

/-- The record a host is written as, where its authentication is `a`. -/
def HostRecord.normal (r : HostRecord) (a : AuthConfig) : HostRecord :=
  { r with
    credentialRef := match a with | .password reference => some reference.val | _ => none
    identityFile := match a with | .privateKey path _ => some path | _ => none
    passphraseRef := match a with | .privateKey _ p => p.map SecretRef.val | _ => none
    agentSocket := match a with | .agent socket => socket | _ => none }

/-- **A host comes back as its normal record.** -/
theorem HostRecord.tryFrom_host {r : HostRecord} {a : AuthConfig} (hr : r.InRange)
    (ha : r.auth home = .ok a) : HostRecord.tryFrom (r.host a) = .ok (r.normal a) := by
  have htimeout := milliseconds_fromMillis hr.connectTimeout
  have hinterval := milliseconds_fromMillis hr.keepaliveInterval
  unfold HostRecord.tryFrom HostRecord.host
  dsimp only
  rw [htimeout, hinterval]
  rcases HostRecord.auth_cases ha with ⟨htype, reference, -, -, rfl⟩ |
    ⟨htype, path, path', -, -, rfl⟩ | ⟨htype, rfl⟩ | ⟨htype, rfl⟩
  · simp only [HostRecord.normal, htype]; rfl
  · simp only [HostRecord.normal, htype]; rfl
  · simp only [HostRecord.normal, htype]; rfl
  · simp only [HostRecord.normal, htype]; rfl

/-- The authentication of the normal record is the one there was. -/
theorem HostRecord.auth_normal {dir : PathBuf} {r : HostRecord} {a : AuthConfig}
    (hset : dir.components ≠ []) (hdir : dir.Expanded) (ha : r.auth (some dir) = .ok a) :
    (r.normal a).auth (some dir) = .ok a := by
  rcases HostRecord.auth_cases ha with ⟨htype, reference, hne, -, rfl⟩ |
    ⟨htype, path, path', -, hexpand, rfl⟩ | ⟨htype, rfl⟩ | ⟨htype, rfl⟩
  · simp [HostRecord.auth, HostRecord.normal, htype, Option.filter, hne]
  · -- The path is expanded already.
    have hsecond : expandHome (some dir) path' = some path' :=
      expandHome_of_expanded (expandHome_expanded hset hdir hexpand)
    simp [HostRecord.auth, HostRecord.normal, htype, hsecond, Function.comp_def]
  · simp [HostRecord.auth, HostRecord.normal, htype]
  · simp [HostRecord.auth, HostRecord.normal, htype]

/-- **A host through the file a second time.** -/
theorem HostRecord.intoDomain_normal {dir : PathBuf} {r : HostRecord} {h : SshHost}
    (hset : dir.components ≠ []) (hdir : dir.Expanded) (hr : r.InRange)
    (hh : r.intoDomain (some dir) = .ok h) :
    ∃ r', HostRecord.tryFrom h = .ok r' ∧ r'.id = r.id ∧ r'.intoDomain (some dir) = .ok h := by
  obtain ⟨hfilled, a, ha, rfl⟩ := HostRecord.intoDomain_eq_ok.1 hh
  refine ⟨r.normal a, HostRecord.tryFrom_host hr ha, rfl, ?_⟩
  refine HostRecord.intoDomain_eq_ok.2 ⟨?_, a, HostRecord.auth_normal hset hdir ha, rfl⟩
  exact ⟨hfilled.id, hfilled.name, hfilled.hostname, hfilled.username, hfilled.port,
    hfilled.connectTimeout, hfilled.keepaliveMax⟩

/-- **A tunnel comes back as it was written.** -/
theorem TunnelRecord.tryFrom_intoDomain {r : TunnelRecord} {t : TunnelConfig} (hr : r.InRange)
    (ht : r.intoDomain = .ok t) : TunnelRecord.tryFrom t = .ok r := by
  obtain ⟨-, remote, hremote, rfl⟩ := TunnelRecord.intoDomain_eq_ok.1 ht
  have hends : remote.map RemoteEndpoint.host = r.remoteHost ∧
      remote.map RemoteEndpoint.port = r.remotePort := by
    unfold TunnelRecord.remote at hremote
    split at hremote
    · rename_i host port hhost hport
      obtain rfl := Except.ok.inj hremote
      exact ⟨hhost.symm, hport.symm⟩
    · rename_i hhost hport
      obtain rfl := Except.ok.inj hremote
      exact ⟨hhost.symm, hport.symm⟩
    · simp at hremote
  unfold TunnelRecord.tryFrom TunnelRecord.tunnel
  dsimp only
  rw [milliseconds_fromMillis hr.base, milliseconds_fromMillis hr.max,
    milliseconds_fromMillis hr.reset, hends.1, hends.2]
  simp only [Option.map_map, List.map_map, Function.comp_def, Option.map_id', List.map_id']
  rfl

/-! ## The document -/

/-- Entries that match one list match any list paired with it. -/
theorem exists_forall₂ {α β γ : Type} {R : α → β → Prop} {S : β → γ → Prop} {T : α → γ → Prop}
    {as : List α} {bs : List β} (h : List.Forall₂ R as bs)
    (hex : ∀ a b, a ∈ as → R a b → ∃ c, S b c ∧ T a c) :
    ∃ cs, List.Forall₂ S bs cs ∧ List.Forall₂ T as cs := by
  induction h with
  | nil => exact ⟨[], .nil, .nil⟩
  | @cons a b as bs hab _ ih =>
      obtain ⟨c, hbc, hac⟩ := hex a b List.mem_cons_self hab
      obtain ⟨cs, hbs, has⟩ := ih fun x y hx => hex x y (List.mem_cons_of_mem _ hx)
      exact ⟨c :: cs, .cons hbc hbs, .cons hac has⟩

/-- The hosts are looked at by their ids only. -/
theorem TunnelConfig.Valid.congr_hosts {t : TunnelConfig} {hosts hosts' : List SshHost}
    {groups : List TunnelGroup} (h : t.Valid hosts groups)
    (hids : hosts'.map SshHost.id = hosts.map SshHost.id) : t.Valid hosts' groups := by
  have hcount (l : List SshHost) (hop : HostId) :
      (l.filter fun host => host.id = hop).length = (l.map SshHost.id).count hop := by
    rw [List.count_eq_countP, List.countP_map, List.countP_eq_length_filter]
    rfl
  refine { h with resolves := fun hop hhop => ?_ }
  have hone : (hosts.filter fun host => host.id = hop).length = 1 := h.resolves hop hhop
  rw [hcount, ← hids, ← hcount] at hone
  exact hone

/-- **A loaded document, written back**: its hosts may come back changed,
if they keep their ids. The rest comes back as it was. -/
theorem ConfigDocument.intoDomain_rewritten {doc : ConfigDocument} {c : DomainConfig}
    (hrange : doc.InRange) (h : doc.intoDomain home = .ok c) {hosts' : List HostRecord}
    {hosts'' : List SshHost}
    (hwritten : List.Forall₂ (fun host r' => HostRecord.tryFrom host = .ok r') c.hosts hosts')
    (hids : List.Forall₂ (fun r r' => HostRecord.id r' = HostRecord.id r) doc.hosts hosts')
    (hread : List.Forall₂ (fun r' h' => HostRecord.intoDomain home r' = .ok h') hosts' hosts'')
    (hkept : List.Forall₂ (fun host h' => SshHost.id h' = SshHost.id host) c.hosts hosts'') :
    ∃ doc', ConfigDocument.tryFrom c = .ok doc' ∧
      doc'.intoDomain home = .ok { c with hosts := hosts'' } := by
  have hacc := ConfigDocument.intoDomain_eq_ok.1 h
  obtain ⟨tunnels', htunnels, hsame⟩ := exists_forall₂
    (S := fun t r' => TunnelRecord.tryFrom t = .ok r') (T := fun r r' => r = r') hacc.tunnels
    fun r t hr ht => ⟨r, TunnelRecord.tryFrom_intoDomain (hrange.tunnels r hr)
      (TunnelRecord.checked_eq_ok.1 ht).1, rfl⟩
  obtain rfl : doc.tunnels = tunnels' := by rwa [List.forall₂_eq_eq_eq] at hsame
  have hgroups : c.groups.map GroupRecord.ofDomain = doc.groups := by
    rw [← hacc.groups, List.map_map]
    exact List.map_id' doc.groups
  refine ⟨{ doc with version := schemaVersion, app := c.app, hosts := hosts' }, ?_, ?_⟩
  · unfold ConfigDocument.tryFrom
    rw [mapM_eq_ok.2 hwritten, mapM_eq_ok.2 htunnels, hgroups]
    rfl
  · refine ConfigDocument.intoDomain_eq_ok.2 { hacc with
      version := rfl, app := rfl, hostCount := ?_, hostIds := ?_, hosts := hread, tunnels := ?_ }
    · rw [← hids.length_eq]
      exact hacc.hostCount
    · rw [map_eq_map_of_forall₂ hids]
      exact hacc.hostIds
    · refine hacc.tunnels.imp fun r t ht => ?_
      obtain ⟨hload, hvalid⟩ := TunnelRecord.checked_eq_ok.1 ht
      exact TunnelRecord.checked_eq_ok.2
        ⟨hload, hvalid.congr_hosts (map_eq_map_of_forall₂ hkept)⟩

/-- **Loading what is loaded, written back, changes nothing.** -/
theorem ConfigDocument.intoDomain_tryFrom_intoDomain {dir : PathBuf} {doc : ConfigDocument}
    {c : DomainConfig} (hset : dir.components ≠ []) (hdir : dir.Expanded) (hrange : doc.InRange)
    (h : doc.intoDomain (some dir) = .ok c) :
    ∃ doc', ConfigDocument.tryFrom c = .ok doc' ∧ doc'.intoDomain (some dir) = .ok c := by
  have hacc := ConfigDocument.intoDomain_eq_ok.1 h
  obtain ⟨hosts', hwritten, hids⟩ := exists_forall₂
    (S := fun host r' => HostRecord.tryFrom host = .ok r' ∧ r'.intoDomain (some dir) = .ok host)
    (T := fun r r' => HostRecord.id r' = HostRecord.id r) hacc.hosts fun r host hr hhost => by
      obtain ⟨r', hr', hid, hback⟩ :=
        HostRecord.intoDomain_normal hset hdir (hrange.hosts r hr) hhost
      exact ⟨r', ⟨hr', hback⟩, hid⟩
  exact ConfigDocument.intoDomain_rewritten hrange h (hwritten.imp fun _ _ h => h.1) hids
    (hwritten.imp fun _ _ h => h.2).flip (List.forall₂_same.2 fun _ _ => rfl)

/-! ## Through a file -/

variable {codec : Codec} {config : DomainConfig} {path : PathBuf} {text : String}

theorem exported_cases (h : exported home codec config = .ok text) :
    ∃ document, ConfigDocument.tryFrom config = .ok document ∧
      codec.toStringPretty document = .ok text ∧ byteLen text ≤ maxConfigBytes := by
  unfold exported at h
  obtain ⟨document, hdoc, h⟩ := bind_eq_ok.1 h
  obtain ⟨c, -, h⟩ := bind_eq_ok.1 h
  obtain ⟨text', htext, h⟩ := bind_eq_ok.1 h
  obtain ⟨hlen, h⟩ := ite_error_eq_ok.1 h
  obtain rfl := Except.ok.inj h
  exact ⟨document, mapError_eq_ok.1 hdoc, mapError_eq_ok.1 htext, Nat.le_of_not_lt hlen⟩

/-- **An export that ends well** leaves the whole text. -/
theorem exportFile_stores (fenv : Verdicts FileOp IoError) :
    (exportFile home codec path config).Triple fenv (fun _ => True)
      (fun _ d => ∃ text, exported home codec config = .ok text ∧
        d.lookup path = some (.file text.toUTF8)) (fun _ => True) (fun _ => True) := by
  refine Triple.bind (V := fun text _ => exported home codec config = .ok text)
    (Triple.liftExcept (fun _ _ h _ => h) fun _ _ => trivial) fun text => ?_
  refine Triple.bind (V := fun _ _ => exported home codec config = .ok text) (Triple.const _)
    fun _ => ?_
  -- The write is the last to change the file.
  have hwrite : (FileProg.writeAll path text.toUTF8).Triple fenv
      (fun _ => exported home codec config = .ok text)
      (fun _ d => exported home codec config = .ok text ∧ d.lookup path = some (.file text.toUTF8))
      (fun _ => True) (fun _ => True) := by
    refine Triple.op (fun _ d _ t hd hrun => ?_) (fun _ _ _ _ _ _ => trivial)
      (fun _ _ _ => trivial) fun _ _ _ => trivial
    obtain ⟨-, rfl⟩ := Prod.mk.inj hrun
    exact ⟨hd, AList.lookup_insert _⟩
  have hsynced := Triple.bind hwrite fun _ => (FileProg.keeps_syncAll (p := path)).triple
    (fun _ _ => trivial) fun _ _ => trivial
  refine Triple.bind (Triple.attempt hsynced) fun r => ?_
  cases r with
  | ok _ => exact Triple.pure fun d hd => ⟨text, hd⟩
  | error e => exact Triple.bind (Triple.const True) fun _ => Triple.throw fun _ h => h

/-- **Loading normalises once.** What an accepted document is loaded as
can be written, the document written is loaded as the same, and so is
every file a save or an export leaves it in. The home directory is set,
not empty, and does not itself start with `~`. -/
theorem loading_normalises (dir : PathBuf) (hset : dir.components ≠ []) (hdir : dir.Expanded)
    {doc : ConfigDocument} (hrange : doc.InRange) {c : DomainConfig}
    (h : doc.intoDomain (some dir) = .ok c) :
    ∃ doc', ConfigDocument.tryFrom c = .ok doc' ∧ doc'.intoDomain (some dir) = .ok c ∧
      ∀ codec : Codec, (∀ document text, codec.toStringPretty document = .ok text →
          codec.fromStr text = .ok document) →
        ∀ (env fenv : Verdicts FileOp IoError), Works fenv → ∀ (s : ℕ × Disk) (n : ℕ),
          (∀ directory, (save (some dir) codec directory doc' env s).1 = .value () →
            (load (some dir) codec directory fenv
              (n, (save (some dir) codec directory doc' env s).2.2)).1 = .value c) ∧
          ∀ path, (exportFile (some dir) codec path c env s).1 = .value () →
            (importFile (some dir) codec path fenv
              (n, (exportFile (some dir) codec path c env s).2.2)).1 = .value c := by
  obtain ⟨doc', hwritten, hagain⟩ :=
    ConfigDocument.intoDomain_tryFrom_intoDomain hset hdir hrange h
  refine ⟨doc', hwritten, hagain, fun codec hcodec env fenv hfenv s n => ⟨?_, ?_⟩⟩
  · intro directory hsaved
    have hstored := (save_stores env : (save (some dir) codec directory doc').Triple env _ _ _ _)
      s.1 s.2 trivial
    rw [hsaved] at hstored
    obtain ⟨text, hser, hfile⟩ := hstored
    obtain ⟨c', hc', hload⟩ := load_of_serialized hfenv n hser
      (hcodec doc' text (serialized_cases hser).1) hfile
    rw [hload, Except.ok.inj (hc'.symm.trans hagain)]
  · intro path hsaved
    have hstored := (exportFile_stores env :
      (exportFile (some dir) codec path c).Triple env _ _ _ _) s.1 s.2 trivial
    rw [hsaved] at hstored
    obtain ⟨text, hexp, hfile⟩ := hstored
    obtain ⟨document, hdoc, htext, hlen⟩ := exported_cases hexp
    obtain rfl := Except.ok.inj (hdoc.symm.trans hwritten)
    exact importFile_of_text hfenv n hlen (hcodec document text htext) hagain hfile

/-! ## A key in the home directory -/

/-- A record of a host with a private key. -/
def keyRecord (path : PathBuf) : HostRecord where
  id := "lab"
  name := "Lab"
  hostname := "example.test"
  port := 22
  username := "operator"
  authType := .privateKey
  credentialRef := none
  identityFile := some path
  passphraseRef := none
  agentSocket := none
  hostKeyPolicy := .strict
  connectTimeoutMs := 8000
  keepaliveIntervalMs := 10000
  keepaliveMax := 3
  notes := ""

/-- The host with that key. -/
def keyHost (path : PathBuf) : SshHost := (keyRecord path).host (.privateKey path none)

def operatorHome : PathBuf := ⟨[.rootDir, .normal "home", .normal "operator"]⟩

/-- The key as it is written in the file, and as it is loaded. -/
def tildeKey : PathBuf := ⟨[.normal "~", .normal "id_ed25519"]⟩
def operatorKey : PathBuf := ⟨[.rootDir, .normal "home", .normal "operator", .normal "id_ed25519"]⟩

theorem inRange_keyRecord (path : PathBuf) : ConfigDocument.InRange { hosts := [keyRecord path] } where
  hosts := by
    intro r hr
    rw [List.mem_singleton.1 hr]
    have htimeout : (8000 : ℕ) < 2 ^ 64 := by decide
    have hinterval : (10000 : ℕ) < 2 ^ 64 := by decide
    exact ⟨htimeout, hinterval⟩
  tunnels := by simp

theorem loading_normalises_key :
    ({ hosts := [keyRecord tildeKey] } : ConfigDocument).intoDomain (some operatorHome) =
      .ok { hosts := [keyHost operatorKey] } ∧
    ∃ doc', ConfigDocument.tryFrom { hosts := [keyHost operatorKey] } = .ok doc' ∧
      doc'.intoDomain (some operatorHome) = .ok { hosts := [keyHost operatorKey] } := by
  have hload : ({ hosts := [keyRecord tildeKey] } : ConfigDocument).intoDomain (some operatorHome) =
      .ok { hosts := [keyHost operatorKey] } := by decide +kernel
  obtain ⟨doc', hwritten, hagain, -⟩ := loading_normalises operatorHome (by decide)
    (by simp [PathBuf.Expanded, operatorHome]) (inRange_keyRecord tildeKey) hload
  exact ⟨hload, doc', hwritten, hagain⟩

/-- A key in a directory called `~`, in the home directory. -/
def nestedKey : PathBuf := ⟨[.normal "~", .normal "~", .normal "id_ed25519"]⟩

/-- **An empty home directory is no place.** Set to the empty text it
does not start with `~`, and what is below it does: the key path is
expanded a second time. -/
theorem emptyHome_not_normal :
    PathBuf.Expanded ⟨[]⟩ ∧ ConfigDocument.InRange { hosts := [keyRecord nestedKey] } ∧
    ({ hosts := [keyRecord nestedKey] } : ConfigDocument).intoDomain (some ⟨[]⟩) =
      .ok { hosts := [keyHost tildeKey] } ∧
    ConfigDocument.tryFrom { hosts := [keyHost tildeKey] } =
      .ok { hosts := [keyRecord tildeKey] } ∧
    ({ hosts := [keyRecord tildeKey] } : ConfigDocument).intoDomain (some ⟨[]⟩) ≠
      .ok { hosts := [keyHost tildeKey] } :=
  ⟨by simp [PathBuf.Expanded], inRange_keyRecord nestedKey, by decide +kernel, by decide +kernel,
    by decide +kernel⟩

end TunnelWarden
