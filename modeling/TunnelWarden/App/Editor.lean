import Mathlib.Data.List.DropRight
import TunnelWarden.App.Model.Editor
import TunnelWarden.Common.NetRead

/-!
# What a form saves

A form shows an item and collects one. The items that come back as they
were shown are exactly those that some form can save (`reopened_iff`): a
saved item has trimmed texts and numbers that fit, and these are shown as
they are.
-/

namespace TunnelWarden

namespace App

variable {paths : PathText} {random : ℕ} {host : SshHost} {tunnel : TunnelConfig}
variable {secret : Option SecretUpdate} {known : List SecretRef}

/-! ## Texts and numbers -/

/-- What is trimmed stays as it is. -/
theorem trim_trim (s : String) : trim (trim s) = trim s := by
  let cs := s.toList.dropWhile isWhitespace
  have htrim : (trim s).toList = cs.rdropWhile isWhitespace := String.toList_ofList
  have hhead : (cs.rdropWhile isWhitespace).dropWhile isWhitespace =
      cs.rdropWhile isWhitespace := by
    rw [List.dropWhile_eq_self_iff]
    intro hlen
    -- it begins as the text without its first blanks does
    obtain ⟨rest, hrest⟩ := List.rdropWhile_prefix isWhitespace cs
    have hfront : ∀ hl : 0 < cs.length, ¬ isWhitespace cs[0] = true :=
      List.dropWhile_eq_self_iff.1 (List.dropWhile_idempotent isWhitespace s.toList)
    have hpos : 0 < cs.length := by
      have hcount := congrArg List.length hrest
      rw [List.length_append] at hcount
      omega
    have hsame : (cs.rdropWhile isWhitespace)[0] = cs[0] := by
      have hget : ((cs.rdropWhile isWhitespace) ++ rest)[0]? = cs[0]? := by rw [hrest]
      rw [List.getElem?_append_left hlen, List.getElem?_eq_getElem hlen,
        List.getElem?_eq_getElem hpos] at hget
      exact Option.some.inj hget
    rw [hsame]
    exact hfront hpos
  change String.ofList (((trim s).toList.dropWhile isWhitespace).rdropWhile isWhitespace) = _
  rw [htrim, hhead, List.rdropWhile_idempotent]
  rfl

/-- A number is read back from its digits. -/
theorem number_digits {bound n : ℕ} (h : n < bound) (error : String) :
    number bound (digits 10 n) error = .ok n := by
  have hread : readDigits 10 0 0 (Nat.toDigits 10 n) = (n, (Nat.toDigits 10 n).length, []) := by
    rw [readDigits_of_isDigit fun c hc => Nat.isDigit_of_mem_toDigits (by decide) (by decide) hc,
      Nat.ofDigitChars_ten_toDigits, Nat.zero_add]
  have hlen : (Nat.toDigits 10 n).length ≠ 0 := Nat.ne_of_gt Nat.length_toDigits_pos
  have hsign : (Nat.toDigits 10 n).head? ≠ some '+' := by
    intro hplus
    have hdigit : ('+').isDigit = true :=
      Nat.isDigit_of_mem_toDigits (by decide) (by decide) (List.mem_of_head? hplus)
    cases hdigit
  unfold number Import.parseUnsigned digits
  rw [String.toList_ofList, if_neg hsign]
  dsimp only
  rw [hread]
  dsimp only
  rw [if_pos ⟨hlen, h⟩]

theorem number_eq_ok {bound n : ℕ} {text error : String} (h : number bound text error = .ok n) :
    n < bound := by
  unfold number Import.parseUnsigned at h
  dsimp only at h
  split at h
  · rename_i hread
    obtain rfl := Except.ok.inj h
    split at hread
    · split at hread
      · rename_i hboth
        obtain rfl := Option.some.inj hread
        exact hboth.2
      · cases hread
    · cases hread
  · cases h

theorem asMillis_fromMillis (ms : ℕ) : (Duration.fromMillis ms).asMillis = ms :=
  Nat.mul_div_cancel ms (by decide)

/-! ## The form of a host -/

/-- An authentication that is shown as it is. -/
def AuthConfig.Settled (paths : PathText) : AuthConfig → Prop
  | .password reference => reference.val ≠ "pending"
  | .privateKey path _ =>
    ∃ text, paths.toStr path = some text ∧ TunnelConfig.blank text = false
  | .agent (some socket) => trim socket = socket ∧ socket ≠ ""
  | .agent none => True
  | .keyboardInteractive => True

/-- **A host that is shown as it is.** -/
structure SshHost.Settled (paths : PathText) (host : SshHost) : Prop where
  name : trim host.name = host.name
  hostname : trim host.hostname = host.hostname
  username : trim host.username = host.username
  port : host.port < 2 ^ 16
  auth : AuthConfig.Settled paths host.auth
  connectTimeout : ∃ ms < 2 ^ 64, host.connectTimeout = .fromMillis ms
  keepaliveInterval : ∃ ms < 2 ^ 64, host.keepaliveInterval = .fromMillis ms
  keepaliveMax : host.keepaliveMax < 2 ^ 32

namespace HostEditor

variable {e : HostEditor} {auth : AuthConfig} {fresh : SecretRef}

/-- **What a form of a host collects.** -/
theorem collect_eq_ok : e.collect paths random = .ok (host, secret) ↔
    ∃ port auth connect keepalive most,
      number (2 ^ 16) e.port "SSH port must be between 1 and 65535" = .ok port ∧
      e.collectAuth paths (newSecretRef random) = .ok (auth, secret) ∧
      number (2 ^ 64) e.connectTimeoutMs
        "Connect timeout must be a number of milliseconds" = .ok connect ∧
      number (2 ^ 64) e.keepaliveIntervalMs
        "Keepalive interval must be a number of milliseconds" = .ok keepalive ∧
      number (2 ^ 32) e.keepaliveMax "Keepalive max must be a number" = .ok most ∧
      host = ⟨e.id, trim e.name, trim e.hostname, port, trim e.username, auth, e.policy,
        .fromMillis connect, .fromMillis keepalive, most, e.notes⟩ := by
  unfold collect
  simp only [bind_eq_ok]
  constructor
  · rintro ⟨port, hport, ⟨auth, update⟩, hauth, connect, hconnect, keepalive, hkeepalive, most,
      hmost, heq⟩
    obtain ⟨rfl, rfl⟩ := Prod.mk.inj (Except.ok.inj heq)
    exact ⟨port, auth, connect, keepalive, most, hport, hauth, hconnect, hkeepalive, hmost, rfl⟩
  · rintro ⟨port, auth, connect, keepalive, most, hport, hauth, hconnect, hkeepalive, hmost, rfl⟩
    exact ⟨port, hport, (auth, secret), hauth, connect, hconnect, keepalive, hkeepalive, most,
      hmost, rfl⟩

theorem newSecretRef_ne_pending (random : ℕ) : (newSecretRef random).val ≠ "pending" := by
  intro h
  have hhead := congrArg (fun s => s.toList.head?) h
  simp [newSecretRef, String.toList_append] at hhead

/-- What is collected is shown as it is. -/
theorem settled_of_collectAuth (hfresh : fresh.val ≠ "pending")
    (h : e.collectAuth paths fresh = .ok (auth, secret)) : AuthConfig.Settled paths auth := by
  unfold collectAuth at h
  split at h
  · rename_i reference _
    split_ifs at h with hmissing hempty
    · obtain ⟨rfl, -⟩ := Prod.mk.inj (Except.ok.inj h)
      exact fun hpending => hmissing ⟨hempty, hpending⟩
    · obtain ⟨rfl, -⟩ := Prod.mk.inj (Except.ok.inj h)
      exact hfresh
  · obtain ⟨text, htext, hblank⟩ := paths.toStr_ofStr e.identityFile
    split_ifs at h with hfile hempty
    · obtain ⟨rfl, -⟩ := Prod.mk.inj (Except.ok.inj h)
      exact ⟨text, htext, hblank.trans (by simpa using hfile)⟩
    · obtain ⟨rfl, -⟩ := Prod.mk.inj (Except.ok.inj h)
      exact ⟨text, htext, hblank.trans (by simpa using hfile)⟩
  · dsimp only at h
    obtain ⟨rfl, -⟩ := Prod.mk.inj (Except.ok.inj h)
    split
    · trivial
    · rename_i hsocket
      exact ⟨trim_trim _, hsocket⟩
  · obtain ⟨rfl, -⟩ := Prod.mk.inj (Except.ok.inj h)
    trivial

theorem settled_of_collect (h : e.collect paths random = .ok (host, secret)) :
    SshHost.Settled paths host := by
  obtain ⟨port, auth, connect, keepalive, most, hport, hauth, hconnect, hkeepalive, hmost, rfl⟩ :=
    collect_eq_ok.1 h
  exact {
    name := trim_trim _
    hostname := trim_trim _
    username := trim_trim _
    port := number_eq_ok hport
    auth := settled_of_collectAuth (newSecretRef_ne_pending random) hauth
    connectTimeout := ⟨connect, number_eq_ok hconnect, rfl⟩
    keepaliveInterval := ⟨keepalive, number_eq_ok hkeepalive, rfl⟩
    keepaliveMax := number_eq_ok hmost }

/-- A form that was just opened collects the authentication it shows. -/
theorem collectAuth_new (h : AuthConfig.Settled paths host.auth) :
    (new paths host.id (some host)).collectAuth paths fresh = .ok (host.auth, none) := by
  have hauth : (new paths host.id (some host)).auth = host.auth := rfl
  cases hkind : host.auth with
  | password reference =>
      rw [hkind] at h
      have hpending : reference.val ≠ "pending" := h
      simp only [collectAuth, new, Option.map_some, Option.getD_some, hkind, hpending, and_false,
        if_false, if_true]
  | privateKey path passphrase =>
      rw [hkind] at h
      obtain ⟨text, htext, hblank⟩ := h
      have hpath : paths.ofStr text = path := paths.ofStr_toStr path text htext
      simp only [collectAuth, new, Option.map_some, Option.getD_some, hkind, htext, hblank,
        Bool.false_eq_true, if_false, if_true, hpath]
  | agent socket =>
      rw [hkind] at h
      cases socket with
      | none =>
          have hempty : trim "" = "" := by decide
          simp only [collectAuth, new, Option.map_some, Option.getD_some, hkind, Option.getD_none,
            hempty, if_true]
      | some socket =>
          obtain ⟨htrim, hne⟩ := h
          simp only [collectAuth, new, Option.map_some, Option.getD_some, hkind, htrim, if_neg hne]
  | keyboardInteractive =>
      simp only [collectAuth, new, Option.map_some, Option.getD_some, hkind]

theorem collect_new (h : SshHost.Settled paths host) :
    (new paths host.id (some host)).collect paths random = .ok (host, none) := by
  obtain ⟨connect, hconnect, hconnectTimeout⟩ := h.connectTimeout
  obtain ⟨keepalive, hkeepalive, hkeepaliveInterval⟩ := h.keepaliveInterval
  refine collect_eq_ok.2 ⟨host.port, host.auth, connect, keepalive, host.keepaliveMax,
    number_digits h.port _, collectAuth_new h.auth, ?_, ?_, number_digits h.keepaliveMax _, ?_⟩
  · have hshown : (new paths host.id (some host)).connectTimeoutMs = digits 10 connect := by
      change digits 10 host.connectTimeout.asMillis = _
      rw [hconnectTimeout, asMillis_fromMillis]
    rw [hshown]
    exact number_digits hconnect _
  · have hshown : (new paths host.id (some host)).keepaliveIntervalMs = digits 10 keepalive := by
      change digits 10 host.keepaliveInterval.asMillis = _
      rw [hkeepaliveInterval, asMillis_fromMillis]
    rw [hshown]
    exact number_digits hkeepalive _
  · rw [← hconnectTimeout, ← hkeepaliveInterval]
    change host = ⟨host.id, trim host.name, trim host.hostname, host.port, trim host.username,
      host.auth, host.hostKeyPolicy, host.connectTimeout, host.keepaliveInterval,
      host.keepaliveMax, host.notes⟩
    rw [h.name, h.hostname, h.username]

/-! ## Its secret -/

/-- The secret that stands in the form. -/
def typed (e : HostEditor) : String :=
  match e.auth with
  | .password _ => e.password
  | .privateKey _ _ => e.passphrase
  | .agent _ | .keyboardInteractive => ""

/-- **A secret that is collected** is the one that stands in the form,
under the reference that was drawn. -/
theorem secret_of_collectAuth (h : e.collectAuth paths fresh = .ok (auth, secret)) :
    ∀ s ∈ secret, s = ⟨fresh, e.typed⟩ ∧ e.typed ≠ "" := by
  intro s hs
  unfold collectAuth at h
  split at h
  · rename_i reference hpassword
    have htyped : e.typed = e.password := by rw [typed, hpassword]
    split_ifs at h with hmissing hempty
    · obtain ⟨-, rfl⟩ := Prod.mk.inj (Except.ok.inj h)
      cases hs
    · obtain ⟨-, rfl⟩ := Prod.mk.inj (Except.ok.inj h)
      obtain rfl := Option.some.inj hs
      rw [htyped]
      exact ⟨rfl, hempty⟩
  · rename_i path passphrase hkey
    have htyped : e.typed = e.passphrase := by rw [typed, hkey]
    split_ifs at h with hfile hempty
    · obtain ⟨-, rfl⟩ := Prod.mk.inj (Except.ok.inj h)
      cases hs
    · obtain ⟨-, rfl⟩ := Prod.mk.inj (Except.ok.inj h)
      obtain rfl := Option.some.inj hs
      rw [htyped]
      exact ⟨rfl, hempty⟩
  · obtain ⟨-, rfl⟩ := Prod.mk.inj (Except.ok.inj h)
    cases hs
  · obtain ⟨-, rfl⟩ := Prod.mk.inj (Except.ok.inj h)
    cases hs

/-- A text of the form is none, or one of these. -/
structure TypedIn (texts : List String) (e : HostEditor) : Prop where
  password : e.password = "" ∨ e.password ∈ texts
  passphrase : e.passphrase = "" ∨ e.passphrase ∈ texts

theorem typedIn_new (texts : List String) (id : HostId) (existing : Option SshHost) :
    (new paths id existing).TypedIn texts := ⟨.inl rfl, .inl rfl⟩

theorem TypedIn.act {texts : List String} (h : e.TypedIn texts) (action : HostAction)
    (hpassword : ∀ text, action = .enter .password text → text ∈ texts)
    (hpassphrase : ∀ text, action = .enter .passphrase text → text ∈ texts) :
    (e.act action).TypedIn texts := by
  cases action with
  | auth kind => exact ⟨h.password, h.passphrase⟩
  | policy policy => exact ⟨h.password, h.passphrase⟩
  | enter field text =>
      cases field with
      | password => exact ⟨.inr (hpassword text rfl), h.passphrase⟩
      | passphrase => exact ⟨h.password, .inr (hpassphrase text rfl)⟩
      | _ => exact ⟨h.password, h.passphrase⟩

theorem TypedIn.typed {texts : List String} (h : e.TypedIn texts) (hne : e.typed ≠ "") :
    e.typed ∈ texts := by
  unfold HostEditor.typed at hne ⊢
  split
  · rename_i reference hpassword
    rw [hpassword] at hne
    exact h.password.resolve_left hne
  · rename_i path passphrase hkey
    rw [hkey] at hne
    exact h.passphrase.resolve_left hne
  · rename_i socket hagent
    rw [hagent] at hne
    exact absurd rfl hne
  · rename_i hinteractive
    rw [hinteractive] at hne
    exact absurd rfl hne

/-! ## Its references -/

/-- The form refers to credentials that are known, or to one that is yet
to be entered. -/
structure Holds (known : List SecretRef) (e : HostEditor) : Prop where
  original : ∀ reference ∈ e.originalAuth.references, reference ∈ known
  auth : e.auth = .password ⟨"pending"⟩ ∨ ∀ reference ∈ e.auth.references, reference ∈ known

theorem holds_new (id : HostId) {existing : Option SshHost}
    (h : ∀ host, existing = some host → ∀ reference ∈ host.auth.references, reference ∈ known) :
    (new paths id existing).Holds known := by
  cases existing with
  | none => exact ⟨fun _ hr => (List.not_mem_nil hr).elim, .inr fun _ hr => (List.not_mem_nil hr).elim⟩
  | some host => exact ⟨h host rfl, .inr (h host rfl)⟩

/-- **Whatever the user does in the form**, it takes up no reference of
another host. -/
theorem Holds.act (h : e.Holds known) (action : HostAction) : (e.act action).Holds known := by
  cases action with
  | enter field text => cases field <;> exact ⟨h.original, h.auth⟩
  | policy policy => exact ⟨h.original, h.auth⟩
  | auth kind =>
      refine ⟨h.original, ?_⟩
      change e.choose kind = _ ∨ ∀ reference ∈ (e.choose kind).references, reference ∈ known
      cases kind with
      | agent => exact .inr fun _ hr => (List.not_mem_nil hr).elim
      | keyboardInteractive => exact .inr fun _ hr => (List.not_mem_nil hr).elim
      | privateKey =>
          cases horiginal : e.originalAuth with
          | privateKey path passphrase =>
              simp only [choose, horiginal]
              exact .inr fun reference hr => h.original reference (horiginal ▸ hr)
          | _ =>
              simp only [choose, horiginal]
              exact .inr fun _ hr => (List.not_mem_nil hr).elim
      | password =>
          cases horiginal : e.originalAuth with
          | password reference =>
              simp only [choose, horiginal]
              exact .inr fun reference hr => h.original reference (horiginal ▸ hr)
          | _ =>
              left
              simp only [choose, horiginal]

/-- The references that are collected are known, or go with the secret
that was entered. -/
theorem Holds.collectAuth (h : e.Holds known) (hok : e.collectAuth paths fresh = .ok (auth, secret)) :
    (∀ reference ∈ auth.references, reference ∈ known ∨ ∃ s ∈ secret, s.reference = reference) ∧
      ∀ s ∈ secret, s.reference = fresh ∧ s.value ≠ "" ∧ fresh ∈ auth.references := by
  unfold HostEditor.collectAuth at hok
  have hauth := h.auth
  split at hok
  · rename_i reference hpassword
    split_ifs at hok with hmissing hempty
    · obtain ⟨rfl, rfl⟩ := Prod.mk.inj (Except.ok.inj hok)
      refine ⟨fun r hr => .inl ?_, fun s hs => nomatch hs⟩
      rw [hpassword] at hauth
      rcases hauth with hpending | hknown
      · obtain rfl := AuthConfig.password.inj hpending
        exact absurd ⟨hempty, rfl⟩ hmissing
      · exact hknown r hr
    · obtain ⟨rfl, rfl⟩ := Prod.mk.inj (Except.ok.inj hok)
      refine ⟨fun r hr => .inr ⟨_, rfl, (List.mem_singleton.1 hr).symm⟩, fun s hs => ?_⟩
      obtain rfl := Option.some.inj hs
      exact ⟨rfl, hempty, List.mem_singleton_self _⟩
  · rename_i path passphrase hkey
    split_ifs at hok with hfile hempty
    · obtain ⟨rfl, rfl⟩ := Prod.mk.inj (Except.ok.inj hok)
      refine ⟨fun r hr => .inl ?_, fun s hs => nomatch hs⟩
      rw [hkey] at hauth
      exact hauth.resolve_left nofun r hr
    · obtain ⟨rfl, rfl⟩ := Prod.mk.inj (Except.ok.inj hok)
      refine ⟨fun r hr => .inr ⟨_, rfl, (List.mem_singleton.1 hr).symm⟩, fun s hs => ?_⟩
      obtain rfl := Option.some.inj hs
      exact ⟨rfl, hempty, List.mem_singleton_self _⟩
  · dsimp only at hok
    obtain ⟨rfl, rfl⟩ := Prod.mk.inj (Except.ok.inj hok)
    exact ⟨fun r hr => (List.not_mem_nil hr).elim, fun s hs => nomatch hs⟩
  · obtain ⟨rfl, rfl⟩ := Prod.mk.inj (Except.ok.inj hok)
    exact ⟨fun r hr => (List.not_mem_nil hr).elim, fun s hs => nomatch hs⟩

end HostEditor

/-! ## The form of a tunnel -/

/-- **A tunnel that is shown as it is.** -/
structure TunnelConfig.Settled (tunnel : TunnelConfig) : Prop where
  name : trim tunnel.name = tunnel.name
  localHost : trim tunnel.localEnd.host = tunnel.localEnd.host
  localPort : tunnel.localEnd.port < 2 ^ 16
  remote : (tunnel.mode = .dynamic ∧ tunnel.remote = none) ∨
    (tunnel.mode ≠ .dynamic ∧ ∃ remote, tunnel.remote = some remote ∧
      trim remote.host = remote.host ∧ remote.port < 2 ^ 16)

namespace TunnelEditor

variable {e : TunnelEditor}

/-- **What a form of a tunnel collects.** -/
theorem collect_eq_ok : e.collect = .ok tunnel ↔
    ∃ port remote, number (2 ^ 16) e.localPort "Local port must be between 0 and 65535" = .ok port ∧
      e.collectRemote = .ok remote ∧
      tunnel = ⟨e.id, trim e.name, e.groupId, e.mode, e.jumpChain, ⟨trim e.localHost, port⟩, remote,
        e.autoStart, e.reconnect, e.description⟩ := by
  unfold collect
  simp only [bind_eq_ok]
  constructor
  · rintro ⟨port, hport, remote, hremote, heq⟩
    exact ⟨port, remote, hport, hremote, (Except.ok.inj heq).symm⟩
  · rintro ⟨port, remote, hport, hremote, rfl⟩
    exact ⟨port, hport, remote, hremote, rfl⟩

theorem settled_of_collect (h : e.collect = .ok tunnel) : TunnelConfig.Settled tunnel := by
  obtain ⟨port, remote, hport, hremote, rfl⟩ := collect_eq_ok.1 h
  refine ⟨trim_trim _, trim_trim _, number_eq_ok hport, ?_⟩
  unfold collectRemote at hremote
  by_cases hmode : e.mode = .dynamic
  · rw [if_pos hmode] at hremote
    exact .inl ⟨hmode, (Except.ok.inj hremote).symm⟩
  · rw [if_neg hmode] at hremote
    obtain ⟨port', hport', heq⟩ := bind_eq_ok.1 hremote
    obtain rfl := Except.ok.inj heq
    exact .inr ⟨hmode, _, rfl, trim_trim _, number_eq_ok hport'⟩

theorem collect_new (h : TunnelConfig.Settled tunnel) :
    (new tunnel.id (some tunnel)).collect = .ok tunnel := by
  refine collect_eq_ok.2 ⟨tunnel.localEnd.port, tunnel.remote, number_digits h.localPort _, ?_, ?_⟩
  · unfold collectRemote
    have hmode : (new tunnel.id (some tunnel)).mode = tunnel.mode := rfl
    rw [hmode]
    rcases h.remote with ⟨hdynamic, hnone⟩ | ⟨hother, remote, hsome, htrim, hport⟩
    · rw [if_pos hdynamic, hnone]
    · rw [if_neg hother]
      refine bind_eq_ok.2 ⟨remote.port, ?_, ?_⟩
      · have hshown : (new tunnel.id (some tunnel)).remotePort = digits 10 remote.port := by
          simp only [new, Option.bind_some, hsome, Option.map_some, Option.getD_some]
        rw [hshown]
        exact number_digits hport _
      · have hshown : (new tunnel.id (some tunnel)).remoteHost = remote.host := by
          simp only [new, Option.bind_some, hsome, Option.map_some, Option.getD_some]
        rw [hshown, htrim, hsome]
        rfl
  · change tunnel = ⟨tunnel.id, trim tunnel.name, tunnel.groupId, tunnel.mode, tunnel.jumpChain,
      ⟨trim tunnel.localEnd.host, tunnel.localEnd.port⟩, tunnel.remote, tunnel.autoStart,
      tunnel.reconnect, tunnel.description⟩
    rw [h.name, h.localHost]

end TunnelEditor

/-- Paths of one name. -/
def PathText.names : PathText where
  toStr path := match path.components with
    | [.normal name] => some name
    | _ => none
  ofStr := PathBuf.ofName
  ofStr_toStr path text h := by
    obtain ⟨components⟩ := path
    dsimp only at h
    split at h
    · obtain rfl := Option.some.inj h
      rfl
    · cases h
  toStr_ofStr text := ⟨text, rfl, rfl⟩

/-- **What a form saves is what it shows.** A host comes back unchanged
from a form that was opened on it, with no secret, exactly where some form,
whatever was entered and chosen in it, can save this host; and so does a
tunnel. -/
theorem reopened_iff (paths : PathText) (random : ℕ) (host : SshHost) (tunnel : TunnelConfig) :
    ((HostEditor.new paths host.id (some host)).collect paths random = .ok (host, none) ↔
      ∃ (e : HostEditor) (drawn : ℕ) (secret : Option SecretUpdate),
        e.collect paths drawn = .ok (host, secret)) ∧
    ((TunnelEditor.new tunnel.id (some tunnel)).collect = .ok tunnel ↔
      ∃ e : TunnelEditor, e.collect = .ok tunnel) := by
  refine ⟨⟨fun h => ⟨_, random, none, h⟩, ?_⟩, ⟨fun h => ⟨_, h⟩, ?_⟩⟩
  · rintro ⟨e, drawn, secret, h⟩
    exact HostEditor.collect_new (HostEditor.settled_of_collect h)
  · rintro ⟨e, h⟩
    exact TunnelEditor.collect_new (TunnelEditor.settled_of_collect h)

theorem reopened_iff_names :
    ((HostEditor.new .names labHost.id (some labHost)).collect .names 7 = .ok (labHost, none) ↔
      ∃ (e : HostEditor) (drawn : ℕ) (secret : Option SecretUpdate),
        e.collect .names drawn = .ok (labHost, secret)) ∧
    ((TunnelEditor.new socksTunnel.id (some socksTunnel)).collect = .ok socksTunnel ↔
      ∃ e : TunnelEditor, e.collect = .ok socksTunnel) :=
  reopened_iff .names 7 labHost socksTunnel

end App

end TunnelWarden
