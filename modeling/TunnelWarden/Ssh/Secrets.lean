import TunnelWarden.Ssh.Model.Client

/-!
# Where secrets go

A server is sent a secret, or a proof of one, only after it has shown a
key that was trusted under the policy of its host, and only what the
configuration of that host names. A server behind others is spoken to at
all only after those before it have taken the login. All of it holds of
every run of the connector, whatever the keyring, the files, the
network, the user, the agent and the servers answer, and of a run that
is dropped halfway.
-/

namespace TunnelWarden

namespace Ssh

open Dialogue Manager

/-! ## What was said -/

/-- The hop a question is asked for. -/
def Question.hop : Question → ℕ
  | .secret hop _ | .readKey hop _ | .tcpConnect hop .. | .openChannel hop .. | .serverKey hop ..
  | .lookAt hop _ | .prompt hop .. | .saveLock hop | .learn hop .. | .joined hop | .newKeys hop
  | .password hop .. | .rsaHash hop | .publicKey hop .. | .namedPipe hop _ | .pageant hop
  | .identities hop | .sign hop .. | .disconnect hop | .cancelToken hop => hop

/-- The question proves to a server who asks it. -/
def Question.reveals : Question → Bool
  | .password .. | .publicKey .. | .sign .. => true
  | _ => false

/-- The question was asked and had this answer. -/
def Heard (log : List Said) (q : Question) (a : q.Answer) : Prop := ⟨q, a⟩ ∈ log

/-- The server took the proof. -/
def Took : Said → Prop
  | ⟨.password .., answer⟩ => answer = .ok (.ok true)
  | ⟨.publicKey .., answer⟩ => answer = .ok (.ok true)
  | ⟨.sign .., answer⟩ => answer = .ok (.ok true)
  | _ => False

/-- The server of the hop took a login. -/
def LoggedIn (log : List Said) (hop : ℕ) : Prop :=
  ∃ x ∈ log, x.question.hop = hop ∧ Took x

/-- The secret of the reference was loaded for the hop. -/
def Loaded (log : List Said) (hop : ℕ) (reference : SecretRef) (secret : String) : Prop :=
  Heard log (.secret hop reference) (.ok secret)

/-- The credential is what the authentication of the host names. -/
inductive Named (log : List Said) (hop : ℕ) : AuthConfig → SshCredential → Prop
  | password {reference : SecretRef} {secret : String} :
      Loaded log hop reference secret → Named log hop (.password reference) (.password secret)
  | privateKey {path : PathBuf} : Named log hop (.privateKey path none) (.privateKey none)
  | passphrase {path : PathBuf} {reference : SecretRef} {secret : String} :
      Loaded log hop reference secret →
      Named log hop (.privateKey path (some reference)) (.privateKey (some secret))
  | agent {socket : Option String} : Named log hop (.agent socket) .agent

variable (russh : Russh)

/-- The key is that of the file of a host, opened with its passphrase. -/
def KeyOf (log : List Said) (hop : ℕ) (host : SshHost) (passphrase : Option String)
    (key : PrivateKey) : Prop :=
  ∃ path reference pem, host.auth = .privateKey path reference ∧
    Heard log (.readKey hop path) (.ok pem) ∧ russh.decodeSecretKey pem passphrase = .ok key

/-- What is shown to a server is the host's own. -/
inductive Own (log : List Said) (hop : ℕ) (host : SshHost) : Question → Prop
  | password {secret : String} :
      Named log hop host.auth (.password secret) → Own log hop host (.password hop host.username secret)
  | publicKey {passphrase : Option String} {key : PrivateKey} {hash : Option String} :
      Named log hop host.auth (.privateKey passphrase) → KeyOf russh log hop host passphrase key →
      Own log hop host (.publicKey hop host.username key hash)
  | sign {ids : List AgentIdentity} {identity : AgentIdentity} {hash : Option String} :
      Named log hop host.auth .agent → Heard log (.identities hop) (.ok (.ok ids)) →
      identity ∈ ids.take maxAgentIdentities →
      Own log hop host (.sign hop host.username identity hash)

/-- A file was read for the key, and said this. -/
def FileSays (log : List Said) (hop : ℕ) (v : HostKeyVerifier) (key : PublicKey) (matched : Bool)
    (path : PathBuf) : Prop :=
  ∃ file look, Heard log (.lookAt hop path) (file, look) ∧
    v.checkPath russh.knownHosts key path file look = .ok matched

/-- The key was trusted: no check is made, or none of the files has an
objection and one of them knows the key, or the user trusts it. -/
def Trusted (log : List Said) (hop : ℕ) (v : HostKeyVerifier) (serverKey : PublicKeyOrCertificate) :
    Prop :=
  v.policy = .bypass ∨ ∃ key, serverKey = .publicKey key ∧
    (∀ path ∈ v.paths, ∃ matched, FileSays russh log hop v key matched path) ∧
    ((∃ path ∈ v.paths, FileSays russh log hop v key true path) ∨
      ∃ decision, decision ≠ .cancel ∧
        Heard log (.prompt hop v.host v.port key.algorithm key.fingerprint) (.ok (.decided decision)))

/-- The handshake with a server whose key was trusted is complete. -/
def Vouched (log : List Said) (hop : ℕ) (v : HostKeyVerifier) : Prop :=
  (∃ config serverKey, Heard log (.serverKey hop config v) (.ok (.ok serverKey)) ∧
    Trusted russh log hop v serverKey) ∧
  Heard log (.newKeys hop) (.ok (.ok ()))

/-! What was said stays said. -/

section Append

variable {russh} {log more : List Said} {hop : ℕ} {host : SshHost} {v : HostKeyVerifier}
variable {key : PublicKey} {path : PathBuf} {q : Question}

theorem Heard.append {a : q.Answer} (h : Heard log q a) : Heard (log ++ more) q a :=
  List.mem_append_left _ h

theorem heard_concat (log : List Said) (q : Question) (a : q.Answer) : Heard (log ++ [⟨q, a⟩]) q a :=
  List.mem_append_right _ (List.mem_singleton_self _)

theorem LoggedIn.append (h : LoggedIn log hop) : LoggedIn (log ++ more) hop := by
  obtain ⟨x, hx, htook⟩ := h
  exact ⟨x, List.mem_append_left _ hx, htook⟩

theorem Named.append {auth : AuthConfig} {credential : SshCredential}
    (h : Named log hop auth credential) : Named (log ++ more) hop auth credential := by
  cases h with
  | password h => exact .password h.append
  | privateKey => exact .privateKey
  | passphrase h => exact .passphrase h.append
  | agent => exact .agent

theorem KeyOf.append {passphrase : Option String} {key : PrivateKey}
    (h : KeyOf russh log hop host passphrase key) :
    KeyOf russh (log ++ more) hop host passphrase key := by
  obtain ⟨path, reference, pem, hauth, hread, hkey⟩ := h
  exact ⟨path, reference, pem, hauth, hread.append, hkey⟩

theorem FileSays.append {matched : Bool} (h : FileSays russh log hop v key matched path) :
    FileSays russh (log ++ more) hop v key matched path := by
  obtain ⟨file, look, hlook, hcheck⟩ := h
  exact ⟨file, look, hlook.append, hcheck⟩

theorem Trusted.append {serverKey : PublicKeyOrCertificate}
    (h : Trusted russh log hop v serverKey) : Trusted russh (log ++ more) hop v serverKey := by
  rcases h with hbypass | ⟨key, hkey, hfiles, hknown⟩
  · exact .inl hbypass
  · refine .inr ⟨key, hkey, fun path hpath => ?_, ?_⟩
    · obtain ⟨matched, hsays⟩ := hfiles path hpath
      exact ⟨matched, hsays.append⟩
    · rcases hknown with ⟨path, hpath, hsays⟩ | ⟨decision, hdecision, hprompt⟩
      · exact .inl ⟨path, hpath, hsays.append⟩
      · exact .inr ⟨decision, hdecision, hprompt.append⟩

theorem Vouched.append (h : Vouched russh log hop v) : Vouched russh (log ++ more) hop v := by
  obtain ⟨⟨config, serverKey, hshown, htrusted⟩, hkeys⟩ := h
  exact ⟨⟨config, serverKey, hshown.append, htrusted.append⟩, hkeys.append⟩

end Append

/-! ## What may be asked -/

variable (hosts : List SshHost) (paths : List PathBuf) (approval : Option HostKeyApproval)

/-- A proof may be sent to a server: it is its host's own, the server's
key was trusted, and the hops before it are logged in. -/
def Permitted (log : List Said) (q : Question) : Prop :=
  q.reveals = true →
    (∃ host, hosts[q.hop - 1]? = some host ∧ Own russh log q.hop host q ∧
      Vouched russh log q.hop (verifierOf host paths approval)) ∧
    ∀ j, 1 ≤ j → j < q.hop → LoggedIn log j

variable {russh hosts paths approval} {past : List Said} {hop : ℕ} {host : SshHost}
variable {v : HostKeyVerifier} {key : PublicKey} {α : Type}

/-- What proves nothing may be asked at any time. -/
theorem permitted_of_silent {q : Question} (hq : q.reveals = false) :
    Permitted russh hosts paths approval past q := by
  intro hreveals
  rw [hq] at hreveals
  cases hreveals

theorem settle_eq_ok {during : String} {answer : Except Interruption α} {a : α} :
    settle during answer = .ok a ↔ answer = .ok a := by
  rcases answer with _ | b
  · rename_i interruption
    cases interruption <;> simp [settle]
  · simp [settle]

theorem outcome_eq_ok {ε : Type} {during : String} {f : ε → SshConnectError}
    {answer : Except Interruption (Except ε α)} {a : α} :
    outcome during f answer = .ok a ↔ answer = .ok (.ok a) := by
  rcases answer with interruption | result
  · cases interruption <;> simp [outcome, settle, Except.bind]
  · cases result <;> simp [outcome, settle, Except.bind, Except.mapError]

/-! ## The host key -/

/-- What the first loop has read. -/
theorem checkPaths_meets (found : Bool) (todo : List PathBuf) :
    Meets (Permitted russh hosts paths approval)
      (fun r log => (∀ path ∈ todo, ∃ matched, FileSays russh log hop v key matched path) ∧
        (r = true → found = true ∨ ∃ path ∈ todo, FileSays russh log hop v key true path))
      (fun _ _ => True) (checkPaths russh hop v key found todo) past := by
  induction todo generalizing found past with
  | nil => exact ⟨by simp, fun h => .inl h⟩
  | cons path rest ih =>
      refine Meets.asked (permitted_of_silent rfl) fun ⟨file, look⟩ => ?_
      refine Meets.checked (fun matched hmatched => ?_) fun _ _ => trivial
      have hsays : FileSays russh (past ++ [⟨.lookAt hop path, (file, look)⟩]) hop v key matched
          path :=
        ⟨file, look, heard_concat _ _ _, mapError_eq_ok.1 hmatched⟩
      refine (ih (found || matched)).mono (fun _ _ hq => hq) (fun r more h => ?_) fun _ _ _ => trivial
      obtain ⟨hrest, hfound⟩ := h
      constructor
      · intro p hp
        rcases List.mem_cons.1 hp with rfl | hp
        · exact ⟨matched, hsays.append⟩
        · exact hrest p hp
      · intro hr
        rcases hfound hr with hor | ⟨p, hp, hknown⟩
        · rcases Bool.or_eq_true_iff.1 hor with hold | rfl
          · exact .inl hold
          · exact .inr ⟨path, List.mem_cons_self, hsays.append⟩
        · exact .inr ⟨p, List.mem_cons_of_mem _ hp, hknown⟩

/-- Saving a key shows nothing to anybody. -/
theorem recheckPaths_meets (todo : List PathBuf) :
    Meets (Permitted russh hosts paths approval) (fun _ _ => True) (fun _ _ => True)
      (recheckPaths russh hop v key todo) past := by
  induction todo generalizing past with
  | nil => trivial
  | cons path rest ih =>
      refine Meets.asked (permitted_of_silent rfl) fun ⟨file, look⟩ => ?_
      refine Meets.checked (fun matched _ => ?_) fun _ _ => trivial
      cases matched with
      | true => trivial
      | false => exact ih

theorem saveKey_meets (savePath : PathBuf) :
    Meets (Permitted russh hosts paths approval) (fun _ _ => True) (fun _ _ => True)
      (saveKey russh hop v key savePath) past := by
  refine Meets.seq (recheckPaths_meets v.paths) (fun _ _ _ => trivial) fun matched more _ => ?_
  cases matched with
  | true => trivial
  | false =>
      refine Meets.asked (permitted_of_silent rfl) fun learned => ?_
      cases learned with
      | none => trivial
      | some source => trivial

/-- The user trusts the key. -/
theorem askUser_meets (a : HostKeyApproval) :
    Meets (Permitted russh hosts paths approval)
      (fun _ log => ∃ decision, decision ≠ .cancel ∧
        Heard log (.prompt hop v.host v.port key.algorithm key.fingerprint) (.ok (.decided decision)))
      (fun _ _ => True) (russh.askUser hop v key a) past := by
  refine Meets.asked (permitted_of_silent rfl) fun answer => ?_
  refine Meets.checked (fun decided hdecided => ?_) fun _ _ => trivial
  rw [settle_eq_ok] at hdecided
  subst hdecided
  have hheard := heard_concat past
    (.prompt hop v.host v.port key.algorithm key.fingerprint) (.ok decided)
  cases decided with
  | unavailable => trivial
  | decided decision =>
      cases decision with
      | trustOnce => exact ⟨.trustOnce, by decide, hheard⟩
      | cancel => trivial
      | trustAndSave =>
          refine Meets.asked (permitted_of_silent rfl) fun locked => ?_
          refine Meets.checked (fun _ _ => ?_) fun _ _ => trivial
          refine Meets.seq (saveKey_meets a.savePath) (fun _ _ _ => trivial) fun _ more _ => ?_
          refine Meets.asked (permitted_of_silent rfl) fun ended => ?_
          refine Meets.ofExcept (fun _ _ => ?_) fun _ _ => trivial
          exact ⟨.trustAndSave, by decide, hheard.append.append.append⟩

/-- **A key that passes `check_server_key` was trusted.** -/
theorem checkServerKey_meets (serverKey : PublicKeyOrCertificate) :
    Meets (Permitted russh hosts paths approval)
      (fun _ log => Trusted russh log hop v serverKey) (fun _ _ => True)
      (russh.checkServerKey hop v serverKey) past := by
  unfold Russh.checkServerKey
  split
  · rename_i hbypass
    exact .inl hbypass
  · cases serverKey with
    | certificate key => trivial
    | publicKey key =>
        refine Meets.seq (checkPaths_meets false v.paths) (fun _ _ _ => trivial) ?_
        rintro found more ⟨hfiles, hknown⟩
        cases found with
        | true =>
            rcases hknown rfl with hfalse | hmatch
            · cases hfalse
            · exact .inr ⟨key, rfl, hfiles, .inl hmatch⟩
        | false =>
            rw [if_neg Bool.false_ne_true]
            split
            · trivial
            · refine (askUser_meets _).mono (fun _ _ hq => hq) (fun _ rest htrust => ?_)
                fun _ _ _ => trivial
              refine .inr ⟨key, rfl, fun path hpath => ?_, .inr htrust⟩
              obtain ⟨matched, hsays⟩ := hfiles path hpath
              exact ⟨matched, hsays.append⟩

theorem connectStream_meets (config : ClientConfig) :
    Meets (Permitted russh hosts paths approval) (fun _ log => Vouched russh log hop v)
      (fun _ _ => True) (connectStream russh hop config v) past := by
  refine Meets.asked (permitted_of_silent rfl) fun answer => ?_
  refine Meets.checked (fun serverKey hshown => ?_) fun _ _ => trivial
  rw [outcome_eq_ok] at hshown
  subst hshown
  have hheard := heard_concat past (.serverKey hop config v) (.ok (.ok serverKey))
  refine Meets.seq (checkServerKey_meets serverKey) (fun _ _ _ => trivial) fun _ more htrusted => ?_
  refine Meets.asked (permitted_of_silent rfl) fun ended => ?_
  refine Meets.ofExcept (fun _ hended => ?_) fun _ _ => trivial
  rw [outcome_eq_ok] at hended
  subst hended
  exact ⟨⟨config, serverKey, hheard.append.append, htrusted.append⟩, heard_concat _ _ _⟩

/-! ## The login -/

theorem loadPrivateKey_meets {path : PathBuf} {reference : Option SecretRef}
    {passphrase : Option String} (hauth : host.auth = .privateKey path reference) :
    Meets (Permitted russh hosts paths approval)
      (fun key log => KeyOf russh log hop host passphrase key) (fun _ _ => True)
      (loadPrivateKey russh hop path passphrase) past := by
  refine Meets.asked (permitted_of_silent rfl) fun answer => ?_
  refine Meets.checked (fun pem hpem => ?_) fun _ _ => trivial
  rw [mapError_eq_ok] at hpem
  subst hpem
  split
  · trivial
  · refine Meets.ofExcept (fun key hkey => ?_) fun _ _ => trivial
    exact ⟨path, reference, pem, hauth, heard_concat _ _ _, mapError_eq_ok.1 hkey⟩

/-- The key a login is made with, where there is one. -/
theorem privateKeyOf_meets {credential : SshCredential} :
    Meets (Permitted russh hosts paths approval)
      (fun key log => ∀ k, key = some k → ∃ passphrase, credential = .privateKey passphrase ∧
        KeyOf russh log hop host passphrase k)
      (fun _ _ => True) (privateKeyOf russh hop host credential) past := by
  unfold privateKeyOf
  split
  · rename_i path reference passphrase hauth
    refine Meets.seq (loadPrivateKey_meets hauth) (fun _ _ _ => trivial) fun key more hkey => ?_
    refine Meets.pure fun k hk => ?_
    obtain rfl := Option.some.inj hk
    exact ⟨passphrase, rfl, hkey⟩
  · refine Meets.pure fun k hk => ?_
    cases hk

/-- A hop may be logged in to: it is a host of the chain, its server is
vouched for, and the hops before it are logged in. -/
structure Ready (russh : Russh) (hosts : List SshHost) (paths : List PathBuf)
    (approval : Option HostKeyApproval) (log : List Said) (hop : ℕ) (host : SshHost) : Prop where
  member : hosts[hop - 1]? = some host
  vouched : Vouched russh log hop (verifierOf host paths approval)
  before : ∀ j, 1 ≤ j → j < hop → LoggedIn log j

theorem Ready.append {more : List Said} (h : Ready russh hosts paths approval past hop host) :
    Ready russh hosts paths approval (past ++ more) hop host :=
  ⟨h.member, h.vouched.append, fun j hj hlt => (h.before j hj hlt).append⟩

/-- The proof of a host's own is permitted. -/
theorem Ready.permitted (h : Ready russh hosts paths approval past hop host) {q : Question}
    (hq : q.hop = hop) (hown : Own russh past hop host q) :
    Permitted russh hosts paths approval past q := by
  subst hq
  exact fun _ => ⟨⟨host, h.member, hown, h.vouched⟩, h.before⟩

theorem connectAgentStream_meets {socket : Option String} :
    Meets (Permitted russh hosts paths approval) (fun _ _ => True) (fun _ _ => True)
      (connectAgentStream hop socket) past := by
  cases socket with
  | some path =>
      refine Meets.asked (permitted_of_silent rfl) fun answer => ?_
      exact Meets.ofExcept (fun _ _ => trivial) fun _ _ => trivial
  | none =>
      refine Meets.asked (permitted_of_silent rfl) fun answer => ?_
      refine Meets.checked (fun stream _ => ?_) fun _ _ => trivial
      cases stream with
      | ok _ => trivial
      | error _ =>
          refine Meets.asked (permitted_of_silent rfl) fun answer => ?_
          exact Meets.ofExcept (fun _ _ => trivial) fun _ _ => trivial

/-- Every identity that is tried is one of the agent's. -/
theorem tryIdentities_meets {ids : List AgentIdentity} {hash : Option String}
    (hready : Ready russh hosts paths approval past hop host)
    (hagent : Named past hop host.auth .agent) (hids : Heard past (.identities hop) (.ok (.ok ids)))
    (attempted : Bool) (todo : List AgentIdentity) (htodo : todo ⊆ ids.take maxAgentIdentities) :
    Meets (Permitted russh hosts paths approval) (fun _ log => LoggedIn log hop) (fun _ _ => True)
      (tryIdentities hop host.username hash attempted todo) past := by
  induction todo generalizing attempted past with
  | nil => trivial
  | cons identity rest ih =>
      have hown : Own russh past hop host (.sign hop host.username identity hash) :=
        .sign hagent hids (htodo List.mem_cons_self)
      refine Meets.asked (hready.permitted rfl hown) fun answer => ?_
      refine Meets.checked (fun success hsuccess => ?_) fun _ _ => trivial
      rw [outcome_eq_ok] at hsuccess
      subst hsuccess
      cases success with
      | true =>
          refine Meets.pure ?_
          exact ⟨⟨.sign hop host.username identity hash, .ok (.ok true)⟩,
            List.mem_append_right _ (List.mem_singleton_self _), rfl, rfl⟩
      | false =>
          exact ih hready.append hagent.append hids.append true
            fun x hx => htodo (List.mem_cons_of_mem _ hx)

theorem authenticateAgent_meets (hready : Ready russh hosts paths approval past hop host)
    (hagent : Named past hop host.auth .agent) :
    Meets (Permitted russh hosts paths approval) (fun _ log => LoggedIn log hop) (fun _ _ => True)
      (authenticateAgent hop host) past := by
  unfold authenticateAgent
  split
  · refine Meets.seq connectAgentStream_meets (fun _ _ _ => trivial) fun _ more _ => ?_
    refine Meets.asked (permitted_of_silent rfl) fun answer => ?_
    refine Meets.checked (fun ids hids => ?_) fun _ _ => trivial
    rw [outcome_eq_ok] at hids
    subst hids
    have hheard := heard_concat (past ++ more) (.identities hop) (.ok (.ok ids))
    refine Meets.asked (permitted_of_silent rfl) fun answer => ?_
    refine Meets.checked (fun hash _ => ?_) fun _ _ => trivial
    exact tryIdentities_meets hready.append.append.append hagent.append.append.append hheard.append
      false _ fun _ hx => hx
  · trivial

/-- **A login shows only what is the host's own**, and ends with a server
that took it. -/
theorem authenticate_meets {credential : SshCredential} {privateKey : Option PrivateKey}
    (hready : Ready russh hosts paths approval past hop host)
    (hnamed : Named past hop host.auth credential)
    (hkey : ∀ k, privateKey = some k → ∃ passphrase, credential = .privateKey passphrase ∧
      KeyOf russh past hop host passphrase k) :
    Meets (Permitted russh hosts paths approval) (fun _ log => LoggedIn log hop) (fun _ _ => True)
      (authenticate hop host credential privateKey) past := by
  cases credential with
  | agent => exact authenticateAgent_meets hready hnamed
  | password secret =>
      have hown : Own russh past hop host (.password hop host.username secret) := .password hnamed
      refine Meets.asked (hready.permitted rfl hown) fun answer => ?_
      refine Meets.checked (fun success hsuccess => ?_) fun _ _ => trivial
      rw [outcome_eq_ok] at hsuccess
      subst hsuccess
      cases success with
      | true =>
          exact ⟨⟨.password hop host.username secret, .ok (.ok true)⟩,
            List.mem_append_right _ (List.mem_singleton_self _), rfl, rfl⟩
      | false => trivial
  | privateKey passphrase =>
      cases privateKey with
      | none => trivial
      | some key =>
          obtain ⟨passphrase', hcredential, hof⟩ := hkey key rfl
          obtain rfl := SshCredential.privateKey.inj hcredential
          refine Meets.asked (permitted_of_silent rfl) fun answer => ?_
          refine Meets.checked (fun hash _ => ?_) fun _ _ => trivial
          have hown : Own russh (past ++ [⟨.rsaHash hop, answer⟩]) hop host
              (.publicKey hop host.username key hash) :=
            .publicKey hnamed.append hof.append
          refine Meets.asked (hready.append.permitted rfl hown) fun taken => ?_
          refine Meets.checked (fun success hsuccess => ?_) fun _ _ => trivial
          rw [outcome_eq_ok] at hsuccess
          subst hsuccess
          cases success with
          | true =>
              exact ⟨⟨.publicKey hop host.username key hash, .ok (.ok true)⟩,
                List.mem_append_right _ (List.mem_singleton_self _), rfl, rfl⟩
          | false => trivial

/-! ## One session -/

theorem cancelToken_meets {X : Unit → List Said → Prop} (hX : ∀ past, X () past) :
    Meets (Permitted russh hosts paths approval) X (fun _ _ => True) (cancelToken hop) past :=
  Meets.inquire (permitted_of_silent rfl) fun _ => hX _

/-- On a transport to a host whose turn it is, the login is made and
nothing else. -/
theorem finishConnection_meets {credential : SshCredential} {remote : Option RemoteEndpoint}
    {privateKey : Option PrivateKey} (hmember : hosts[hop - 1]? = some host)
    (hnamed : Named past hop host.auth credential)
    (hkey : ∀ k, privateKey = some k → ∃ passphrase, credential = .privateKey passphrase ∧
      KeyOf russh past hop host passphrase k)
    (hbefore : ∀ j, 1 ≤ j → j < hop → LoggedIn past j) :
    Meets (Permitted russh hosts paths approval) (fun _ log => LoggedIn log hop) (fun _ _ => True)
      (finishConnection russh hop host credential paths remote privateKey approval) past := by
  have hcancel : ∀ log, Meets (Permitted russh hosts paths approval) (fun _ _ => True)
      (fun _ _ => True) (cancelToken hop) log := fun _ => cancelToken_meets fun _ => trivial
  have hvouch : Meets (Permitted russh hosts paths approval)
      (fun _ log => Vouched russh log hop (verifierOf host paths approval)) (fun _ _ => True)
      (connectStream russh hop (clientConfig host) (verifierOf host paths approval)) past :=
    connectStream_meets _
  refine Meets.seq (hvouch.guarded fun _ _ _ => hcancel _) (fun _ _ _ => trivial)
    fun _ more hvouched => ?_
  have hready : Ready russh hosts paths approval (past ++ more) hop host :=
    ⟨hmember, hvouched, fun j hj hlt => (hbefore j hj hlt).append⟩
  have hlogin := authenticate_meets hready hnamed.append fun k hk => by
    obtain ⟨passphrase, hcredential, hof⟩ := hkey k hk
    exact ⟨passphrase, hcredential, hof.append⟩
  refine Meets.seq (hlogin.guarded fun _ _ _ => hcancel _) (fun _ _ _ => trivial)
    fun _ more hlogged => ?_
  exact Meets.pure hlogged

/-- The hop's settings are its host's, and its secrets are loaded. -/
structure Prepared (hosts : List SshHost) (paths : List PathBuf) (log : List Said) (hop : ℕ)
    (spec : HopSpec) : Prop where
  member : hosts[hop - 1]? = some spec.host
  named : Named log hop spec.host.auth spec.credential
  files : spec.knownHostsPaths = paths

theorem Prepared.append {more : List Said} {spec : HopSpec}
    (h : Prepared hosts paths past hop spec) : Prepared hosts paths (past ++ more) hop spec :=
  ⟨h.member, h.named.append, h.files⟩

theorem connectAuthenticated_meets {spec : HopSpec} {remote : Option RemoteEndpoint}
    (hspec : Prepared hosts paths past 1 spec) :
    Meets (Permitted russh hosts paths approval) (fun _ log => LoggedIn log 1) (fun _ _ => True)
      (connectAuthenticated russh 1 spec remote approval) past := by
  refine Meets.checked (fun _ _ => ?_) fun _ _ => trivial
  refine Meets.seq privateKeyOf_meets (fun _ _ _ => trivial) fun key more hkey => ?_
  refine Meets.asked (permitted_of_silent rfl) fun answer => ?_
  refine Meets.checked (fun _ _ => ?_) fun _ _ => trivial
  rw [hspec.files]
  refine finishConnection_meets hspec.member hspec.named.append.append (fun k hk => ?_)
    fun j hj hlt => ?_
  · obtain ⟨passphrase, hcredential, hof⟩ := hkey k hk
    exact ⟨passphrase, hcredential, hof.append⟩
  · omega

theorem connectViaChannel_meets {spec : HopSpec} {remote : Option RemoteEndpoint}
    (hspec : Prepared hosts paths past hop spec)
    (hbefore : ∀ j, 1 ≤ j → j < hop → LoggedIn past j) :
    Meets (Permitted russh hosts paths approval) (fun _ log => LoggedIn log hop) (fun _ _ => True)
      (connectViaChannel russh hop spec remote approval) past := by
  refine Meets.checked (fun _ _ => ?_) fun _ _ => trivial
  refine Meets.seq privateKeyOf_meets (fun _ _ _ => trivial) fun key more hkey => ?_
  rw [hspec.files]
  exact finishConnection_meets hspec.member hspec.named.append hkey
    fun j hj hlt => (hbefore j hj hlt).append

theorem openHopChannel_meets :
    Meets (Permitted russh hosts paths approval) (fun _ _ => True) (fun _ _ => True)
      (openHopChannel hop host) past := by
  refine Meets.checked (fun _ _ => ?_) fun _ _ => trivial
  refine Meets.asked (permitted_of_silent rfl) fun answer => ?_
  exact Meets.ofExcept (fun _ _ => trivial) fun _ _ => trivial

/-! ## The chain -/

theorem disconnect_meets :
    Meets (Permitted russh hosts paths approval) (fun _ _ => True) (fun _ _ => True)
      (disconnect hop) past := by
  refine Meets.asked (permitted_of_silent rfl) fun shutdown => ?_
  have hcancel : Meets (Permitted russh hosts paths approval) (fun _ _ => True) (fun _ _ => True)
      (cancelToken hop) (past ++ [⟨.disconnect hop, shutdown⟩]) := cancelToken_meets fun _ => trivial
  refine Meets.seq hcancel (fun _ _ _ => trivial) fun _ more _ => ?_
  rcases shutdown with _ | ⟨sent, joined⟩
  · trivial
  · rcases sent with _ | _
    · trivial
    · cases joined <;> trivial

theorem disconnectAll_meets (count : ℕ) :
    Meets (Permitted russh hosts paths approval) (fun _ _ => True) (fun _ _ => True)
      (disconnectAll count) past := by
  induction count generalizing past with
  | zero => trivial
  | succ count ih =>
      have hlast : Meets (Permitted russh hosts paths approval) (fun _ _ => True) (fun _ _ => True)
          ((disconnect (count + 1)).ignore : Connector Unit) past := Meets.ignore disconnect_meets
      exact Meets.seq hlast (fun _ _ _ => trivial) fun _ more _ => ih

/-- The hops that are left are logged in to one after the other. -/
theorem connectHops_meets {remote : Option RemoteEndpoint} {total number : ℕ}
    {rest : List HopSpec} {sessions : List Session} (hnumber : 1 ≤ number)
    (hcount : sessions.length + 1 = number)
    (hrest : ∀ i spec, rest[i]? = some spec → Prepared hosts paths past (number + i) spec)
    (hbefore : ∀ j, 1 ≤ j → j < number → LoggedIn past j) :
    Meets (Permitted russh hosts paths approval)
      (fun chain log => chain.length = sessions.length + rest.length ∧
        ∀ j, 1 ≤ j → j ≤ chain.length → LoggedIn log j)
      (fun _ _ => True) (connectHops russh remote approval total number rest sessions) past := by
  induction rest generalizing number sessions past with
  | nil =>
      refine Meets.pure ⟨by simp, fun j hj hle => hbefore j hj ?_⟩
      omega
  | cons spec rest ih =>
      have hclean : ∀ log, Meets (Permitted russh hosts paths approval) (fun _ _ => True)
          (fun _ _ => True) (disconnectAll sessions.length) log := fun _ => disconnectAll_meets _
      have hspec : Prepared hosts paths past number spec := hrest 0 spec rfl
      have hopen : Meets (Permitted russh hosts paths approval) (fun _ _ => True) (fun _ _ => True)
          ((openHopChannel number spec.host).mapError (SshChainError.hop number)) past :=
        Meets.mapError openHopChannel_meets
      refine Meets.seq (hopen.guarded fun _ _ _ => hclean _) (fun _ _ _ => trivial)
        fun _ more _ => ?_
      have hlogin : Meets (Permitted russh hosts paths approval)
          (fun _ log => LoggedIn log number) (fun _ _ => True)
          ((connectViaChannel russh number spec (if number = total then remote else none)
            approval).mapError (SshChainError.hop number)) (past ++ more) :=
        Meets.mapError (connectViaChannel_meets hspec.append
          fun j hj hlt => (hbefore j hj hlt).append)
      refine Meets.seq (hlogin.guarded fun _ _ _ => hclean _) (fun _ _ _ => trivial)
        fun session more' hlogged => ?_
      have hspecs : ∀ i s, rest[i]? = some s →
          Prepared hosts paths (past ++ more ++ more') (number + 1 + i) s := fun i s hs => by
        have hprepared := hrest (i + 1) s (by simpa using hs)
        rw [← Nat.add_assoc, Nat.add_right_comm] at hprepared
        exact hprepared.append.append
      have hlogins : ∀ j, 1 ≤ j → j < number + 1 → LoggedIn (past ++ more ++ more') j :=
        fun j hj hlt => by
          rcases Nat.lt_succ_iff_lt_or_eq.1 hlt with hlt | rfl
          · exact (hbefore j hj hlt).append.append
          · exact hlogged
      have hlength : (sessions ++ [session]).length = sessions.length + 1 :=
        List.length_append
      refine (ih (by omega) (by omega) hspecs hlogins).mono (fun _ _ hq => hq)
        (fun chain _ h => ?_) fun _ _ _ => trivial
      refine ⟨?_, h.2⟩
      rw [h.1, hlength, List.length_cons]
      omega

theorem connectWithApproval_meets {remote : Option RemoteEndpoint} {hops : List HopSpec}
    (hhops : ∀ i spec, hops[i]? = some spec → Prepared hosts paths past (1 + i) spec) :
    Meets (Permitted russh hosts paths approval)
      (fun chain log => chain.length = hops.length ∧
        ∀ j, 1 ≤ j → j ≤ chain.length → LoggedIn log j)
      (fun _ _ => True) (connectWithApproval russh hops remote approval) past := by
  unfold connectWithApproval
  split
  · trivial
  · rename_i first rest
    split
    · trivial
    · have hspec := hhops 0 first rfl
      have hlogin : Meets (Permitted russh hosts paths approval) (fun _ log => LoggedIn log 1)
          (fun _ _ => True) ((connectAuthenticated russh 1 first
            (if rest = [] then remote else none) approval).mapError (SshChainError.hop 1)) past :=
        Meets.mapError (connectAuthenticated_meets hspec)
      refine Meets.seq hlogin (fun _ _ _ => trivial) fun session more hlogged => ?_
      have hspecs : ∀ i s, rest[i]? = some s → Prepared hosts paths (past ++ more) (2 + i) s :=
        fun i s hs => by
          have hprepared := hhops (i + 1) s (by simpa using hs)
          rw [show 1 + (i + 1) = 2 + i by omega] at hprepared
          exact hprepared.append
      have hlogins : ∀ j, 1 ≤ j → j < 2 → LoggedIn (past ++ more) j := fun j hj hlt => by
        obtain rfl : j = 1 := by omega
        exact hlogged
      have hcount : [session].length + 1 = 2 := rfl
      have hchain : Meets (Permitted russh hosts paths approval)
          (fun chain log => chain.length = 1 + rest.length ∧
            ∀ j, 1 ≤ j → j ≤ chain.length → LoggedIn log j) (fun _ _ => True)
          (connectHops russh remote approval (first :: rest).length 2 rest [session])
          (past ++ more) := connectHops_meets (by decide) hcount hspecs hlogins
      refine hchain.mono (fun _ _ hq => hq) (fun chain _ h => ?_) fun _ _ _ => trivial
      refine ⟨?_, h.2⟩
      rw [h.1, List.length_cons, Nat.add_comm]

/-! ## The connector -/

theorem loadSecret_meets (reference : SecretRef) :
    Meets (Permitted russh hosts paths approval) (fun secret log => Loaded log hop reference secret)
      (fun _ _ => True) (loadSecret hop reference) past := by
  refine Meets.asked (permitted_of_silent rfl) fun answer => ?_
  refine Meets.ofExcept (fun secret hsecret => ?_) fun _ _ => trivial
  rw [mapError_eq_ok] at hsecret
  subst hsecret
  exact heard_concat _ _ _

theorem credentialOf_meets (auth : AuthConfig) :
    Meets (Permitted russh hosts paths approval)
      (fun credential log => Named log hop auth credential) (fun _ _ => True)
      (credentialOf hop auth) past := by
  cases auth with
  | agent socket => exact .agent
  | keyboardInteractive => trivial
  | password reference =>
      refine Meets.seq (loadSecret_meets reference) (fun _ _ _ => trivial) fun _ _ hloaded => ?_
      exact Meets.pure (.password hloaded)
  | privateKey path reference =>
      cases reference with
      | none => exact .privateKey
      | some reference =>
          refine Meets.seq (loadSecret_meets reference) (fun _ _ _ => trivial) fun _ _ hloaded => ?_
          exact Meets.pure (.passphrase hloaded)

/-- The hops are the hosts in their order, each with its own secrets. -/
theorem buildHops_meets (hop : ℕ) (rest : List SshHost)
    (hrest : ∀ i, rest[i]? = hosts[hop + i - 1]?) :
    Meets (Permitted russh hosts paths approval)
      (fun hops log => hops.length = rest.length ∧
        ∀ i spec, hops[i]? = some spec → Prepared hosts paths log (hop + i) spec)
      (fun _ _ => True) (buildHops paths hop rest) past := by
  induction rest generalizing hop past with
  | nil => exact ⟨rfl, fun i spec hspec => by cases hspec⟩
  | cons host rest ih =>
      refine Meets.seq (credentialOf_meets host.auth) (fun _ _ _ => trivial)
        fun credential more hnamed => ?_
      have hnext : ∀ i, rest[i]? = hosts[hop + 1 + i - 1]? := fun i => by
        have hlater := hrest (i + 1)
        rw [show hop + (i + 1) = hop + 1 + i by omega] at hlater
        simpa using hlater
      refine Meets.seq (ih (hop + 1) hnext) (fun _ _ _ => trivial) fun hops more' h => ?_
      refine Meets.pure ⟨by rw [List.length_cons, h.1, List.length_cons], fun i spec hspec => ?_⟩
      cases i with
      | zero =>
          obtain rfl := Option.some.inj hspec
          refine ⟨?_, hnamed.append, rfl⟩
          exact (hrest 0).symm
      | succ i =>
          have hprepared := h.2 i spec (by simpa using hspec)
          rw [show hop + 1 + i = hop + (i + 1) by omega] at hprepared
          exact hprepared

theorem connector_meets {remote : Option RemoteEndpoint} :
    Meets (Permitted russh hosts paths approval)
      (fun chain log => chain.length = hosts.length ∧
        ∀ j, 1 ≤ j → j ≤ chain.length → LoggedIn log j)
      (fun _ _ => True) (connector russh hosts paths remote approval) past := by
  have hindex : ∀ i, hosts[i]? = hosts[1 + i - 1]? := fun i => by
    rw [Nat.add_sub_cancel_left]
  refine Meets.seq (buildHops_meets 1 hosts hindex) (fun _ _ _ => trivial) fun hops more h => ?_
  refine (connectWithApproval_meets h.2).mono (fun _ _ hq => hq) (fun chain _ hchain => ?_)
    fun _ _ hx => hx
  exact ⟨hchain.1.trans h.1, hchain.2⟩

/-- **Secrets go to their own hosts.** In every run of the connector,
also one that breaks off, what proves to a server who asks is shown only
where it is the host's own, the server's key was trusted and the hops
before are logged in; and a chain that is made has a login at each hop. -/
theorem connector_secrets (env : Surroundings Question Question.Answer) (russh : Russh)
    (hosts : List SshHost) (paths : List PathBuf) (remote : Option RemoteEndpoint)
    (approval : Option HostKeyApproval) :
    (∀ pre q a post,
        ((connector russh hosts paths remote approval).play env []).2 = pre ++ ⟨q, a⟩ :: post →
        Permitted russh hosts paths approval pre q) ∧
      ∀ chain, ((connector russh hosts paths remote approval).play env []).1 = .ok chain →
        chain.length = hosts.length ∧ ∀ j, 1 ≤ j → j ≤ hosts.length →
          LoggedIn ((connector russh hosts paths remote approval).play env []).2 j := by
  have hmeets : Meets (Permitted russh hosts paths approval)
      (fun chain log => chain.length = hosts.length ∧
        ∀ j, 1 ≤ j → j ≤ chain.length → LoggedIn log j)
      (fun _ _ => True) (connector russh hosts paths remote approval) [] := connector_meets
  obtain ⟨hvalue, -, hasked⟩ := play_spec env hmeets
  refine ⟨fun pre q a post hlog => hasked pre q a post hlog (Nat.zero_le _), fun chain hchain => ?_⟩
  obtain ⟨hlength, hlogins⟩ := hvalue chain hchain
  exact ⟨hlength, fun j hj hle => hlogins j hj (hle.trans_eq hlength.symm)⟩

end Ssh

end TunnelWarden
