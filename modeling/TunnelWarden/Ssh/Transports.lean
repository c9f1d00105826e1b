import TunnelWarden.Ssh.Model.Client

/-!
# The transports of a chain

A transport is live from its handshake until its token is cancelled. The
transports that are live are those of the first hops, and how many of
them there are is fixed by what is asked: nothing is asked of a server
whose transport is gone, or of one with another hop open above it. A
chain that fails leaves none of them live, and one that is made leaves
them all.
-/

namespace TunnelWarden

namespace Ssh

open Dialogue

/-- What an exchange does to the live transports. -/
def transport (open' : List ℕ) (x : Said) : List ℕ :=
  match x.question with
  | .serverKey hop .. => open' ++ [hop]
  | .cancelToken hop => open'.erase hop
  | _ => open'

/-- The transports that are live after what was said. -/
def live (log : List Said) : List ℕ := log.foldl transport []

/-- The first hops. -/
def upTo (count : ℕ) : List ℕ := List.range' 1 count

/-- How many transports stand while the question is asked. -/
def Question.standing : Question → ℕ
  | .secret .. => 0
  | .readKey hop _ | .tcpConnect hop .. | .openChannel hop .. | .serverKey hop .. => hop - 1
  | .lookAt hop _ | .prompt hop .. | .saveLock hop | .learn hop .. | .joined hop | .newKeys hop
  | .password hop .. | .rsaHash hop | .publicKey hop .. | .namedPipe hop _ | .pageant hop
  | .identities hop | .sign hop .. | .disconnect hop | .cancelToken hop => hop

/-- The transports are those the question needs. -/
def Standing (log : List Said) (q : Question) : Prop := live log = upTo q.standing

@[simp]
theorem live_concat (log : List Said) (x : Said) : live (log ++ [x]) = transport (live log) x := by
  unfold live
  rw [List.foldl_append, List.foldl_cons, List.foldl_nil]

/-- The next transport comes last. -/
theorem upTo_succ (count : ℕ) : upTo (count + 1) = upTo count ++ [count + 1] := by
  unfold upTo
  rw [List.range'_concat, Nat.one_mul, Nat.add_comm 1 count]

theorem not_mem_upTo (count : ℕ) : count + 1 ∉ upTo count := by
  unfold upTo
  rw [List.mem_range'_1]
  omega

/-- The last transport goes first. -/
theorem upTo_erase (count : ℕ) : (upTo (count + 1)).erase (count + 1) = upTo count := by
  rw [upTo_succ, List.erase_append_right _ (not_mem_upTo count), List.erase_cons_head,
    List.append_nil]

/-! ## How many stand -/

section Moves

variable {ε ε' α β : Type}

/-- From `start` transports, `stop` are left with a value and `failed`
with an error, and what is asked is asked of those that stand. -/
def Moves (start stop failed : ℕ) (d : Dialogue Question Question.Answer ε α) : Prop :=
  ∀ past, live past = upTo start →
    Meets Standing (fun _ log => live log = upTo stop) (fun _ log => live log = upTo failed) d past

variable {start middle stop failed : ℕ} {d : Dialogue Question Question.Answer ε α}

theorem Moves.pure {a : α} : Moves start start failed (.done a : Dialogue _ Question.Answer ε α) :=
  fun _ hlive => hlive

theorem Moves.fail {e : ε} : Moves start stop start (.fail e : Dialogue _ Question.Answer ε α) :=
  fun _ hlive => hlive

theorem Moves.ofExcept {r : Except ε α} :
    Moves start start start (Dialogue.ofExcept r : Dialogue _ Question.Answer ε α) := by
  intro past hlive
  exact Meets.ofExcept (fun _ _ => hlive) fun _ _ => hlive

/-- What opens and closes no transport leaves them as they are. -/
theorem Moves.inquire {q : Question} (hstanding : q.standing = start)
    (hquiet : ∀ log a, transport log ⟨q, a⟩ = log) :
    Moves start start failed (Dialogue.inquire q : Dialogue _ Question.Answer ε _) := by
  intro past hlive
  refine Meets.inquire (by rw [Standing, hstanding, hlive]) fun a => ?_
  rw [live_concat, hquiet, hlive]

/-- One program after the other, where both leave as many with an error. -/
theorem Moves.bind {f : α → Dialogue Question Question.Answer ε β} (hd : Moves start middle failed d)
    (hf : ∀ a, Moves middle stop failed (f a)) : Moves start stop failed (d >>= f) := by
  intro past hlive
  refine Meets.seq (hd past hlive) (fun _ _ hfailed => hfailed) fun a more hmiddle => ?_
  exact hf a _ hmiddle

theorem Moves.mapError {g : ε → ε'} (hd : Moves start stop failed d) :
    Moves start stop failed (d.mapError g) :=
  fun past hlive => Meets.mapError (hd past hlive)

/-- A cleanup has the transports that the failure left. -/
theorem Moves.onError {c : Dialogue Question Question.Answer ε Unit}
    (hd : Moves start stop middle d) (hc : Moves middle failed failed c) :
    Moves start stop failed (d.onError c) := by
  intro past hlive
  exact (hd past hlive).guarded fun _ _ hmiddle => hc _ hmiddle

/-- A result that is dropped. -/
theorem Moves.ignore (hd : Moves start stop stop d) :
    Moves start stop failed (d.ignore : Dialogue Question Question.Answer ε' Unit) :=
  fun past hlive => Meets.ignore (hd past hlive)

/-- A question of a `select!`, and what is made of its answer. -/
theorem Moves.settled {q : Question} {f : q.Answer → Except ε β} (hstanding : q.standing = start)
    (hquiet : ∀ log a, transport log ⟨q, a⟩ = log) :
    Moves start start start (do
      let answer ← (Dialogue.inquire q : Dialogue _ Question.Answer ε _)
      Dialogue.ofExcept (f answer)) :=
  Moves.bind (Moves.inquire hstanding hquiet) fun _ => Moves.ofExcept

end Moves

/-! ## The host key -/

variable {russh : Russh} {hop : ℕ} {v : HostKeyVerifier} {key : PublicKey} {host : SshHost}

/-- Reading the files opens no transport. -/
theorem checkPaths_moves (found : Bool) (todo : List PathBuf) :
    Moves hop hop hop (checkPaths russh hop v key found todo) := by
  induction todo generalizing found with
  | nil => exact Moves.pure
  | cons path rest ih =>
      refine Moves.bind (Moves.inquire rfl fun _ _ => rfl) fun ⟨file, look⟩ => ?_
      exact Moves.bind Moves.ofExcept fun matched => ih _

theorem recheckPaths_moves (todo : List PathBuf) :
    Moves hop hop hop (recheckPaths russh hop v key todo) := by
  induction todo with
  | nil => exact Moves.pure
  | cons path rest ih =>
      refine Moves.bind (Moves.inquire rfl fun _ _ => rfl) fun ⟨file, look⟩ => ?_
      refine Moves.bind Moves.ofExcept fun matched => ?_
      cases matched with
      | true => exact Moves.pure
      | false => exact ih

/-- The second look, and the line that is added. -/
theorem saveKey_moves (savePath : PathBuf) :
    Moves hop hop hop (saveKey russh hop v key savePath) := by
  refine Moves.bind (recheckPaths_moves v.paths) fun matched => ?_
  cases matched with
  | true => exact Moves.pure
  | false =>
      refine Moves.bind (Moves.inquire rfl fun _ _ => rfl) fun learned => ?_
      cases learned with
      | none => exact Moves.pure
      | some source => exact Moves.fail

/-- **The prompt** is answered while the transport of the hop is open. -/
theorem askUser_moves (approval : HostKeyApproval) :
    Moves hop hop hop (russh.askUser hop v key approval) := by
  refine Moves.bind (Moves.inquire rfl fun _ _ => rfl) fun answer => ?_
  refine Moves.bind Moves.ofExcept fun decided => ?_
  cases decided with
  | unavailable => exact Moves.fail
  | decided decision =>
      cases decision with
      | trustOnce => exact Moves.pure
      | cancel => exact Moves.fail
      | trustAndSave =>
          refine Moves.bind (Moves.inquire rfl fun _ _ => rfl) fun locked => ?_
          refine Moves.bind Moves.ofExcept fun _ => ?_
          refine Moves.bind (saveKey_moves _) fun _ => ?_
          exact Moves.settled rfl fun _ _ => rfl

/-- **The key is checked** in the handshake, so with its transport. -/
theorem checkServerKey_moves (serverKey : PublicKeyOrCertificate) :
    Moves hop hop hop (russh.checkServerKey hop v serverKey) := by
  unfold Russh.checkServerKey
  split
  · exact Moves.pure
  · cases serverKey with
    | certificate key => exact Moves.fail
    | publicKey key =>
        refine Moves.bind (checkPaths_moves false v.paths) fun found => ?_
        cases found with
        | true => exact Moves.pure
        | false =>
            rw [if_neg Bool.false_ne_true]
            split
            · exact Moves.fail
            · exact askUser_moves _

/-- A handshake opens the transport of its hop, also where it fails. -/
theorem connectStream_moves (config : ClientConfig) :
    Moves hop (hop + 1) (hop + 1) (connectStream russh (hop + 1) config v) := by
  intro past hlive
  refine Meets.asked hlive fun answer => ?_
  have hopened : live (past ++ [⟨.serverKey (hop + 1) config v, answer⟩]) = upTo (hop + 1) := by
    rw [live_concat, hlive, upTo_succ]
    rfl
  refine Moves.bind Moves.ofExcept (fun serverKey => ?_) _ hopened
  refine Moves.bind (checkServerKey_moves serverKey) fun _ => ?_
  exact Moves.settled rfl fun _ _ => rfl

/-! ## The login -/

/-- The agent is asked over a pipe of its own. -/
theorem connectAgentStream_moves (socket : Option String) :
    Moves hop hop hop (connectAgentStream hop socket) := by
  cases socket with
  | some path => exact Moves.settled rfl fun _ _ => rfl
  | none =>
      refine Moves.bind (Moves.inquire rfl fun _ _ => rfl) fun answer => ?_
      refine Moves.bind Moves.ofExcept fun stream => ?_
      cases stream with
      | ok _ => exact Moves.pure
      | error _ => exact Moves.settled rfl fun _ _ => rfl

/-- One identity after another, over the same transport. -/
theorem tryIdentities_moves (username : String) (hash : Option String) (attempted : Bool)
    (todo : List AgentIdentity) :
    Moves hop hop hop (tryIdentities hop username hash attempted todo) := by
  induction todo generalizing attempted with
  | nil => exact Moves.fail
  | cons identity rest ih =>
      refine Moves.bind (Moves.inquire rfl fun _ _ => rfl) fun answer => ?_
      refine Moves.bind Moves.ofExcept fun success => ?_
      cases success with
      | true => exact Moves.pure
      | false => exact ih true

theorem authenticateAgent_moves : Moves hop hop hop (authenticateAgent hop host) := by
  unfold authenticateAgent
  split
  · refine Moves.bind (connectAgentStream_moves _) fun _ => ?_
    refine Moves.bind (Moves.inquire rfl fun _ _ => rfl) fun answer => ?_
    refine Moves.bind Moves.ofExcept fun identities => ?_
    refine Moves.bind (Moves.inquire rfl fun _ _ => rfl) fun answer => ?_
    exact Moves.bind Moves.ofExcept fun hash => tryIdentities_moves _ _ _ _
  · exact Moves.fail

/-- **The login** changes nothing about the transports, whatever it uses. -/
theorem authenticate_moves (credential : SshCredential) (privateKey : Option PrivateKey) :
    Moves hop hop hop (authenticate hop host credential privateKey) := by
  cases credential with
  | agent => exact authenticateAgent_moves
  | password secret =>
      refine Moves.bind (Moves.inquire rfl fun _ _ => rfl) fun answer => ?_
      refine Moves.bind Moves.ofExcept fun success => ?_
      cases success with
      | true => exact Moves.pure
      | false => exact Moves.fail
  | privateKey passphrase =>
      cases privateKey with
      | none => exact Moves.fail
      | some key =>
          refine Moves.bind (Moves.inquire rfl fun _ _ => rfl) fun answer => ?_
          refine Moves.bind Moves.ofExcept fun hash => ?_
          refine Moves.bind (Moves.inquire rfl fun _ _ => rfl) fun taken => ?_
          refine Moves.bind Moves.ofExcept fun success => ?_
          cases success with
          | true => exact Moves.pure
          | false => exact Moves.fail

/-! ## One session -/

/-- **The token of a session** closes its transport. -/
theorem cancelToken_moves {failed : ℕ} : Moves (hop + 1) hop failed (cancelToken (hop + 1)) := by
  intro past hlive
  refine Meets.inquire hlive fun a => ?_
  rw [live_concat, hlive]
  exact upTo_erase hop

/-- A session that fails takes its transport with it. -/
theorem finishConnection_moves (credential : SshCredential) (paths : List PathBuf)
    (remote : Option RemoteEndpoint) (privateKey : Option PrivateKey)
    (approval : Option HostKeyApproval) :
    Moves hop (hop + 1) hop
      (finishConnection russh (hop + 1) host credential paths remote privateKey approval) := by
  refine Moves.bind (Moves.onError (connectStream_moves _) cancelToken_moves) fun _ => ?_
  refine Moves.bind (Moves.onError (authenticate_moves _ _) cancelToken_moves) fun _ => ?_
  exact Moves.pure

theorem privateKeyOf_moves (credential : SshCredential) :
    Moves hop hop hop (privateKeyOf russh (hop + 1) host credential) := by
  unfold privateKeyOf
  split
  · refine Moves.bind ?_ fun key => Moves.pure
    refine Moves.bind (Moves.inquire rfl fun _ _ => rfl) fun answer => ?_
    refine Moves.bind Moves.ofExcept fun pem => ?_
    split
    · exact Moves.fail
    · exact Moves.ofExcept
  · exact Moves.pure

/-- The first session stands on a socket of its own. -/
theorem connectAuthenticated_moves (spec : HopSpec) (remote : Option RemoteEndpoint)
    (approval : Option HostKeyApproval) :
    Moves 0 1 0 (connectAuthenticated russh 1 spec remote approval) := by
  refine Moves.bind Moves.ofExcept fun _ => ?_
  refine Moves.bind (privateKeyOf_moves _) fun key => ?_
  refine Moves.bind (Moves.inquire rfl fun _ _ => rfl) fun answer => ?_
  exact Moves.bind Moves.ofExcept fun _ => finishConnection_moves _ _ _ _ _

/-- A further session stands on a channel of the one before. -/
theorem connectViaChannel_moves (spec : HopSpec) (remote : Option RemoteEndpoint)
    (approval : Option HostKeyApproval) :
    Moves hop (hop + 1) hop (connectViaChannel russh (hop + 1) spec remote approval) := by
  refine Moves.bind Moves.ofExcept fun _ => ?_
  exact Moves.bind (privateKeyOf_moves _) fun key => finishConnection_moves _ _ _ _ _

theorem openHopChannel_moves : Moves hop hop hop (openHopChannel (hop + 1) host) :=
  Moves.bind Moves.ofExcept fun _ => Moves.settled rfl fun _ _ => rfl

/-- A disconnect closes one transport, also where it fails. -/
theorem disconnect_moves : Moves (hop + 1) hop hop (disconnect (hop + 1)) := by
  refine Moves.bind (Moves.inquire rfl fun _ _ => rfl) fun shutdown => ?_
  refine Moves.bind cancelToken_moves fun _ => ?_
  rcases shutdown with _ | ⟨sent, joined⟩
  · exact Moves.fail
  · rcases sent with _ | _
    · exact Moves.fail
    · cases joined with
      | finished => exact Moves.pure
      | disconnected => exact Moves.pure
      | failed source => exact Moves.fail

/-! ## The chain -/

/-- Every session is disconnected, the last one first. -/
theorem disconnectAll_moves {failed : ℕ} (count : ℕ) : Moves count 0 failed (disconnectAll count) := by
  induction count with
  | zero => exact Moves.pure
  | succ count ih => exact Moves.bind (Moves.ignore disconnect_moves) fun _ => ih

/-- **The further hops**: one transport each, or none left at all. -/
theorem connectHops_moves {remote : Option RemoteEndpoint} {approval : Option HostKeyApproval}
    {total count : ℕ} (rest : List HopSpec) (sessions : List Session)
    (hcount : sessions.length = count) :
    Moves count (count + rest.length) 0
      (connectHops russh remote approval total (count + 1) rest sessions) := by
  induction rest generalizing count sessions with
  | nil => exact Moves.pure
  | cons spec rest ih =>
      subst hcount
      refine Moves.bind (Moves.onError (Moves.mapError openHopChannel_moves)
        (disconnectAll_moves _)) fun _ => ?_
      refine Moves.bind (Moves.onError (Moves.mapError (connectViaChannel_moves _ _ _))
        (disconnectAll_moves _)) fun session => ?_
      have hrest := ih (sessions ++ [session]) List.length_append
      rw [List.length_cons, Nat.add_comm rest.length, ← Nat.add_assoc]
      exact hrest

/-- **The chain**: as many transports as hops, or none. -/
theorem connectWithApproval_moves (hops : List HopSpec) (remote : Option RemoteEndpoint)
    (approval : Option HostKeyApproval) :
    Moves 0 hops.length 0 (connectWithApproval russh hops remote approval) := by
  unfold connectWithApproval
  split
  · exact Moves.fail
  · rename_i first rest
    split
    · exact Moves.fail
    · refine Moves.bind (Moves.mapError (connectAuthenticated_moves _ _ _)) fun session => ?_
      rw [List.length_cons, Nat.add_comm]
      exact connectHops_moves rest [session] rfl

/-! ## The connector -/

theorem loadSecret_moves (reference : SecretRef) : Moves 0 0 0 (loadSecret hop reference) :=
  Moves.settled rfl fun _ _ => rfl

theorem credentialOf_moves (auth : AuthConfig) : Moves 0 0 0 (credentialOf hop auth) := by
  cases auth with
  | agent socket => exact Moves.pure
  | keyboardInteractive => exact Moves.fail
  | password reference => exact Moves.bind (loadSecret_moves _) fun _ => Moves.pure
  | privateKey path reference =>
      cases reference with
      | none => exact Moves.pure
      | some reference => exact Moves.bind (loadSecret_moves _) fun _ => Moves.pure

/-- There is a hop for each host, before anything is connected. -/
theorem buildHops_standing (paths : List PathBuf) (hosts : List SshHost) {past : List Said}
    (hlive : live past = upTo 0) :
    Meets Standing (fun hops log => hops.length = hosts.length ∧ live log = upTo 0)
      (fun _ log => live log = upTo 0) (buildHops paths hop hosts) past := by
  induction hosts generalizing hop past with
  | nil => exact ⟨rfl, hlive⟩
  | cons host rest ih =>
      refine Meets.seq (credentialOf_moves host.auth past hlive) (fun _ _ h => h)
        fun credential more hnone => ?_
      refine Meets.seq (ih hnone) (fun _ _ h => h) fun hops more' h => ?_
      exact Meets.pure ⟨by rw [List.length_cons, h.1, List.length_cons], h.2⟩

/-- **The transports of a chain.** In every run of the connector, while a
question is asked the live transports are those of the first hops, as
many as it needs. Where the chain is not made none is live at the end,
and where it is, those of its hosts are. -/
theorem connector_transports (env : Surroundings Question Question.Answer) (russh : Russh)
    (hosts : List SshHost) (paths : List PathBuf) (remote : Option RemoteEndpoint)
    (approval : Option HostKeyApproval) :
    (∀ pre q a post,
        ((connector russh hosts paths remote approval).play env []).2 = pre ++ ⟨q, a⟩ :: post →
        live pre = upTo q.standing) ∧
      (∀ e, ((connector russh hosts paths remote approval).play env []).1 = .error e →
        live ((connector russh hosts paths remote approval).play env []).2 = []) ∧
      ∀ chain, ((connector russh hosts paths remote approval).play env []).1 = .ok chain →
        live ((connector russh hosts paths remote approval).play env []).2 = upTo hosts.length := by
  have hmeets : Meets Standing (fun _ log => live log = upTo hosts.length)
      (fun _ log => live log = upTo 0) (connector russh hosts paths remote approval) [] := by
    refine Meets.seq (buildHops_standing paths hosts rfl) (fun _ _ h => h) fun hops more h => ?_
    rw [← h.1]
    exact connectWithApproval_moves hops remote approval _ h.2
  obtain ⟨hvalue, herror, hasked⟩ := play_spec env hmeets
  exact ⟨fun pre q a post hlog => hasked pre q a post hlog (Nat.zero_le _), herror, hvalue⟩

end Ssh

end TunnelWarden
