import TunnelWarden.Forwarding.Model.Connection
import TunnelWarden.Forwarding.Socks5

/-!
# What a SOCKS client is told

A client whose request was read gets at most one reply. Which one is
fixed by what `request_channel` returns (`Told`): `Succeeded` for an open
channel, and for an error a reply that is never `Succeeded`. The relay
begins where the last byte of `Succeeded` is written, and nowhere else.
-/

namespace TunnelWarden

open Ssh Socks5

/-- **No error of the SSH engine is a success to the client.** -/
theorem mapSocksFailure_ne_succeeded (error : SshConnectError) :
    mapSocksFailure error ≠ .succeeded := by
  unfold mapSocksFailure
  cases error.forwardingFailure <;> decide

namespace Handler

variable {h : Handler} {event : ConnectionEvent}

/-- The event says that the channel is open. -/
def IsOpened (event : ConnectionEvent) : Prop := event = .answer .opened

/-- **What the client has been told, and why.** `opened` is whether the
worker has answered with an open channel. -/
structure Told (opened : Prop) (h : Handler) : Prop where
  /-- The request is what the client's bytes say. -/
  request : ∀ request, h.request = some request →
    ∃ stream, readConnect ⟨h.client, []⟩ = (.ok request, stream) ∧ h.greeting = stream.output
  unparsed : h.request = none → h.channel = none ∧ h.chosen = none ∧ h.relayed = false
  silent : h.chosen = none → h.written = []
  reply : ∀ reply, h.chosen = some reply → h.written <+: reply.bytes
  channel : h.channel = some (.ok ()) → opened
  succeeded : h.chosen = some .succeeded → h.channel = some (.ok ())
  failed : ∀ error, h.channel = some (.error error) →
    h.chosen = none ∨ h.chosen = some (mapSocksFailure error)
  relayed : h.relayed = true → h.chosen = some .succeeded ∧ h.written = SocksReply.succeeded.bytes

/-- **Where the connection is**, in Dynamic mode. -/
def At (h : Handler) : Prop :=
  match h.control with
  | .reading => h.request = none
  | .sending .. | .awaiting .. =>
      h.request.isSome ∧ h.channel = none ∧ h.chosen = none ∧ h.relayed = false
  | .failed error =>
      h.request.isSome ∧ h.channel = some (.error error) ∧ h.chosen = none ∧ h.relayed = false
  | .refusing reply => h.request.isSome ∧ h.chosen = some reply ∧ h.relayed = false
  | .confirming => h.request.isSome ∧ h.chosen = some .succeeded ∧ h.relayed = false
  | .relaying => h.relayed = true
  | .returned _ => True

theorem told_finish {opened : Prop} (ht : Told opened h) (result : Except IoError Unit) :
    Told opened (h.finish result) ∧ At (h.finish result) :=
  ⟨⟨ht.request, ht.unparsed, ht.silent, ht.reply, ht.channel, ht.succeeded, ht.failed, ht.relayed⟩,
    trivial⟩

/-- What has been said to be open stays so. -/
theorem Told.mono {p q : Prop} (hpq : p → q) (ht : Told p h) : Told q h :=
  ⟨ht.request, ht.unparsed, ht.silent, ht.reply, fun hc => hpq (ht.channel hc), ht.succeeded,
    ht.failed, ht.relayed⟩

/-- **The end of `request_channel`** decides between the replies. -/
theorem told_channelReturned {opened : Prop} (ht : Told opened h) (hmode : h.mode = .dynamic)
    (hparsed : h.request.isSome) (hnone : h.chosen = none) (hrelayed : h.relayed = false)
    {result : Except SshConnectError Unit} (hopen : result = .ok () → opened) :
    Told opened (h.channelReturned result) ∧ At (h.channelReturned result) := by
  have hsome : h.request ≠ none := Option.isSome_iff_ne_none.1 hparsed
  have hwritten : h.written = [] := ht.silent hnone
  unfold channelReturned
  cases result with
  | ok _ =>
      simp only [hmode]
      refine ⟨⟨ht.request, fun hr => absurd hr hsome, nofun, ?_, fun _ => hopen rfl, fun _ => rfl,
        nofun, ?_⟩, hparsed, rfl, hrelayed⟩
      · intro reply _
        rw [hwritten]
        exact List.nil_prefix
      · intro hr
        rw [hrelayed] at hr
        cases hr
  | error error =>
      refine ⟨⟨ht.request, fun hr => absurd hr hsome, ht.silent, ht.reply, nofun, ?_,
        fun _ _ => .inl hnone, ht.relayed⟩, hparsed, rfl, hnone, hrelayed⟩
      intro hr
      rw [hnone] at hr
      cases hr

/-- **An error**, unless it is the connection's own end, is told, and
never as a success. -/
theorem told_channelFailed {opened : Prop} (ht : Told opened h) (hparsed : h.request.isSome)
    {error : SshConnectError} (hchannel : h.channel = some (.error error)) (hnone : h.chosen = none)
    (hrelayed : h.relayed = false) :
    Told opened (h.channelFailed error) ∧ At (h.channelFailed error) := by
  have hsome : h.request ≠ none := Option.isSome_iff_ne_none.1 hparsed
  have hwritten : h.written = [] := ht.silent hnone
  unfold channelFailed
  split
  · refine ⟨⟨ht.request, fun hr => absurd hr hsome, nofun, ?_, ht.channel, ?_, ?_, ?_⟩, hparsed,
      rfl, hrelayed⟩
    · intro reply _
      rw [hwritten]
      exact List.nil_prefix
    · intro hr
      exact absurd (Option.some.inj hr) (mapSocksFailure_ne_succeeded error)
    · intro error' herr
      obtain rfl : error = error' := by simpa [hchannel] using herr
      exact .inr rfl
    · intro hr
      rw [hrelayed] at hr
      cases hr
  · exact told_finish ht _

/-- The bytes of a write continue the reply. -/
theorem written_prefix {reply : SocksReply} {n : ℕ} (hp : h.written <+: reply.bytes) :
    h.written ++ h.nextBytes reply n <+: reply.bytes := by
  obtain ⟨rest, hrest⟩ := hp
  unfold nextBytes
  rw [← hrest, List.drop_left]
  exact (List.prefix_append_right_inj _).2 (List.take_prefix _ _)

/-- **A write of the reply** goes on with it, ends in an error, or is the
last: then all of it is written. -/
theorem writeReply_cases (reply : SocksReply) (result : Except IoError ℕ)
    (done : Except IoError Unit → Handler → Handler) (h : Handler) :
    (∃ error, h.writeReply reply result done = done (.error error) h) ∨
      ∃ n, (h.writeReply reply result done = { h with written := h.written ++ h.nextBytes reply n }) ∨
        ((h.written ++ h.nextBytes reply n).length ≥ reply.bytes.length ∧
          h.writeReply reply result done =
            done (.ok ()) { h with written := h.written ++ h.nextBytes reply n }) := by
  unfold writeReply
  cases result with
  | error error => exact .inl ⟨error, rfl⟩
  | ok n =>
      dsimp only
      split
      · exact .inl ⟨_, rfl⟩
      · refine .inr ⟨n, ?_⟩
        split
        · exact .inl rfl
        · rename_i hlen
          exact .inr ⟨Nat.not_lt.1 hlen, rfl⟩

/-- More of the reply is written. -/
theorem told_written {opened : Prop} (ht : Told opened h) {reply : SocksReply}
    (hchosen : h.chosen = some reply) (hrelayed : h.relayed = false) (n : ℕ) :
    Told opened { h with written := h.written ++ h.nextBytes reply n } := by
  have hprefix := written_prefix (n := n) (ht.reply reply hchosen)
  refine ⟨ht.request, ht.unparsed, fun hn => ?_, fun reply' hr => ?_, ht.channel, ht.succeeded,
    ht.failed, fun hr => ?_⟩
  · simp [hchosen] at hn
  · obtain rfl : reply = reply' := by simpa [hchosen] using hr
    exact hprefix
  · simp [hrelayed] at hr

/-- **The end of the handshake**: what the client's bytes come to. -/
theorem told_handshakeReturned {opened : Prop} (ht : Told opened h) (hunparsed : h.request = none) :
    Told opened h.handshakeReturned ∧ At h.handshakeReturned := by
  obtain ⟨hchannel, hchosen, hrelayed⟩ := ht.unparsed hunparsed
  unfold handshakeReturned
  rcases hread : readConnect ⟨h.client, []⟩ with ⟨error | request, stream⟩
  · refine ⟨⟨fun request hr => ?_, ht.unparsed, ht.silent, ht.reply, ht.channel, ht.succeeded,
      ht.failed, ht.relayed⟩, trivial⟩
    rw [hunparsed] at hr
    cases hr
  · refine ⟨⟨fun request' hr => ?_, nofun, ht.silent, ht.reply, ht.channel, ht.succeeded,
      ht.failed, ht.relayed⟩, rfl, hchannel, hchosen, hrelayed⟩
    obtain rfl : request = request' := by simpa using hr
    exact ⟨stream, hread, rfl⟩

/-- Only an open channel is answered with one. -/
theorem isOpened_of_answerOf {host : String} {port : ℕ} {outcome : OpenOutcome}
    (hok : answerOf host port outcome = .ok ()) : IsOpened (.answer outcome) := by
  unfold answerOf openDirectTcpip at hok
  cases outcome with
  | opened => rfl
  | workerCancelled => cases hok
  | sessionGone | refused | timedOut =>
      dsimp only at hok
      split at hok <;> cases hok

/-- A write of the reply, where what follows its end or an error is in
order. -/
theorem told_writeReply {opened : Prop} (ht : Told opened h) (hat : At h) {reply : SocksReply}
    (hchosen : h.chosen = some reply) (hrelayed : h.relayed = false) (result : Except IoError ℕ)
    {done : Except IoError Unit → Handler → Handler}
    (herror : ∀ error, Told opened (done (.error error) h) ∧ At (done (.error error) h))
    (hdone : ∀ h', h' = { h with written := reply.bytes } → Told opened h' →
      Told opened (done (.ok ()) h') ∧ At (done (.ok ()) h')) :
    Told opened (h.writeReply reply result done) ∧ At (h.writeReply reply result done) := by
  rcases writeReply_cases reply result done h with ⟨error, heq⟩ | ⟨n, heq | ⟨hlen, heq⟩⟩
  · rw [heq]
    exact herror error
  · rw [heq]
    exact ⟨told_written ht hchosen hrelayed n, hat⟩
  · rw [heq]
    have hwritten := told_written ht hchosen hrelayed n
    have hall : h.written ++ h.nextBytes reply n = reply.bytes :=
      (hwritten.reply _ hchosen).eq_of_length_le hlen
    exact hdone _ (by rw [hall]) hwritten

/-- **One event of the task.** -/
theorem told_advance {opened : Prop} (ht : Told opened h) (hat : At h) (hmode : h.mode = .dynamic) :
    Told (opened ∨ IsOpened event) (h.advance event) ∧ At (h.advance event) := by
  have ht' : Told (opened ∨ IsOpened event) h := ht.mono .inl
  have hstay := hat
  unfold At at hat
  unfold advance
  cases hc : h.control with
  | reading =>
      rw [hc] at hat
      dsimp only
      split
      · exact told_finish ht' _
      · split
        · exact told_handshakeReturned ht' hat
        · exact told_finish ht' _
        · exact told_finish ht' _
        · exact ⟨ht', hstay⟩
  | sending host port =>
      rw [hc] at hat
      obtain ⟨hparsed, hchannel, hchosen, hrelayed⟩ := hat
      dsimp only
      split
      · exact told_channelReturned ht' hmode hparsed hchosen hrelayed nofun
      · split
        · exact ⟨⟨ht'.request, ht'.unparsed, ht'.silent, ht'.reply, ht'.channel, ht'.succeeded,
            ht'.failed, ht'.relayed⟩, hparsed, hchannel, hchosen, hrelayed⟩
        · exact told_channelReturned ht' hmode hparsed hchosen hrelayed nofun
        · exact ⟨ht', hstay⟩
  | awaiting host port =>
      rw [hc] at hat
      obtain ⟨hparsed, hchannel, hchosen, hrelayed⟩ := hat
      dsimp only
      split
      · exact told_channelReturned ht' hmode hparsed hchosen hrelayed nofun
      · split
        · exact told_channelReturned ht' hmode hparsed hchosen hrelayed
            fun hok => .inr (isOpened_of_answerOf hok)
        · exact told_channelReturned ht' hmode hparsed hchosen hrelayed nofun
        · exact ⟨ht', hstay⟩
  | failed error =>
      rw [hc] at hat
      obtain ⟨hparsed, hchannel, hchosen, hrelayed⟩ := hat
      exact told_channelFailed ht' hparsed hchannel hchosen hrelayed
  | refusing reply =>
      rw [hc] at hat
      obtain ⟨hparsed, hchosen, hrelayed⟩ := hat
      dsimp only
      split
      · refine told_writeReply ht' hstay hchosen hrelayed _ (fun _ => told_finish ht' _) ?_
        exact fun h' _ hwritten => told_finish hwritten _
      · exact told_finish ht' _
      · exact ⟨ht', hstay⟩
  | confirming =>
      rw [hc] at hat
      obtain ⟨hparsed, hchosen, hrelayed⟩ := hat
      have hsome : h.request ≠ none := Option.isSome_iff_ne_none.1 hparsed
      dsimp only
      split
      · exact told_finish ht' _
      · split
        · refine told_writeReply ht' hstay hchosen hrelayed _ (fun _ => told_finish ht' _) ?_
          -- the last byte is written, and the relay begins
          rintro h' rfl hw
          exact ⟨⟨hw.request, fun hr => absurd hr hsome, hw.silent, hw.reply, hw.channel,
            hw.succeeded, hw.failed, fun _ => ⟨hchosen, rfl⟩⟩, rfl⟩
        · exact ⟨ht', hstay⟩
  | relaying =>
      dsimp only
      split
      · exact told_finish ht' _
      · exact ⟨ht', hstay⟩
  | returned result => exact ⟨ht', hstay⟩

/-- Any event: a cancellation only leaves its mark. -/
theorem told_step {opened : Prop} (event : ConnectionEvent) (ht : Told opened h) (hat : At h)
    (hmode : h.mode = .dynamic) :
    Told (opened ∨ IsOpened event) (step h event).2 ∧ At (step h event).2 := by
  have hcancel : Told (opened ∨ IsOpened event) { h with cancelled := true } :=
    ⟨ht.request, ht.unparsed, ht.silent, ht.reply, fun hc => .inl (ht.channel hc), ht.succeeded,
      ht.failed, ht.relayed⟩
  unfold step
  cases event with
  | cancel => exact ⟨hcancel, hat⟩
  | _ => exact told_advance ht hat hmode

/-- What no event of the task itself changes: what it forwards, for whom,
and its token. -/
def fixed (h : Handler) : ForwardMode × List UInt8 × Bool := (h.mode, h.client, h.cancelled)

theorem fixed_writeReply {reply : SocksReply} {result : Except IoError ℕ}
    {done : Except IoError Unit → Handler → Handler}
    (hdone : ∀ r h', (done r h').fixed = h'.fixed) :
    (h.writeReply reply result done).fixed = h.fixed := by
  rcases writeReply_cases reply result done h with ⟨error, heq⟩ | ⟨n, heq | ⟨-, heq⟩⟩
  · rw [heq, hdone]
  · rw [heq]
    rfl
  · rw [heq, hdone]
    rfl

theorem fixed_channelReturned {result : Except SshConnectError Unit} :
    (h.channelReturned result).fixed = h.fixed := by
  unfold channelReturned
  split
  · rfl
  · split
    · rfl
    · rfl

theorem fixed_advance : (h.advance event).fixed = h.fixed := by
  unfold advance
  split
  · split
    · rfl
    · split
      · unfold handshakeReturned
        split
        · rfl
        · rfl
      · rfl
      · rfl
      · rfl
  · split
    · exact fixed_channelReturned
    · split
      · rfl
      · exact fixed_channelReturned
      · rfl
  · split
    · exact fixed_channelReturned
    · split
      · exact fixed_channelReturned
      · exact fixed_channelReturned
      · rfl
  · unfold channelFailed
    split
    · rfl
    · rfl
  · split
    · exact fixed_writeReply fun _ _ => rfl
    · rfl
    · rfl
  · split
    · rfl
    · split
      · refine fixed_writeReply fun r _ => ?_
        cases r with
        | error error => rfl
        | ok _ => rfl
      · rfl
  · split
    · rfl
    · rfl
  · rfl

theorem step_mode (h : Handler) (event : ConnectionEvent) :
    (step h event).2.mode = h.mode ∧ (step h event).2.client = h.client := by
  have hadvance : (h.advance event).fixed = h.fixed := fixed_advance
  simp only [fixed, Prod.mk.injEq] at hadvance
  unfold step
  cases event with
  | cancel => exact ⟨rfl, rfl⟩
  | _ => exact ⟨hadvance.1, hadvance.2.1⟩

/-- A connection is cancelled by its token alone. -/
theorem cancelled_of_step (hcancelled : (step h event).2.cancelled = true) :
    h.cancelled = true ∨ event = .cancel := by
  have hadvance : (h.advance event).fixed = h.fixed := fixed_advance
  simp only [fixed, Prod.mk.injEq] at hadvance
  unfold step at hcancelled
  cases event with
  | cancel => exact .inr rfl
  | _ => exact .inl (hadvance.2.2.symm.trans hcancelled)

/-- **Any run of a Dynamic connection.** -/
theorem told_run (client : List UInt8) (events : List ConnectionEvent) :
    Told (.answer .opened ∈ events) (runState step (start .dynamic client) events) ∧
      At (runState step (start .dynamic client) events) ∧
      (runState step (start .dynamic client) events).mode = .dynamic ∧
      (runState step (start .dynamic client) events).client = client := by
  induction events using List.reverseRecOn with
  | nil =>
      exact ⟨⟨nofun, fun _ => ⟨rfl, rfl, rfl⟩, fun _ => rfl, nofun, nofun, nofun, nofun, nofun⟩,
        rfl, rfl, rfl⟩
  | append_singleton events event ih =>
      obtain ⟨htold, hat, hmode, hclient⟩ := ih
      rw [runState_concat]
      obtain ⟨hmode', hclient'⟩ := step_mode (runState step (start .dynamic client) events) event
      obtain ⟨htold', hat'⟩ := told_step event htold hat hmode
      refine ⟨htold'.mono ?_, hat', hmode'.trans hmode, hclient'.trans hclient⟩
      rintro (hmem | hevent)
      · exact List.mem_append_left _ hmem
      · rw [← (hevent : event = _)]
        exact List.mem_append_right _ List.mem_cons_self

/-- A reply is known by its code. -/
theorem reply_code_inj {r s : SocksReply} (hcode : r.code = s.code) : r = s := by
  revert hcode
  cases r <;> cases s <;> decide

/-- **A client is told of success only when it has a channel.** Whatever
the client sends, whenever the connection is cancelled and however the
worker answers, a client whose request was not read is sent nothing
after the handshake, and one whose request was read no more than one
reply of ten bytes. A reply `Succeeded` is begun only for an open
channel, its bytes are sent before the relay begins, and no error is
mapped to it. -/
theorem succeeded_only_with_channel (client : List UInt8) (events : List ConnectionEvent) :
    let h := runState step (start .dynamic client) events
    (h.request = none → h.written = [] ∧ h.relayed = false ∧ h.control ≠ .relaying) ∧
    (∀ request, h.request = some request →
      ∃ stream, readConnect ⟨client, []⟩ = (.ok request, stream) ∧ h.greeting = stream.output) ∧
    (∃ reply : SocksReply, h.written <+: reply.bytes ∧ reply.bytes.length = 10) ∧
    (h.chosen = some .succeeded ∨ h.written[1]? = some SocksReply.succeeded.code →
      h.channel = some (.ok ()) ∧ .answer .opened ∈ events) ∧
    (h.relayed = true ∨ h.control = .relaying →
      h.written = SocksReply.succeeded.bytes ∧ h.channel = some (.ok ())) ∧
    ∀ error, mapSocksFailure error ≠ .succeeded := by
  intro h
  obtain ⟨ht, hat, -, hclient⟩ := told_run client events
  have hsucceeded : h.chosen = some .succeeded →
      h.channel = some (.ok ()) ∧ .answer .opened ∈ events :=
    fun hc => ⟨ht.succeeded hc, ht.channel (ht.succeeded hc)⟩
  have hbegun : h.control = .relaying → h.relayed = true := by
    intro hc
    unfold At at hat
    rw [hc] at hat
    exact hat
  refine ⟨fun hr => ?_, fun request hr => ?_, ?_, ?_, ?_, mapSocksFailure_ne_succeeded⟩
  · obtain ⟨-, hchosen, hrelayed⟩ := ht.unparsed hr
    refine ⟨ht.silent hchosen, hrelayed, fun hc => ?_⟩
    rw [hbegun hc] at hrelayed
    cases hrelayed
  · have := ht.request request hr
    rwa [hclient] at this
  · cases hchosen : h.chosen with
    | none => exact ⟨.succeeded, by rw [ht.silent hchosen]; exact List.nil_prefix, rfl⟩
    | some reply => exact ⟨reply, ht.reply reply hchosen, rfl⟩
  · rintro (hchosen | hcode)
    · exact hsucceeded hchosen
    · -- the code sent is that of the reply that was chosen
      cases hchosen : h.chosen with
      | none =>
          rw [ht.silent hchosen] at hcode
          cases hcode
      | some reply =>
          obtain ⟨rest, hrest⟩ := ht.reply reply hchosen
          have hlen : 1 < h.written.length := (List.getElem?_eq_some_iff.1 hcode).1
          have hsent : reply.bytes[1]? = some SocksReply.succeeded.code := by
            rw [← hrest, List.getElem?_append_left hlen]
            exact hcode
          obtain rfl : reply = .succeeded := reply_code_inj (Option.some.inj hsent)
          exact hsucceeded hchosen
  · intro hr
    have hrelayed : h.relayed = true := hr.elim id hbegun
    obtain ⟨hchosen, hwritten⟩ := ht.relayed hrelayed
    exact ⟨hwritten, ht.succeeded hchosen⟩

end Handler

end TunnelWarden
