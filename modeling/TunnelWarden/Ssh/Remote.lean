import TunnelWarden.Common.Run
import TunnelWarden.Ssh.Model.Remote

/-!
# Channels within the registration window

The port the handler reads is stored by a registration and cleared by
the first thing a cancel or the drop does, so that a channel is decided
for within the window of a registration only. The answer is sent after
the decision, and a cancel may begin in between
(`channels_in_window_answered`).
-/

namespace TunnelWarden

namespace Ssh

variable {remote : Option RemoteEndpoint} {events : List RemoteEvent} {e : RemoteEvent}
variable {r r' : Remote} {opening : Opening} {port : ℕ}

/-! ## The properties -/

/-- An event of the handler. -/
def RemoteEvent.OfHandler : RemoteEvent → Prop
  | decided _ | answered _ => True
  | _ => False

/-- A registration of a port, and no cancel and no drop since. -/
def Registered (events : List RemoteEvent) (port : ℕ) : Prop :=
  ∃ earlier since, events = earlier ++ .registered port :: since ∧
    .cancelBegan ∉ since ∧ .dropBegan ∉ since

/-- **The registration window**, for a channel: it is to the host that is
bound, and to a port that is registered. -/
def Window (remote : Option RemoteEndpoint) (events : List RemoteEvent) (opening : Opening) :
    Prop :=
  (∃ binding, remote = some binding ∧ opening.address = binding.host) ∧ opening.port ≠ 0 ∧
    Registered events opening.port

/-- The last thing the handler did is to decide for the channel, and it
was in the window then. -/
def Decided (remote : Option RemoteEndpoint) (events : List RemoteEvent) (opening : Opening) :
    Prop :=
  ∃ before between, events = before ++ .decided opening :: between ∧
    (∀ e ∈ between, ¬ e.OfHandler) ∧ Window remote before opening

/-- Every channel that is accepted was decided for in the window. -/
def AcceptsInWindow (remote : Option RemoteEndpoint) (events : List RemoteEvent) : Prop :=
  ∀ past opening rest, events = past ++ .answered opening :: rest → opening.verdict = .ok () →
    Decided remote past opening

def RegistersOnce (events : List RemoteEvent) : Prop :=
  ∀ past port rest, events = past ++ .registered port :: rest →
    ∀ other, .registered other ∉ past

/-- A request is sent, and registers where the server grants it. -/
def Requestable (r : Remote) : Prop :=
  ∀ assigned, 0 < assigned → assigned < 2 ^ 16 →
    ∃ port, answers Remote.step r [.request, .requestAnswered (.success assigned)] =
      [.registered port]

/-- What a step leaves that ends a request or a cancel without success.
A request that is not even sent ends where it began. -/
structure Repeatable (x : Step Remote RemoteInput (List RemoteEvent)) : Prop where
  unsent : ∀ error, .requestFailed error ∈ x.output → x.before.owner = .idle →
    x.after = x.before
  request : x.before.owner = .requesting → x.after.owner ≠ .requesting →
    (∀ port, .registered port ∉ x.output) →
    x.after.session = x.before.session ∧ (x.after.cancelled = false → Requestable x.after)
  cancel : x.before.owner = .cancelling → x.after.owner ≠ .cancelling →
    .cancelReturned (.ok ()) ∉ x.output →
    x.after.session = x.before.session ∧ x.after.session.remoteActive ≠ none ∧
      (x.after.step .cancel).1 = [.cancelBegan]

/-! ## The record -/

theorem Registered.self : Registered (events ++ [.registered port]) port :=
  ⟨events, [], rfl, List.not_mem_nil, List.not_mem_nil⟩

theorem Registered.concat (h : Registered events port) (hcancel : e ≠ .cancelBegan)
    (hdrop : e ≠ .dropBegan) : Registered (events ++ [e]) port := by
  obtain ⟨earlier, since, rfl, hc, hd⟩ := h
  refine ⟨earlier, since ++ [e], by simp, ?_, ?_⟩
  · simpa [List.mem_append, hc] using hcancel.symm
  · simpa [List.mem_append, hd] using hdrop.symm

theorem Decided.self (h : Window remote events opening) :
    Decided remote (events ++ [.decided opening]) opening :=
  ⟨events, [], rfl, by simp, h⟩

theorem Decided.concat (h : Decided remote events opening) (he : ¬ e.OfHandler) :
    Decided remote (events ++ [e]) opening := by
  obtain ⟨before, between, rfl, hquiet, hwindow⟩ := h
  refine ⟨before, between ++ [e], by simp, ?_, hwindow⟩
  intro a ha
  rcases List.mem_append.1 ha with ha | ha
  · exact hquiet a ha
  · obtain rfl := List.mem_singleton.1 ha
    exact he

theorem AcceptsInWindow.concat (h : AcceptsInWindow remote events)
    (he : ∀ opening, e = .answered opening → opening.verdict = .ok () →
      Decided remote events opening) : AcceptsInWindow remote (events ++ [e]) := by
  intro past opening rest heq hok
  rcases concat_eq_append_cons heq with ⟨rfl, he'⟩ | ⟨rest', hpast⟩
  · exact he opening he' hok
  · exact h past opening rest' hpast hok

theorem RegistersOnce.concat (h : RegistersOnce events)
    (he : ∀ port, e = .registered port → ∀ other, .registered other ∉ events) :
    RegistersOnce (events ++ [e]) := by
  intro past port rest heq
  rcases concat_eq_append_cons heq with ⟨rfl, he'⟩ | ⟨rest', hpast⟩
  · exact he port he'
  · exact h past port rest' hpast

namespace Remote

/-! ## The invariant -/

/-- The port the handler accepts at, where there is one. -/
def enabled (r : Remote) : Option ℕ := r.handler.map Forwarded.enabled

def binding (r : Remote) : Option RemoteEndpoint := r.handler.map Forwarded.binding

@[simp] theorem enabled_store : (r.store port).enabled = r.enabled.map fun _ => port := by
  simp [enabled, store, Function.comp_def]

/-- A port that is enabled by a store is the one stored. -/
theorem eq_of_enabled_store {stored : ℕ} (h : (r.store stored).enabled = some port) :
    port = stored := by
  rw [enabled_store] at h
  obtain ⟨_, _, rfl⟩ := Option.map_eq_some_iff.1 h
  rfl

@[simp] theorem binding_store : (r.store port).binding = r.binding := by
  simp [binding, store, Function.comp_def]

@[simp] theorem enabled_closeChannels : r.closeChannels.enabled = r.enabled := by
  simp [enabled, closeChannels, Function.comp_def]

@[simp] theorem binding_closeChannels : r.closeChannels.binding = r.binding := by
  simp [binding, closeChannels, Function.comp_def]

/-- The state and the record of a run. -/
structure Recorded (remote : Option RemoteEndpoint) (r : Remote) (events : List RemoteEvent) :
    Prop where
  binding : r.binding = remote
  unregistered : r.session.forwarded ≠ none → ∀ port, .registered port ∉ events
  window : ∀ port, r.enabled = some port → port ≠ 0 → Registered events port
  opening : ∀ opening, r.opening = some opening → opening.verdict = .ok () →
    Decided remote events opening
  accepts : AcceptsInWindow remote events
  once : RegistersOnce events

/-- Nothing is opened up by a step: no forward comes back, and no other
port is accepted at. -/
structure Narrows (r r' : Remote) : Prop where
  binding : r'.binding = r.binding
  forwarded : r'.session.forwarded ≠ none → r.session.forwarded ≠ none
  enabled : ∀ port, port ≠ 0 → r'.enabled = some port → r.enabled = some port
  opening : r'.opening = r.opening

theorem Narrows.aside (hhandler : r'.handler = r.handler)
    (hforwarded : r'.session.forwarded = r.session.forwarded) (hopening : r'.opening = r.opening) :
    Narrows r r' where
  binding := by rw [Remote.binding, Remote.binding, hhandler]
  forwarded h := hforwarded ▸ h
  enabled port _ h := by rwa [Remote.enabled, hhandler] at h
  opening := hopening

theorem Recorded.narrows (h : Recorded remote r events) (hn : Narrows r r') :
    Recorded remote r' events where
  binding := hn.binding.trans h.binding
  unregistered hf := h.unregistered (hn.forwarded hf)
  window port hport hne := h.window port (hn.enabled port hne hport) hne
  opening opening ho := h.opening opening (hn.opening ▸ ho)
  accepts := h.accepts
  once := h.once

/-- A step of the owner that registers nothing. A cancel and the drop
leave no port behind. -/
theorem Recorded.concat (h : Recorded remote r events) (hn : Narrows r r')
    (hhandler : ¬ e.OfHandler) (hregistered : ∀ port, e ≠ .registered port)
    (hclosed : e = .cancelBegan ∨ e = .dropBegan → ∀ port, r'.enabled = some port → port = 0) :
    Recorded remote r' (events ++ [e]) where
  binding := hn.binding.trans h.binding
  unregistered hf port hmem := by
    rcases List.mem_append.1 hmem with hmem | hmem
    · exact h.unregistered (hn.forwarded hf) port hmem
    · exact hregistered port (List.mem_singleton.1 hmem).symm
  window port hport hne := by
    have hopen : ¬ (e = .cancelBegan ∨ e = .dropBegan) := fun he => hne (hclosed he port hport)
    rw [not_or] at hopen
    exact (h.window port (hn.enabled port hne hport) hne).concat hopen.1 hopen.2
  opening opening ho hok := (h.opening opening (hn.opening ▸ ho) hok).concat hhandler
  accepts := h.accepts.concat (by rintro opening rfl; exact (hhandler trivial).elim)
  once := h.once.concat fun port he => (hregistered port he).elim

/-! ## The steps -/

theorem Recorded.request (h : Recorded remote r events) :
    Recorded remote r.request.2 (events ++ r.request.1) := by
  unfold Remote.request
  split
  · exact h.concat (.aside rfl rfl rfl) (by nofun) (by nofun) (by nofun)
  · split
    · exact h.concat (.aside rfl rfl rfl) (by nofun) (by nofun) (by nofun)
    · rw [List.append_nil]
      exact h.narrows (.aside rfl rfl rfl)

/-- A registration is made of a session that has none yet. -/
theorem requestRemoteForward_ok {s s' : Session} {answer : Except SshConnectError ℕ}
    (h : s.requestRemoteForward answer = .ok (port, s')) :
    s.forwarded ≠ none ∧ s'.forwarded = none := by
  unfold Session.requestRemoteForward Session.checkForwarded at h
  cases hforwarded : s.forwarded with
  | none => simp [hforwarded, bind, Except.bind] at h
  | some binding =>
      refine ⟨by simp, ?_⟩
      rw [hforwarded] at h
      dsimp only at h
      split at h
      · simp [bind, Except.bind] at h
      · cases answer with
        | error error => simp [bind, Except.bind] at h
        | ok assigned =>
            simp only [bind, Except.bind] at h
            split at h
            · simp [throw, throwThe, MonadExceptOf.throw] at h
            · have heq := Except.ok.inj h
              rw [Prod.mk.injEq] at heq
              rw [← heq.2]

theorem Recorded.requestAnswered (h : Recorded remote r events) (answer : Answer ℕ) :
    Recorded remote (r.requestAnswered answer).2 (events ++ (r.requestAnswered answer).1) := by
  unfold Remote.requestAnswered
  dsimp only
  split
  · exact h.concat (.aside rfl rfl rfl) (by nofun) (by nofun) (by nofun)
  · rename_i port session hok
    obtain ⟨hbefore, hafter⟩ := requestRemoteForward_ok hok
    have hnone := h.unregistered hbefore
    exact {
      binding := by
        have hb : (r.store port).binding = r.binding := binding_store
        exact hb.trans h.binding
      unregistered := fun hf => (hf hafter).elim
      window := by
        intro port' hport' _
        obtain rfl := eq_of_enabled_store (r := r) hport'
        exact .self
      opening := fun opening ho hok => (h.opening opening ho hok).concat (by nofun)
      accepts := h.accepts.concat (by nofun)
      once := h.once.concat fun _ _ => hnone }

theorem Recorded.cancel (h : Recorded remote r events) :
    Recorded remote r.cancel.2 (events ++ r.cancel.1) := by
  unfold Remote.cancel
  split
  · exact h.concat (.aside rfl rfl rfl) (by nofun) (by nofun) (by nofun)
  · refine h.concat ⟨binding_store, id, ?_, rfl⟩ (by nofun) (by nofun) fun _ _ =>
      eq_of_enabled_store
    intro port hne hport
    exact (hne (eq_of_enabled_store hport)).elim

theorem Recorded.cancelAnswered (h : Recorded remote r events) (answer : Answer Unit) :
    Recorded remote (r.cancelAnswered answer).2 (events ++ (r.cancelAnswered answer).1) := by
  unfold Remote.cancelAnswered
  split
  · exact h.concat (.aside rfl rfl rfl) (by nofun) (by nofun) (by nofun)
  · exact h.concat (.aside rfl rfl rfl) (by nofun) (by nofun) (by nofun)

theorem Recorded.drop (h : Recorded remote r events) :
    Recorded remote r.drop.2 (events ++ r.drop.1) := by
  have hzero : ∀ port, (r.store 0).enabled = some port → port = 0 := fun _ => eq_of_enabled_store
  have hstored : Narrows r { r.store 0 with cancelled := true, owner := .dropped } :=
    ⟨binding_store, id, fun port hne hport => (hne (hzero port hport)).elim, rfl⟩
  unfold Remote.drop
  dsimp only
  split
  · exact h.concat hstored (by nofun) (by nofun) fun _ => hzero
  · have hclosed : ∀ port,
        (closeChannels { r.store 0 with cancelled := true, owner := .dropped }).enabled =
          some port → port = 0 := by
      intro port hport
      rw [enabled_closeChannels] at hport
      exact hzero port hport
    refine h.concat ⟨?_, id, ?_, rfl⟩ (by nofun) (by nofun) fun _ => hclosed
    · rw [binding_closeChannels]
      exact hstored.binding
    · intro port hne hport
      exact (hne (hclosed port hport)).elim

/-- What the handler accepts is in the window. -/
theorem Recorded.window_of_decision (h : Recorded remote r events) {address : String}
    (hok : serverChannelOpenForwardedTcpip r.handler address port = .ok ()) :
    Window remote events ⟨address, port, .ok ()⟩ := by
  unfold serverChannelOpenForwardedTcpip at hok
  split at hok
  · nomatch hok
  · rename_i handler hhandler
    dsimp only at hok
    split at hok
    · nomatch hok
    · rename_i hactive
      simp only [not_or, not_not] at hactive
      obtain ⟨hne, haddress, rfl⟩ := hactive
      have hbinding : remote = some handler.binding := by
        rw [← h.binding, Remote.binding, hhandler, Option.map_some]
      have henabled : r.enabled = some handler.enabled := by
        rw [enabled, hhandler, Option.map_some]
      exact ⟨⟨handler.binding, hbinding, haddress.symm⟩, hne, h.window _ henabled hne⟩

theorem Recorded.decided (h : Recorded remote r events) (address : String) (port : ℕ) :
    Recorded remote (r.step (.channelOpen address port)).2
      (events ++ (r.step (.channelOpen address port)).1) := by
  cases hopening : r.opening with
  | some opening => simpa only [step, hopening, List.append_nil] using h
  | none =>
      simp only [step, hopening]
      exact {
        binding := h.binding
        unregistered := fun hf other hmem => by
          rcases List.mem_append.1 hmem with hmem | hmem
          · exact h.unregistered hf other hmem
          · exact absurd (List.mem_singleton.1 hmem) (by nofun)
        window := fun other hother hne =>
          (h.window other hother hne).concat (by nofun) (by nofun)
        opening := fun opening ho hok => by
          obtain rfl := Option.some.inj ho
          dsimp only at hok
          rw [hok]
          exact .self (h.window_of_decision hok)
        accepts := h.accepts.concat (by nofun)
        once := h.once.concat (by nofun) }

theorem Recorded.reply (h : Recorded remote r events) {opening : Opening}
    (hopening : r.opening = some opening) :
    Recorded remote (r.reply opening).2 (events ++ (r.reply opening).1) := by
  have hbinding : (r.reply opening).2.binding = r.binding := by
    unfold Remote.reply Remote.binding
    split
    · simp [Function.comp_def]
    · rfl
  have henabled : (r.reply opening).2.enabled = r.enabled := by
    unfold Remote.reply Remote.enabled
    split
    · simp [Function.comp_def]
    · rfl
  exact {
    binding := hbinding.trans h.binding
    unregistered := fun hf other hmem => by
      rcases List.mem_append.1 hmem with hmem | hmem
      · exact h.unregistered hf other hmem
      · exact absurd (List.mem_singleton.1 hmem) (by nofun)
    window := fun other hother hne => by
      rw [henabled] at hother
      exact (h.window other hother hne).concat (by nofun) (by nofun)
    opening := by nofun
    accepts := h.accepts.concat fun o ho hok => by
      obtain rfl := RemoteEvent.answered.inj ho
      exact h.opening opening hopening hok
    once := h.once.concat (by nofun) }

/-- **Every step keeps the record.** -/
theorem Recorded.step (h : Recorded remote r events) (input : RemoteInput) :
    Recorded remote (r.step input).2 (events ++ (r.step input).1) := by
  have hsame : Recorded remote r (events ++ []) := by rwa [List.append_nil]
  cases input with
  | request =>
      dsimp only [Remote.step]
      split
      · exact h.request
      · exact hsame
  | requestAnswered answer =>
      dsimp only [Remote.step]
      split
      · exact h.requestAnswered answer
      · exact hsame
  | cancel =>
      dsimp only [Remote.step]
      split
      · exact h.cancel
      · exact hsame
  | cancelAnswered answer =>
      dsimp only [Remote.step]
      split
      · exact h.cancelAnswered answer
      · exact hsame
  | abandon =>
      dsimp only [Remote.step]
      split
      · exact h.concat (.aside rfl rfl rfl) (by nofun) (by nofun) (by nofun)
      · exact hsame
  | disconnect =>
      dsimp only [Remote.step]
      split
      · exact hsame.narrows (.aside rfl rfl rfl)
      · exact hsame
  | drop =>
      dsimp only [Remote.step]
      split
      · exact h.drop
      · exact hsame
  | cancelToken => exact hsame.narrows (.aside rfl rfl rfl)
  | channelOpen address port => exact h.decided address port
  | reply =>
      cases hopening : r.opening with
      | none => simpa only [Remote.step, hopening] using hsame
      | some opening =>
          simp only [Remote.step, hopening]
          exact h.reply hopening
  | receive =>
      refine hsame.narrows ⟨?_, id, ?_, rfl⟩
      · simp [Remote.step, Remote.binding, Function.comp_def]
      · simp [Remote.step, Remote.enabled, Function.comp_def]
  | closeChannels =>
      dsimp only [Remote.step]
      split
      · refine hsame.narrows ⟨binding_closeChannels, id, ?_, rfl⟩
        rw [enabled_closeChannels]
        exact fun _ _ => id
      · exact hsame

theorem recorded_connected : Recorded remote (connected remote) [] where
  binding := by simp [connected, binding, Function.comp_def]
  unregistered _ port := List.not_mem_nil
  window port hport hne := by
    simp only [connected, enabled, Option.map_map, Option.map_eq_some_iff] at hport
    obtain ⟨_, _, rfl⟩ := hport
    exact absurd rfl hne
  opening opening ho := by nomatch ho
  accepts past opening rest heq := by simp at heq
  once past port rest heq := by simp at heq

/-! ## Calls that fail -/

/-- What a call that is under way relies on. -/
structure Borrowed (r : Remote) : Prop where
  requesting : r.owner = .requesting → ∃ binding, r.session.checkForwarded = .ok binding
  cancelling : r.owner = .cancelling → r.session.remoteActive ≠ none

theorem Borrowed.of_owner (hrequesting : r.owner ≠ .requesting)
    (hcancelling : r.owner ≠ .cancelling) : Borrowed r :=
  ⟨fun h => (hrequesting h).elim, fun h => (hcancelling h).elim⟩

/-- A session whose forward is in order can request it. -/
theorem requestable (howner : r.owner = .idle) (htoken : r.cancelled = false)
    {binding : RemoteEndpoint} (hcheck : r.session.checkForwarded = .ok binding) :
    Requestable r := by
  intro assigned hpos hlt
  have hsent : r.step .request = ([], { r with owner := .requesting }) := by
    simp [Remote.step, howner, Remote.request, hcheck, htoken]
  obtain ⟨port, session, hgranted⟩ : ∃ port session,
      r.session.requestRemoteForward (.ok assigned) = .ok (port, session) := by
    unfold Session.requestRemoteForward
    simp only [hcheck, bind, Except.bind]
    rw [if_neg (fun h => h.2 ⟨hpos, hlt⟩)]
    exact ⟨_, _, rfl⟩
  have hregistered : (Remote.step { r with owner := .requesting }
      (.requestAnswered (.success assigned))).1 = [.registered port] := by
    simp [Remote.step, Remote.requestAnswered, htoken, Answer.within, hgranted]
  refine ⟨port, ?_⟩
  simp only [answers, trace, List.flatMap_cons, List.flatMap_nil, hsent, hregistered]
  rfl

/-- A session with a registration can be asked to cancel it. -/
theorem cancelBegan_of_active (howner : r.owner = .idle) (hactive : r.session.remoteActive ≠ none) :
    (r.step .cancel).1 = [.cancelBegan] := by
  obtain ⟨active, hactive⟩ := Option.ne_none_iff_exists'.1 hactive
  simp [Remote.step, howner, Remote.cancel, hactive]

section Calls

variable {input : RemoteInput} {es : List RemoteEvent}

/-- A step beside the calls. -/
theorem Borrowed.aside (h : Borrowed r) (howner : r'.owner = r.owner)
    (hsession : r'.session = r.session) (hes : ∀ error, .requestFailed error ∉ es) :
    Borrowed r' ∧ Repeatable ⟨r, input, es, r'⟩ := by
  refine ⟨⟨?_, ?_⟩, fun error he => (hes error he).elim, ?_, ?_⟩
  · rw [howner, hsession]
    exact h.requesting
  · rw [howner, hsession]
    exact h.cancelling
  · intro hbefore hafter
    exact (hafter (howner.trans hbefore)).elim
  · intro hbefore hafter
    exact (hafter (howner.trans hbefore)).elim

/-- A step of the owner that ends no call. -/
theorem repeatable_of_free (howner : r.owner = .idle ∨ r.owner = .disconnecting)
    (hes : ∀ error, .requestFailed error ∈ es → r' = r) : Repeatable ⟨r, input, es, r'⟩ := by
  refine ⟨fun error he _ => hes error he, fun hrequesting => ?_, fun hcancelling => ?_⟩
  · rw [hrequesting] at howner
    simp at howner
  · rw [hcancelling] at howner
    simp at howner

/-- The end of a request that was sent. -/
theorem Borrowed.request_failed (h : Borrowed r) (howner : r.owner = .requesting) :
    Borrowed { r with owner := .idle } ∧ Repeatable ⟨r, input, es, { r with owner := .idle }⟩ := by
  obtain ⟨binding, hcheck⟩ := h.requesting howner
  refine ⟨.of_owner (by nofun) (by nofun), ?_, ?_, ?_⟩
  · intro error _ hidle
    rw [howner] at hidle
    nomatch hidle
  · intro _ _ _
    exact ⟨rfl, fun htoken => requestable rfl htoken hcheck⟩
  · intro hcancelling
    rw [howner] at hcancelling
    nomatch hcancelling

/-- The end of a cancel that has begun. -/
theorem Borrowed.cancel_failed (h : Borrowed r) (howner : r.owner = .cancelling) :
    Borrowed { r with owner := .idle } ∧ Repeatable ⟨r, input, es, { r with owner := .idle }⟩ := by
  have hactive := h.cancelling howner
  refine ⟨.of_owner (by nofun) (by nofun), ?_, ?_, ?_⟩
  · intro error _ hidle
    rw [howner] at hidle
    nomatch hidle
  · intro hrequesting
    rw [howner] at hrequesting
    nomatch hrequesting
  · intro _ _ _
    exact ⟨rfl, hactive, cancelBegan_of_active rfl hactive⟩

end Calls

/-- A request begins where its session allows it. -/
theorem borrowed_request (howner : r.owner = .idle) :
    Borrowed r.request.2 ∧ Repeatable ⟨r, .request, r.request.1, r.request.2⟩ := by
  have hidle : Borrowed r := .of_owner (by rw [howner]; nofun) (by rw [howner]; nofun)
  unfold Remote.request
  split
  · exact ⟨hidle, repeatable_of_free (.inl howner) fun _ _ => rfl⟩
  · rename_i binding hcheck
    split
    · exact ⟨hidle, repeatable_of_free (.inl howner) fun _ _ => rfl⟩
    · refine ⟨⟨fun _ => ⟨binding, hcheck⟩, by nofun⟩, ?_⟩
      exact repeatable_of_free (.inl howner) (by nofun)

theorem Borrowed.requestAnswered (h : Borrowed r) (howner : r.owner = .requesting)
    (answer : Answer ℕ) :
    Borrowed (r.requestAnswered answer).2 ∧
      Repeatable ⟨r, .requestAnswered answer, (r.requestAnswered answer).1,
        (r.requestAnswered answer).2⟩ := by
  unfold Remote.requestAnswered
  dsimp only
  split
  · exact h.request_failed howner
  · rename_i port session _
    refine ⟨.of_owner (by nofun) (by nofun), ?_, ?_, ?_⟩
    · intro error he
      nomatch List.mem_singleton.1 he
    · intro _ _ hnone
      exact (hnone port List.mem_cons_self).elim
    · intro hcancelling
      rw [howner] at hcancelling
      nomatch hcancelling

theorem borrowed_cancel (howner : r.owner = .idle) :
    Borrowed r.cancel.2 ∧ Repeatable ⟨r, .cancel, r.cancel.1, r.cancel.2⟩ := by
  have hidle : Borrowed r := .of_owner (by rw [howner]; nofun) (by rw [howner]; nofun)
  unfold Remote.cancel
  split
  · exact ⟨hidle, repeatable_of_free (.inl howner) fun _ _ => rfl⟩
  · rename_i active hactive
    refine ⟨⟨by nofun, fun _ => ?_⟩, ?_⟩
    · rw [show (r.store 0).session = r.session from rfl, hactive]
      nofun
    · refine repeatable_of_free (.inl howner) fun error he => ?_
      nomatch List.mem_singleton.1 he

theorem Borrowed.cancelAnswered (h : Borrowed r) (howner : r.owner = .cancelling)
    (answer : Answer Unit) :
    Borrowed (r.cancelAnswered answer).2 ∧
      Repeatable ⟨r, .cancelAnswered answer, (r.cancelAnswered answer).1,
        (r.cancelAnswered answer).2⟩ := by
  unfold Remote.cancelAnswered
  split
  · exact h.cancel_failed howner
  · refine ⟨.of_owner (by nofun) (by nofun), ?_, ?_, ?_⟩
    · intro error he
      nomatch List.mem_singleton.1 he
    · intro hrequesting
      rw [howner] at hrequesting
      nomatch hrequesting
    · intro _ _ hfailed
      exact (hfailed List.mem_cons_self).elim

/-- **A call that has ended leaves its session to the next one.** -/
theorem Borrowed.step (h : Borrowed r) (input : RemoteInput) :
    Borrowed (r.step input).2 ∧ Repeatable ⟨r, input, (r.step input).1, (r.step input).2⟩ := by
  have hsame : Borrowed r ∧ Repeatable ⟨r, input, [], r⟩ :=
    h.aside rfl rfl fun _ => List.not_mem_nil
  cases input with
  | request =>
      dsimp only [Remote.step]
      split
      · rename_i howner
        exact borrowed_request howner
      · exact hsame
  | requestAnswered answer =>
      dsimp only [Remote.step]
      split
      · rename_i howner
        exact h.requestAnswered howner answer
      · exact hsame
  | cancel =>
      dsimp only [Remote.step]
      split
      · rename_i howner
        exact borrowed_cancel howner
      · exact hsame
  | cancelAnswered answer =>
      dsimp only [Remote.step]
      split
      · rename_i howner
        exact h.cancelAnswered howner answer
      · exact hsame
  | abandon =>
      dsimp only [Remote.step]
      split
      · rename_i howner
        rcases howner with howner | howner
        · exact h.request_failed howner
        · exact h.cancel_failed howner
      · exact hsame
  | disconnect =>
      dsimp only [Remote.step]
      split
      · rename_i howner
        exact ⟨.of_owner (by nofun) (by nofun), repeatable_of_free (.inl howner) (by nofun)⟩
      · exact hsame
  | drop =>
      dsimp only [Remote.step]
      split
      · rename_i howner
        have hdropped : r.drop.2.owner = .dropped := by
          unfold Remote.drop
          dsimp only
          split
          · rfl
          · rfl
        refine ⟨.of_owner (by rw [hdropped]; nofun) (by rw [hdropped]; nofun), ?_⟩
        refine repeatable_of_free howner fun error he => ?_
        nomatch List.mem_singleton.1 he
      · exact hsame
  | cancelToken => exact h.aside rfl rfl fun _ => List.not_mem_nil
  | channelOpen address port =>
      cases hopening : r.opening with
      | some opening => simpa only [Remote.step, hopening] using hsame
      | none =>
          simp only [Remote.step, hopening]
          refine h.aside rfl rfl fun error he => ?_
          nomatch List.mem_singleton.1 he
  | reply =>
      cases hopening : r.opening with
      | none => simpa only [Remote.step, hopening] using hsame
      | some opening =>
          simp only [Remote.step, hopening]
          refine h.aside rfl rfl fun error he => ?_
          nomatch List.mem_singleton.1 he
  | receive => exact h.aside rfl rfl fun _ => List.not_mem_nil
  | closeChannels =>
      dsimp only [Remote.step]
      split
      · exact h.aside rfl rfl fun _ => List.not_mem_nil
      · exact hsame

end Remote

open Remote

/-- **Channels are decided for within the registration window.** Whatever
a session is asked to do, whatever the server answers and however the
two sides interleave, a channel is accepted only if it was in the window
when the handler decided for it. A session registers once at most, a
request that fails leaves it able to request again, and a cancel that
fails leaves the registration to be cancelled again. -/
theorem channels_in_window (remote : Option RemoteEndpoint) (inputs : List RemoteInput) :
    AcceptsInWindow remote (answers Remote.step (connected remote) inputs) ∧
      RegistersOnce (answers Remote.step (connected remote) inputs) ∧
      ∀ x ∈ trace Remote.step (connected remote) inputs, Repeatable x := by
  have hrecorded := answers_invariant (I := Recorded remote) recorded_connected
    (fun _ _ input h => h.step input) inputs
  refine ⟨hrecorded.accepts, hrecorded.once, ?_⟩
  have hborrowed : Borrowed (connected remote) := .of_owner (by nofun) (by nofun)
  exact trace_forall (A := fun _ => True) (fun _ input _ h => h.step input) hborrowed
    fun _ _ => trivial

/-- A cancel begins after the handler has read the port: the channel is
accepted when the window has closed. -/
theorem channels_in_window_answered :
    ¬ ∀ (remote : Option RemoteEndpoint) (inputs : List RemoteInput)
        (past : List RemoteEvent) (opening : Opening) (rest : List RemoteEvent),
        answers Remote.step (connected remote) inputs = past ++ .answered opening :: rest →
          opening.verdict = .ok () → Window remote past opening := by
  intro h
  have hwindow := h (some ⟨"127.0.0.1", 8022⟩)
    [.request, .requestAnswered (.success 0), .channelOpen "127.0.0.1" 8022, .cancel, .reply]
    [.registered 8022, .decided ⟨"127.0.0.1", 8022, .ok ()⟩, .cancelBegan]
    ⟨"127.0.0.1", 8022, .ok ()⟩ [] (by decide +kernel) rfl
  obtain ⟨-, -, earlier, since, hpast, hcancel, -⟩ := hwindow
  cases earlier with
  | nil =>
      obtain ⟨-, rfl⟩ := List.cons.inj hpast
      exact hcancel (by simp)
  | cons first earlier =>
      -- The port is registered once, by the first event.
      have htail := (List.cons.inj hpast).2
      have hmem : RemoteEvent.registered 8022 ∈
          [.decided ⟨"127.0.0.1", 8022, .ok ()⟩, RemoteEvent.cancelBegan] := by
        rw [htail]
        simp
      simp at hmem

end Ssh

end TunnelWarden
