import TunnelWarden.Common.Fault
import TunnelWarden.Forwarding.Tasks

/-!
# A Remote tunnel from its start to its stop

The worker goes through its phases in one order (`Turn`): once it is told
to stop no channel gets a task any more, `stop` cancels the token when the
far side has answered, or not in time, whether it takes the forward back,
and the session is disconnected when every task has been joined.
-/

namespace TunnelWarden

open Ssh Relay

/-- What is no turning point. -/
def RemoteWorkerEvent.Plain : RemoteWorkerEvent → Prop
  | .spawned _ | .joined _ | .stopping | .tokenCancelled | .disconnecting => False
  | .session (.registered _) => False
  | _ => True

namespace RemoteForwardWorker

/-- How far a worker is. -/
inductive Phase where
  | starting
  | running
  | unregistering
  | draining
  | over
  deriving DecidableEq

def phaseOf : RemoteWorkerControl → Phase
  | .starting | .registering => .starting
  | .polling _ | .pinging | .returned _ => .running
  | .unregistering => .unregistering
  | .draining _ | .aborting _ => .draining
  | .refusing _ | .refused _ | .disconnecting _ | .stopped _ => .over

def phase (s : RemoteForwardWorker) : Phase := phaseOf s.control

/-- What the session is at, at an await of the worker. -/
def Fits (control : RemoteWorkerControl) (r : Remote) : Prop :=
  match control with
  | .starting => r.owner = .idle
  | .registering => r.owner = .requesting
  | .polling _ | .pinging | .returned _ => r.owner = .idle ∧ r.session.remoteActive ≠ none
  | .unregistering => r.owner = .cancelling
  | _ => True

/-- The session is where the worker needs it. -/
def Linked (s : RemoteForwardWorker) : Prop := Fits s.control s.session

/-- **The turns of a worker.** -/
inductive Turn (s : RemoteForwardWorker) :
    List RemoteWorkerEvent → RemoteForwardWorker → Prop where
  | within : (∀ e ∈ events, e.Plain) → s'.phase = s.phase → Turn s events s'
  | spawns (channel : ℕ) : s.phase = .running → s'.phase = .running →
      Turn s [.spawned channel] s'
  | joins (channel : ℕ) : s.phase = .running ∨ s.phase = .draining → s'.phase = s.phase →
      Turn s [.joined channel] s'
  | registers (port : ℕ) : s.phase = .starting → s'.phase = .running →
      Turn s [.session (.registered port)] s'
  | refuses (error : SshConnectError) : s.phase = .starting → s'.phase = .over →
      Turn s [.session (.requestFailed error), .disconnecting] s'
  | invalid : s.phase = .starting → s'.phase = .over → Turn s [.disconnecting] s'
  | stops : s.phase = .running → s'.phase = .unregistering →
      Turn s [.stopping, .session .cancelBegan] s'
  | cancels (result : Except SshConnectError Unit) : s.phase = .unregistering →
      s'.phase = .draining → Turn s [.session (.cancelReturned result), .tokenCancelled] s'
  | disconnects : s.phase = .draining → s.connections = [] → s'.phase = .over →
      Turn s [.disconnecting] s'

variable {s s' : RemoteForwardWorker} {events record : List RemoteWorkerEvent}

/-- A turn that leaves the session where the worker needs it. -/
def Turns (s : RemoteForwardWorker) (r : List RemoteWorkerEvent × RemoteForwardWorker) : Prop :=
  Turn s r.1 r.2 ∧ Linked r.2

theorem turns_within (hphase : s'.phase = s.phase) (hlinked : Linked s') : Turns s ([], s') :=
  ⟨.within (fun _ he => by cases he) hphase, hlinked⟩

theorem turns_same (h : Linked s) : Turns s ([], s) := turns_within rfl h

/-- The owner of a session does nothing. -/
structure Untouched (r r' : Remote) : Prop where
  owner : r'.owner = r.owner
  session : r'.session = r.session

theorem Linked.untouched (h : Linked s) (hcontrol : s'.control = s.control)
    (hsession : Untouched s.session s'.session) : Linked s' := by
  unfold Linked at h ⊢
  rw [hcontrol]
  cases hc : s.control with
  | starting => rw [hc] at h; exact hsession.owner.trans h
  | registering => rw [hc] at h; exact hsession.owner.trans h
  | polling branch =>
      rw [hc] at h
      exact ⟨hsession.owner.trans h.1, by rw [hsession.session]; exact h.2⟩
  | pinging =>
      rw [hc] at h
      exact ⟨hsession.owner.trans h.1, by rw [hsession.session]; exact h.2⟩
  | returned result =>
      rw [hc] at h
      exact ⟨hsession.owner.trans h.1, by rw [hsession.session]; exact h.2⟩
  | unregistering => rw [hc] at h; exact hsession.owner.trans h
  | _ => trivial

theorem untouched_channelOpen (r : Remote) (address : String) (port : ℕ) :
    Untouched r (r.step (.channelOpen address port)).2 := by
  unfold Remote.step
  dsimp only
  split
  · exact ⟨rfl, rfl⟩
  · exact ⟨rfl, rfl⟩

theorem untouched_reply (r : Remote) : Untouched r (r.step .reply).2 := by
  unfold Remote.step
  dsimp only
  split
  · exact ⟨rfl, rfl⟩
  · exact ⟨rfl, rfl⟩

theorem turns_channelOpen (h : Linked s) (address : String) (port : ℕ) :
    Turns s (s.onSession [.channelOpen address port]) := by
  refine ⟨.within (fun e he => ?_) rfl, h.untouched rfl (untouched_channelOpen _ _ _)⟩
  obtain ⟨event, hevent, rfl⟩ := List.mem_map.1 he
  cases hopening : s.session.opening with
  | some opening => simp [answers, trace, Remote.step, hopening] at hevent
  | none =>
      simp only [answers, trace, Remote.step, hopening, List.flatMap_cons, List.flatMap_nil,
        List.append_nil, List.mem_singleton] at hevent
      rw [hevent]
      trivial

theorem turns_reply (h : Linked s) : Turns s s.reply := by
  have hplain : ∀ e ∈ (s.onSession [.reply]).1, e.Plain := by
    intro e he
    obtain ⟨event, hevent, rfl⟩ := List.mem_map.1 he
    cases hopening : s.session.opening with
    | none => simp [answers, trace, Remote.step, hopening] at hevent
    | some opening =>
        simp only [answers, trace, Remote.step, hopening, Remote.reply, List.flatMap_cons,
          List.flatMap_nil, List.append_nil, List.mem_singleton] at hevent
        rw [hevent]
        trivial
  have huntouched : Untouched s.session (s.onSession [.reply]).2.session := untouched_reply _
  unfold reply
  dsimp only
  split
  · refine ⟨.within (fun e he => ?_) rfl, h.untouched rfl huntouched⟩
    rcases List.mem_append.1 he with he | he
    · exact hplain e he
    · rw [List.mem_singleton.1 he]
      trivial
  · exact ⟨.within hplain rfl, h.untouched rfl huntouched⟩

/-! ## The registration -/

theorem answers_singleton (r : Remote) (input : RemoteInput) :
    answers Remote.step r [input] = (r.step input).1 := by
  rw [answers_cons]
  exact List.append_nil _

/-- What becomes of a request for a forward. -/
inductive Requested (events : List RemoteEvent) (r : Remote) : Prop where
  | registered (port : ℕ) (hevents : events = [.registered port]) (howner : r.owner = .idle)
      (hactive : r.session.remoteActive ≠ none)
  | failed (error : SshConnectError) (hevents : events = [.requestFailed error])
  | waits (hevents : events = []) (howner : r.owner = .requesting)

/-- A registration leaves something to cancel. -/
theorem active_of_registered {session session' : Session} {answer : Except SshConnectError ℕ}
    {port : ℕ} (h : session.requestRemoteForward answer = .ok (port, session')) :
    session'.remoteActive ≠ none := by
  unfold Session.requestRemoteForward at h
  obtain ⟨binding, -, h⟩ := bind_eq_ok.1 h
  obtain ⟨assigned, -, h⟩ := bind_eq_ok.1 h
  simp only [bind, Except.bind] at h
  split at h
  · simp [throw, throwThe, MonadExceptOf.throw] at h
  · obtain ⟨-, rfl⟩ := Prod.mk.inj (Except.ok.inj h)
    exact Option.some_ne_none _

theorem requested_request {r : Remote} (howner : r.owner = .idle) :
    Requested (r.step .request).1 (r.step .request).2 := by
  simp only [Remote.step, howner, if_true]
  unfold Remote.request
  split
  · exact .failed _ rfl
  · split
    · exact .failed _ rfl
    · exact .waits rfl rfl

theorem requested_answered {r : Remote} (howner : r.owner = .requesting) (answer : Answer ℕ) :
    Requested (r.step (.requestAnswered answer)).1 (r.step (.requestAnswered answer)).2 := by
  simp only [Remote.step, howner, if_true]
  unfold Remote.requestAnswered
  dsimp only
  split
  · exact .failed _ rfl
  · rename_i port session hregistered
    refine .registered port rfl rfl ?_
    exact active_of_registered hregistered

/-- The session says nothing of its disconnect. -/
theorem onSession_disconnect (s : RemoteForwardWorker) : (s.onSession [.disconnect]).1 = [] := by
  have hnone : (s.session.step .disconnect).1 = [] := by
    simp only [Remote.step]
    split
    · rfl
    · rfl
  exact congrArg _ ((answers_singleton _ _).trans hnone)

theorem turns_invalid (hphase : s.phase = .starting) (error : RemoteForwardError) :
    Turns s (s.refuse error) := by
  unfold refuse
  simp only [onSession_disconnect]
  exact ⟨.invalid hphase rfl, trivial⟩

theorem turns_request {input : RemoteInput} (hphase : s.phase = .starting)
    (h : Requested (s.session.step input).1 (s.session.step input).2) :
    Turns s (s.request input) := by
  unfold request
  have hevents : (s.onSession [input]).1 = (s.session.step input).1.map .session :=
    congrArg _ (answers_singleton _ _)
  have hsession : (s.onSession [input]).2.session = (s.session.step input).2 := rfl
  cases h with
  | registered port hregistered howner hactive =>
      rw [hregistered] at hevents
      simp only [hevents]
      exact ⟨.registers port hphase rfl, howner, hactive⟩
  | failed error hfailed =>
      rw [hfailed] at hevents
      simp only [hevents]
      unfold refuse
      simp only [onSession_disconnect]
      exact ⟨.refuses error hphase rfl, trivial⟩
  | waits hnone howner =>
      rw [hnone] at hevents
      simp only [hevents]
      exact ⟨.within (fun _ he => by cases he) hphase.symm, howner⟩

/-! ## The loop and the stop -/

theorem turns_task (h : Linked s) (place : ℕ) (event : RelayTaskEvent) :
    Turns s ([], s.task place event) := by
  unfold task
  split
  · exact turns_same h
  · exact turns_within rfl h

theorem turns_joinReturned (h : Linked s) (hphase : s.phase = .running ∨ s.phase = .draining)
    (place : ℕ) : Turns s (s.joinReturned place) := by
  unfold joinReturned
  split
  · exact ⟨.joins _ hphase rfl, h⟩
  · exact turns_same h

theorem turns_joinAborted (h : Linked s) (hphase : s.phase = .draining) (place : ℕ) :
    Turns s (s.joinAborted place) := by
  unfold joinAborted
  split
  · exact turns_same h
  · exact ⟨.joins _ (.inr hphase) rfl, h⟩
  · exact ⟨.joins _ (.inr hphase) rfl, h⟩

theorem turns_join (h : Linked s) {branch : RemoteBranch} (hcontrol : s.control = .polling branch)
    (place : ℕ) : Turns s (s.join place) := by
  have hphase : s.phase = .running := by rw [phase, hcontrol]; rfl
  have hlinked : s.session.owner = .idle ∧ s.session.session.remoteActive ≠ none := by
    rw [Linked, hcontrol] at h
    exact h
  unfold join
  split
  · exact turns_same h
  · rename_i events t hsome heq
    unfold joinReturned at heq
    split at heq
    · obtain ⟨rfl, rfl⟩ := Prod.mk.inj heq
      exact ⟨.joins _ (.inl hphase) hphase.symm, hlinked⟩
    · obtain ⟨rfl, rfl⟩ := Prod.mk.inj heq
      exact absurd rfl hsome

theorem turns_receive (h : Linked s) {branch : RemoteBranch}
    (hcontrol : s.control = .polling branch) : Turns s s.receive := by
  have hphase : s.phase = .running := by rw [phase, hcontrol]; rfl
  have hlinked : s.session.owner = .idle ∧ s.session.session.remoteActive ≠ none := by
    rw [Linked, hcontrol] at h
    exact h
  unfold receive
  split
  · split
    · exact turns_within hphase.symm hlinked
    · exact turns_same h
  · rename_i channel queue hqueue
    exact ⟨.spawns channel hphase rfl, hlinked⟩

/-- A worker that runs has a forward, and asks the far side to take it
back. -/
theorem turns_stop (h : Linked s) (hstoppable : stoppable s.control = true) : Turns s s.stop := by
  have hphase : s.phase = .running := by
    unfold stoppable at hstoppable
    unfold phase
    split at hstoppable
    · rename_i heq; rw [heq]; rfl
    · rename_i heq; rw [heq]; rfl
    · rename_i heq; rw [heq]; rfl
    · cases hstoppable
  have hlinked : s.session.owner = .idle ∧ s.session.session.remoteActive ≠ none := by
    unfold stoppable at hstoppable
    unfold Linked at h
    split at hstoppable
    · rename_i heq; rw [heq] at h; exact h
    · rename_i heq; rw [heq] at h; exact h
    · rename_i heq; rw [heq] at h; exact h
    · cases hstoppable
  obtain ⟨howner, hactive⟩ := hlinked
  obtain ⟨active, hactive⟩ := Option.ne_none_iff_exists'.1 hactive
  have hbegan : s.session.step .cancel =
      ([.cancelBegan], { s.session.store 0 with owner := .cancelling }) := by
    simp only [Remote.step, howner, if_true, Remote.cancel, hactive]
  have hevents : (s.onSession [.cancel]).1 = [.session .cancelBegan] :=
    congrArg _ ((answers_singleton _ _).trans (congrArg Prod.fst hbegan))
  have hsession : (s.onSession [.cancel]).2.session.owner = .cancelling :=
    congrArg (fun r => r.2.owner) hbegan
  unfold stop unregister
  simp only [hevents]
  exact ⟨.stops hphase rfl, hsession⟩

theorem turns_unregister (h : Linked s) (hcontrol : s.control = .unregistering)
    (answer : Answer Unit) : Turns s (s.unregister (.cancelAnswered answer)) := by
  have hphase : s.phase = .unregistering := by rw [phase, hcontrol]; rfl
  have howner : s.session.owner = .cancelling := by
    rw [Linked, hcontrol] at h
    exact h
  have hreturned : ∃ result, (s.session.step (.cancelAnswered answer)).1 =
      [.cancelReturned result] := by
    simp only [Remote.step, howner, if_true, Remote.cancelAnswered]
    split
    · exact ⟨_, rfl⟩
    · exact ⟨_, rfl⟩
  obtain ⟨result, hreturned⟩ := hreturned
  have hevents : (s.onSession [.cancelAnswered answer]).1 =
      [.session (.cancelReturned result)] :=
    congrArg _ ((answers_singleton _ _).trans hreturned)
  unfold unregister
  simp only [hevents]
  exact ⟨.cancels result hphase rfl, trivial⟩

theorem turns_drained (h : Linked s) (hphase : s.phase = .draining)
    (result : Except SshConnectError Unit) : Turns s (s.drained result) := by
  unfold drained
  split
  · rename_i hempty
    simp only [onSession_disconnect]
    exact ⟨.disconnects hphase hempty rfl, trivial⟩
  · exact turns_same h

theorem closeChannels_silent (r : Remote) : (r.step .closeChannels).1 = [] := by
  simp only [Remote.step]
  split
  · rfl
  · rfl

/-- The end of the session is no turning point. -/
theorem turns_dropSession (hphase : s.phase = .over) {control : RemoteWorkerControl}
    (hover : phaseOf control = .over) (hfits : ∀ r, Fits control r) :
    Turns s (s.dropSession control) := by
  refine ⟨.within (fun e he => ?_) (hover.trans hphase.symm), hfits _⟩
  obtain ⟨event, hevent, rfl⟩ := List.mem_map.1 he
  rw [answers_cons, answers_singleton, closeChannels_silent, List.append_nil] at hevent
  simp only [Remote.step] at hevent
  split at hevent
  · obtain rfl := List.mem_singleton.1 hevent
    trivial
  · cases hevent

/-- **Every step is one of the turns.** -/
theorem turns_step (h : Linked s) (input : RemoteWorkerInput) : Turns s (s.step input) := by
  unfold step
  split
  · split
    · exact turns_same h
    · exact turns_channelOpen h _ _
  · split
    · exact turns_same h
    · exact turns_reply h
  · exact turns_within rfl h
  · refine ⟨.within (fun e he => ?_) rfl, h⟩
    rw [List.mem_singleton.1 he]
    trivial
  · exact turns_task h _ _
  · rename_i hcontrol
    have hphase : s.phase = .starting := by rw [phase, hcontrol]; rfl
    rw [Linked, hcontrol] at h
    unfold start
    split
    · exact turns_request hphase (requested_request h)
    · exact turns_invalid hphase _
  · rename_i answer hcontrol
    have hphase : s.phase = .starting := by rw [phase, hcontrol]; rfl
    rw [Linked, hcontrol] at h
    exact turns_request hphase (requested_answered h answer)
  · rename_i error hcontrol
    have hphase : s.phase = .over := by rw [phase, hcontrol]; rfl
    exact turns_dropSession hphase rfl fun _ => trivial
  · rename_i branch hcontrol
    have hphase : s.phase = .running := by rw [phase, hcontrol]; rfl
    rw [Linked, hcontrol] at h
    unfold poll
    split
    · exact turns_within hphase.symm h
    · exact turns_within hphase.symm h
  · rename_i closed hcontrol
    have hphase : s.phase = .running := by rw [phase, hcontrol]; rfl
    rw [Linked, hcontrol] at h
    unfold sessionTick
    split
    · exact turns_within hphase.symm h
    · exact turns_within hphase.symm h
  · rename_i hcontrol
    have hphase : s.phase = .running := by rw [phase, hcontrol]; rfl
    rw [Linked, hcontrol] at h
    exact turns_within hphase.symm h
  · rename_i result hcontrol
    have hphase : s.phase = .running := by rw [phase, hcontrol]; rfl
    rw [Linked, hcontrol] at h
    unfold pinged
    split
    · exact turns_within hphase.symm h
    · exact turns_within hphase.symm h
  · rename_i place hcontrol
    exact turns_join h hcontrol place
  · rename_i hcontrol
    split
    · exact turns_receive h hcontrol
    · exact turns_same h
  · split
    · rename_i hstoppable
      exact turns_stop h hstoppable
    · exact turns_same h
  · rename_i answer hcontrol
    exact turns_unregister h hcontrol answer
  · rename_i result place hcontrol
    have hphase : s.phase = .draining := by rw [phase, hcontrol]; rfl
    exact turns_joinReturned h (.inr hphase) place
  · rename_i result hcontrol
    have hphase : s.phase = .draining := by rw [phase, hcontrol]; rfl
    split
    · exact turns_same h
    · refine ⟨.within (fun e he => ?_) hphase.symm, trivial⟩
      rw [List.mem_singleton.1 he]
      trivial
  · rename_i result place hcontrol
    have hphase : s.phase = .draining := by rw [phase, hcontrol]; rfl
    exact turns_joinAborted h hphase place
  · rename_i result hcontrol
    have hphase : s.phase = .draining := by rw [phase, hcontrol]; rfl
    exact turns_drained h hphase result
  · rename_i result hcontrol
    have hphase : s.phase = .draining := by rw [phase, hcontrol]; rfl
    exact turns_drained h hphase result
  · rename_i result hcontrol
    have hphase : s.phase = .over := by rw [phase, hcontrol]; rfl
    exact turns_dropSession hphase rfl fun _ => trivial
  · exact turns_same h

/-! ## The order of a run -/

/-- **The order of the events.** Once the worker is told to stop no
channel gets a task. `stop` cancels the token when the far side was asked
to take the forward back and that is over. A session is disconnected when
every task has been joined, and a forward it had has been asked back. -/
structure StopOrder (record : List RemoteWorkerEvent) : Prop where
  stopping : ∀ past rest, record = past ++ .stopping :: rest → spawned rest = []
  cancelled : ∀ past rest, record = past ++ .tokenCancelled :: rest →
    .stopping ∈ past ∧ .session .cancelBegan ∈ past ∧
      ∃ result, .session (.cancelReturned result) ∈ past
  disconnecting : ∀ past rest, record = past ++ .disconnecting :: rest →
    (joined past).Perm (spawned past) ∧ (∀ port, .session (.registered port) ∈ past →
      .tokenCancelled ∈ past) ∧ spawned rest = [] ∧ joined rest = []

/-- The order is kept where an event is allowed. -/
theorem StopOrder.concat (h : StopOrder record) {e : RemoteWorkerEvent}
    (hspawned : ∀ channel, e = .spawned channel → .stopping ∉ record ∧ .disconnecting ∉ record)
    (hjoined : ∀ channel, e = .joined channel → .disconnecting ∉ record)
    (hcancelled : e = .tokenCancelled → .stopping ∈ record ∧ .session .cancelBegan ∈ record ∧
      ∃ result, .session (.cancelReturned result) ∈ record)
    (hdisconnecting : e = .disconnecting → (joined record).Perm (spawned record) ∧
      ∀ port, .session (.registered port) ∈ record → .tokenCancelled ∈ record) :
    StopOrder (record ++ [e]) where
  stopping past rest heq := by
    rcases List.eq_nil_or_concat rest with rfl | ⟨rest, last, rfl⟩
    · rfl
    · rw [List.concat_eq_append] at heq ⊢
      rw [← List.cons_append, ← List.append_assoc] at heq
      obtain ⟨hrecord, hlast⟩ := List.append_inj' heq rfl
      obtain rfl := List.singleton_inj.1 hlast
      rw [spawned_append, h.stopping past rest hrecord]
      cases e with
      | spawned channel =>
          have hmem : RemoteWorkerEvent.stopping ∈ record := by rw [hrecord]; simp
          exact absurd hmem (hspawned channel rfl).1
      | _ => rfl
  cancelled past rest heq := by
    rcases concat_eq_append_cons heq with ⟨rfl, rfl⟩ | ⟨rest', hrecord⟩
    · exact hcancelled rfl
    · exact h.cancelled past rest' hrecord
  disconnecting past rest heq := by
    rcases List.eq_nil_or_concat rest with rfl | ⟨rest, last, rfl⟩
    · obtain ⟨rfl, hlast⟩ := List.append_inj' heq rfl
      obtain ⟨hjoins, hforward⟩ := hdisconnecting (List.singleton_inj.1 hlast)
      exact ⟨hjoins, hforward, rfl, rfl⟩
    · rw [List.concat_eq_append] at heq ⊢
      rw [← List.cons_append, ← List.append_assoc] at heq
      obtain ⟨hrecord, hlast⟩ := List.append_inj' heq rfl
      obtain rfl := List.singleton_inj.1 hlast
      obtain ⟨hjoins, hforward, hnospawn, hnojoin⟩ := h.disconnecting past rest hrecord
      have hmem : RemoteWorkerEvent.disconnecting ∈ record := by rw [hrecord]; simp
      refine ⟨hjoins, hforward, ?_, ?_⟩
      · rw [spawned_append, hnospawn]
        cases e with
        | spawned channel => exact absurd hmem (hspawned channel rfl).2
        | _ => rfl
      · rw [joined_append, hnojoin]
        cases e with
        | joined channel => exact absurd hmem (hjoined channel rfl)
        | _ => rfl

/-- What is neither a task's nor a turning point is allowed at any time. -/
theorem StopOrder.plain (h : StopOrder record) (hplain : ∀ e ∈ events, e.Plain) :
    StopOrder (record ++ events) := by
  induction events generalizing record with
  | nil => rwa [List.append_nil]
  | cons e events ih =>
      have he := hplain e List.mem_cons_self
      rw [← List.singleton_append, ← List.append_assoc]
      refine ih (h.concat ?_ ?_ ?_ ?_) fun x hx => hplain x (List.mem_cons_of_mem _ hx)
      · rintro channel rfl
        exact he.elim
      · rintro channel rfl
        exact he.elim
      · rintro rfl
        exact he.elim
      · rintro rfl
        exact he.elim

/-- What the record says of the phase a worker is in. -/
structure Ordered (s : RemoteForwardWorker) (record : List RemoteWorkerEvent) : Prop where
  order : StopOrder record
  linked : Linked s
  starting : s.phase = .starting → spawned record = [] ∧
    ∀ port, .session (.registered port) ∉ record
  stopping : .stopping ∈ record → s.phase ≠ .starting ∧ s.phase ≠ .running
  disconnecting : .disconnecting ∈ record → s.phase = .over
  unregistering : s.phase = .unregistering →
    .stopping ∈ record ∧ .session .cancelBegan ∈ record
  draining : s.phase = .draining → .tokenCancelled ∈ record

/-- What is plain says nothing of the tasks, and of no turning point. -/
theorem not_mem_of_plain (hplain : ∀ e ∈ events, e.Plain) {e : RemoteWorkerEvent}
    (he : ¬ e.Plain) : e ∉ events := fun hmem => he (hplain e hmem)

theorem spawned_of_plain (hplain : ∀ e ∈ events, e.Plain) : spawned events = [] := by
  refine List.filterMap_eq_nil_iff.2 fun e he => ?_
  cases e with
  | spawned channel => exact (hplain _ he).elim
  | _ => rfl

theorem mem_append_of_not_mem {e : RemoteWorkerEvent} (he : e ∉ events) :
    e ∈ record ++ events ↔ e ∈ record := by
  rw [List.mem_append, or_iff_left he]

/-- Nothing is demanded of a worker that is over. -/
theorem ordered_over (horder : StopOrder record) (hover : s.phase = .over) (hlinked : Linked s) :
    Ordered s record where
  order := horder
  linked := hlinked
  starting h := by rw [hover] at h; cases h
  stopping _ := by rw [hover]; exact ⟨by decide, by decide⟩
  disconnecting _ := hover
  unregistering h := by rw [hover] at h; cases h
  draining h := by rw [hover] at h; cases h

/-- A worker that is not started has nothing to join. -/
theorem Ordered.idle {remote : Option RemoteEndpoint} (h : Ordered s record)
    (hrecorded : Recorded remote s record) (hstarting : s.phase = .starting) :
    joined record = [] ∧ spawned record = [] := by
  have hspawned := (h.starting hstarting).1
  have htasks := hrecorded.tasks
  rw [hspawned] at htasks
  exact ⟨(List.append_eq_nil_iff.1 htasks.eq_nil).1, hspawned⟩

/-- A session is disconnected where nothing is to be joined. -/
theorem StopOrder.disconnect (h : StopOrder record) (hjoins : (joined record).Perm (spawned record))
    (hforward : ∀ port, .session (.registered port) ∈ record → .tokenCancelled ∈ record) :
    StopOrder (record ++ [.disconnecting]) :=
  h.concat nofun nofun nofun fun _ => ⟨hjoins, hforward⟩

theorem Ordered.step {remote : Option RemoteEndpoint} (h : Ordered s record)
    (hrecorded : Recorded remote s record) (input : RemoteWorkerInput) :
    Ordered (s.step input).2 (record ++ (s.step input).1) := by
  obtain ⟨hturn, hlinked⟩ := turns_step h.linked input
  generalize (s.step input).1 = events at hturn ⊢
  generalize (s.step input).2 = s' at hturn hlinked ⊢
  cases hturn with
  | within hplain hphase =>
      exact {
        order := h.order.plain hplain
        linked := hlinked
        starting := fun hstarting => by
          rw [hphase] at hstarting
          obtain ⟨hspawned, hregistered⟩ := h.starting hstarting
          refine ⟨by rw [spawned_append, hspawned, spawned_of_plain hplain]; rfl, fun port => ?_⟩
          rw [mem_append_of_not_mem (not_mem_of_plain hplain id)]
          exact hregistered port
        stopping := fun hmem => by
          rw [mem_append_of_not_mem (not_mem_of_plain hplain id)] at hmem
          rw [hphase]
          exact h.stopping hmem
        disconnecting := fun hmem => by
          rw [mem_append_of_not_mem (not_mem_of_plain hplain id)] at hmem
          rw [hphase]
          exact h.disconnecting hmem
        unregistering := fun hunregistering => by
          rw [hphase] at hunregistering
          obtain ⟨hstopping, hbegan⟩ := h.unregistering hunregistering
          exact ⟨List.mem_append_left _ hstopping, List.mem_append_left _ hbegan⟩
        draining := fun hdraining => by
          rw [hphase] at hdraining
          exact List.mem_append_left _ (h.draining hdraining) }
  | spawns channel hrunning hrunning' =>
      have hstopping : RemoteWorkerEvent.stopping ∉ record := fun hmem =>
        (h.stopping hmem).2 hrunning
      have hdisconnecting : RemoteWorkerEvent.disconnecting ∉ record := fun hmem => by
        rw [h.disconnecting hmem] at hrunning
        cases hrunning
      exact {
        order := h.order.concat (fun _ _ => ⟨hstopping, hdisconnecting⟩) nofun nofun nofun
        linked := hlinked
        starting := fun hstarting => by rw [hrunning'] at hstarting; cases hstarting
        stopping := fun hmem => by simp [hstopping] at hmem
        disconnecting := fun hmem => by simp [hdisconnecting] at hmem
        unregistering := fun hother => by rw [hrunning'] at hother; cases hother
        draining := fun hother => by rw [hrunning'] at hother; cases hother }
  | joins channel hbusy hphase =>
      have hdisconnecting : RemoteWorkerEvent.disconnecting ∉ record := fun hmem => by
        rw [h.disconnecting hmem] at hbusy
        rcases hbusy with hbusy | hbusy <;> cases hbusy
      exact {
        order := h.order.concat nofun (fun _ _ => hdisconnecting) nofun nofun
        linked := hlinked
        starting := fun hstarting => by
          rw [hphase] at hstarting
          rw [hstarting] at hbusy
          rcases hbusy with hbusy | hbusy <;> cases hbusy
        stopping := fun hmem => by
          rw [mem_append_of_not_mem (by simp)] at hmem
          rw [hphase]
          exact h.stopping hmem
        disconnecting := fun hmem => by simp [hdisconnecting] at hmem
        unregistering := fun hother => by
          rw [hphase] at hother
          rw [hother] at hbusy
          rcases hbusy with hbusy | hbusy <;> cases hbusy
        draining := fun hdraining => by
          rw [hphase] at hdraining
          exact List.mem_append_left _ (h.draining hdraining) }
  | registers port hstarting hrunning =>
      have hstopping : RemoteWorkerEvent.stopping ∉ record := fun hmem =>
        (h.stopping hmem).1 hstarting
      have hdisconnecting : RemoteWorkerEvent.disconnecting ∉ record := fun hmem => by
        rw [h.disconnecting hmem] at hstarting
        cases hstarting
      exact {
        order := h.order.concat nofun nofun nofun nofun
        linked := hlinked
        starting := fun hother => by rw [hrunning] at hother; cases hother
        stopping := fun hmem => by simp [hstopping] at hmem
        disconnecting := fun hmem => by simp [hdisconnecting] at hmem
        unregistering := fun hother => by rw [hrunning] at hother; cases hother
        draining := fun hother => by rw [hrunning] at hother; cases hother }
  | refuses error hstarting hover =>
      obtain ⟨hjoined, hspawned⟩ := h.idle hrecorded hstarting
      have hregistered := (h.starting hstarting).2
      rw [← List.singleton_append, ← List.append_assoc]
      have hfailed : StopOrder (record ++ [.session (.requestFailed error)]) :=
        h.order.concat nofun nofun nofun nofun
      refine ordered_over (hfailed.disconnect ?_ fun port hmem => ?_) hover hlinked
      · rw [joined_append, spawned_append, hjoined, hspawned]
        exact List.Perm.nil
      · rw [mem_append_of_not_mem (by simp)] at hmem
        exact absurd hmem (hregistered port)
  | invalid hstarting hover =>
      obtain ⟨hjoined, hspawned⟩ := h.idle hrecorded hstarting
      have hregistered := (h.starting hstarting).2
      refine ordered_over (h.order.disconnect ?_ fun port hmem => ?_) hover hlinked
      · rw [hjoined, hspawned]
      · exact absurd hmem (hregistered port)
  | stops hrunning hunregistering =>
      have hdisconnecting : RemoteWorkerEvent.disconnecting ∉ record := fun hmem => by
        rw [h.disconnecting hmem] at hrunning
        cases hrunning
      have hstopped : StopOrder (record ++ [.stopping]) := h.order.concat nofun nofun nofun nofun
      have horder : StopOrder (record ++ [.stopping] ++ [.session .cancelBegan]) :=
        hstopped.concat nofun nofun nofun nofun
      rw [List.append_assoc] at horder
      exact {
        order := horder
        linked := hlinked
        starting := fun hother => by rw [hunregistering] at hother; cases hother
        stopping := fun _ => by rw [hunregistering]; exact ⟨by decide, by decide⟩
        disconnecting := fun hmem => by simp [hdisconnecting] at hmem
        unregistering := fun _ => by simp
        draining := fun hother => by rw [hunregistering] at hother; cases hother }
  | cancels result hunregistering hdraining =>
      obtain ⟨hstopping, hbegan⟩ := h.unregistering hunregistering
      have hdisconnecting : RemoteWorkerEvent.disconnecting ∉ record := fun hmem => by
        rw [h.disconnecting hmem] at hunregistering
        cases hunregistering
      have hreturned : StopOrder (record ++ [.session (.cancelReturned result)]) :=
        h.order.concat nofun nofun nofun nofun
      have horder : StopOrder
          (record ++ [.session (.cancelReturned result)] ++ [.tokenCancelled]) :=
        hreturned.concat nofun nofun
          (fun _ => ⟨List.mem_append_left _ hstopping, List.mem_append_left _ hbegan, result,
            List.mem_append_right _ List.mem_cons_self⟩) nofun
      rw [List.append_assoc] at horder
      exact {
        order := horder
        linked := hlinked
        starting := fun hother => by rw [hdraining] at hother; cases hother
        stopping := fun _ => by rw [hdraining]; exact ⟨by decide, by decide⟩
        disconnecting := fun hmem => by simp [hdisconnecting] at hmem
        unregistering := fun hother => by rw [hdraining] at hother; cases hother
        draining := fun _ => by simp }
  | disconnects hdraining hempty hover =>
      have hcancelled := h.draining hdraining
      have htasks := hrecorded.tasks
      rw [hempty, List.map_nil, List.append_nil] at htasks
      exact ordered_over (h.order.disconnect htasks fun _ _ => hcancelled) hover hlinked

/-! ## The token -/

/-- The record tells who has cancelled the token. -/
def TokenTold (s : RemoteForwardWorker) (record : List RemoteWorkerEvent) : Prop :=
  s.cancelled = true ↔ .ownerCancelled ∈ record ∨ .tokenCancelled ∈ record

/-- Is this the cancellation of the token? -/
def cancelsToken : RemoteWorkerEvent → Bool
  | .ownerCancelled | .tokenCancelled => true
  | _ => false

/-- The token is cancelled where one of the events says so. -/
def TokenKept (s : RemoteForwardWorker) (r : List RemoteWorkerEvent × RemoteForwardWorker) :
    Prop :=
  r.2.cancelled = (s.cancelled || r.1.any cancelsToken)

theorem tokenKept_of {r : List RemoteWorkerEvent × RemoteForwardWorker}
    (hcancelled : r.2.cancelled = s.cancelled) (hnone : r.1.any cancelsToken = false) :
    TokenKept s r := by
  rw [TokenKept, hcancelled, hnone, Bool.or_false]

theorem any_onSession (inputs : List RemoteInput) :
    (s.onSession inputs).1.any cancelsToken = false := by
  simp [onSession, cancelsToken]

theorem tokenKept_refuse (error : RemoteForwardError) : TokenKept s (s.refuse error) :=
  tokenKept_of rfl (any_onSession _)

theorem tokenKept_request (input : RemoteInput) : TokenKept s (s.request input) := by
  have hnone := any_onSession (s := s) [input]
  unfold request
  dsimp only
  split
  · exact tokenKept_of rfl hnone
  · refine tokenKept_of rfl ?_
    rw [List.any_append, hnone]
    exact any_onSession _
  · exact tokenKept_of rfl hnone

theorem tokenKept_reply : TokenKept s s.reply := by
  have hnone := any_onSession (s := s) [.reply]
  unfold reply
  dsimp only
  split
  · refine tokenKept_of rfl ?_
    rw [List.any_append]
    exact (congrArg (· || false) hnone)
  · exact tokenKept_of rfl hnone

theorem tokenKept_task (place : ℕ) (event : RelayTaskEvent) :
    TokenKept s ([], s.task place event) := by
  unfold task
  split
  · exact tokenKept_of rfl rfl
  · exact tokenKept_of rfl rfl

theorem tokenKept_joinReturned (place : ℕ) : TokenKept s (s.joinReturned place) := by
  unfold joinReturned
  split
  · exact tokenKept_of rfl rfl
  · exact tokenKept_of rfl rfl

theorem tokenKept_joinAborted (place : ℕ) : TokenKept s (s.joinAborted place) := by
  unfold joinAborted
  split
  · exact tokenKept_of rfl rfl
  · exact tokenKept_of rfl rfl
  · exact tokenKept_of rfl rfl

theorem tokenKept_join (place : ℕ) : TokenKept s (s.join place) := by
  have hkept := tokenKept_joinReturned (s := s) place
  unfold join
  split
  · exact tokenKept_of rfl rfl
  · rename_i events t _ heq
    rw [heq] at hkept
    exact hkept

theorem tokenKept_receive : TokenKept s s.receive := by
  unfold receive
  split
  · split
    · exact tokenKept_of rfl rfl
    · exact tokenKept_of rfl rfl
  · refine tokenKept_of rfl ?_
    dsimp only
    rw [List.any_append]
    exact congrArg (· || false) (any_onSession _)

/-- `stop` says that it cancels the token. -/
theorem tokenKept_unregister {lead : List RemoteWorkerEvent}
    (hlead : lead.any cancelsToken = false) (input : RemoteInput) :
    TokenKept s (lead ++ (s.unregister input).1, (s.unregister input).2) := by
  unfold unregister
  dsimp only
  split
  · show true = (s.cancelled || List.any (lead ++ (_ ++ [.tokenCancelled])) cancelsToken)
    simp [cancelsToken]
  · refine tokenKept_of rfl ?_
    rw [List.any_append, hlead]
    exact any_onSession _

theorem tokenKept_drained (result : Except SshConnectError Unit) :
    TokenKept s (s.drained result) := by
  unfold drained
  split
  · exact tokenKept_of rfl (any_onSession _)
  · exact tokenKept_of rfl rfl

/-- **Every step** that cancels the token says so. -/
theorem tokenKept_step (input : RemoteWorkerInput) : TokenKept s (s.step input) := by
  unfold step
  split
  · split
    · exact tokenKept_of rfl rfl
    · exact tokenKept_of rfl (any_onSession _)
  · split
    · exact tokenKept_of rfl rfl
    · exact tokenKept_reply
  · exact tokenKept_of rfl rfl
  · exact (Bool.or_true _).symm
  · exact tokenKept_task _ _
  · unfold start
    split
    · exact tokenKept_request _
    · exact tokenKept_refuse _
  · exact tokenKept_request _
  · exact tokenKept_of rfl (any_onSession _)
  · unfold poll
    split
    · exact tokenKept_of rfl rfl
    · exact tokenKept_of rfl rfl
  · unfold sessionTick
    split
    · exact tokenKept_of rfl rfl
    · exact tokenKept_of rfl rfl
  · exact tokenKept_of rfl rfl
  · unfold pinged
    split
    · exact tokenKept_of rfl rfl
    · exact tokenKept_of rfl rfl
  · exact tokenKept_join _
  · split
    · exact tokenKept_receive
    · exact tokenKept_of rfl rfl
  · split
    · have hlead : [RemoteWorkerEvent.stopping].any cancelsToken = false := rfl
      exact tokenKept_unregister hlead .cancel
    · exact tokenKept_of rfl rfl
  · have hlead : ([] : List RemoteWorkerEvent).any cancelsToken = false := rfl
    exact tokenKept_unregister hlead _
  · exact tokenKept_joinReturned _
  · split
    · exact tokenKept_of rfl rfl
    · exact tokenKept_of rfl rfl
  · exact tokenKept_joinAborted _
  · exact tokenKept_drained _
  · exact tokenKept_drained _
  · exact tokenKept_of rfl (any_onSession _)
  · exact tokenKept_of rfl rfl

theorem mem_cancelsToken : events.any cancelsToken = true ↔
    .ownerCancelled ∈ events ∨ .tokenCancelled ∈ events := by
  rw [List.any_eq_true]
  constructor
  · rintro ⟨e, he, htoken⟩
    cases e with
    | ownerCancelled => exact .inl he
    | tokenCancelled => exact .inr he
    | _ => cases htoken
  · rintro (he | he)
    · exact ⟨_, he, rfl⟩
    · exact ⟨_, he, rfl⟩

theorem TokenTold.step (h : TokenTold s record) (input : RemoteWorkerInput) :
    TokenTold (s.step input).2 (record ++ (s.step input).1) := by
  unfold TokenTold at h ⊢
  rw [← mem_cancelsToken] at h ⊢
  rw [tokenKept_step input, List.any_append, Bool.or_eq_true, Bool.or_eq_true, h]

/-! ## Every run -/

theorem recorded_before (localTarget : LocalEndpoint) (remote : Option RemoteEndpoint) :
    Recorded remote (before localTarget remote) [] where
  window := Remote.recorded_connected
  room := Remote.room_connected remote
  accepted := rfl
  handed := rfl
  order := rfl
  tasks := List.Perm.nil
  few := Nat.zero_le _

theorem ordered_before (localTarget : LocalEndpoint) (remote : Option RemoteEndpoint) :
    Ordered (before localTarget remote) [] where
  order := ⟨fun past _ h => by simp at h, fun past _ h => by simp at h, fun past _ h => by simp at h⟩
  linked := rfl
  starting _ := ⟨rfl, fun _ => List.not_mem_nil⟩
  stopping h := by cases h
  disconnecting h := by cases h
  unregistering h := by cases h
  draining h := by cases h

/-- **The channels of a Remote tunnel**, over any interleaving of the far
side, the tasks and the owner of the worker. Those that are accepted in
the window of the registration are handed on; each gets a task once at
most, in the order they came in; at most so many wait and at most so many
are at work; and the counter is the number of the tasks that relay. -/
theorem channels_kept (localTarget : LocalEndpoint) (remote : Option RemoteEndpoint)
    (inputs : List RemoteWorkerInput) :
    let s := runState step (before localTarget remote) inputs
    let record := answers step (before localTarget remote) inputs
    AcceptsInWindow remote (sessionEvents record) ∧
      handedOn record = List.range (acceptedOpenings record).length ∧
      spawned record ++ s.queue = handedOn record ∧
      (joined record ++ s.connections.map RelayTask.channel).Perm (spawned record) ∧
      s.queue.length ≤ maxForwardedChannels ∧ s.connections.length ≤ maxActiveConnections ∧
      s.counters.activeConnections = s.relays.length := by
  intro s record
  have hrecorded : Recorded remote s record :=
    answers_invariant (recorded_before localTarget remote) (fun _ _ input h => h.step input) inputs
  have hrelays : Relays s :=
    runState_invariant (fun _ input h => h.step input) (relays_before localTarget remote) inputs
  refine ⟨hrecorded.window.accepts, ?_, hrecorded.order, hrecorded.tasks, hrecorded.room.bound,
    hrecorded.few, hrelays.active hrecorded.few⟩
  rw [hrecorded.accepted, hrecorded.handed]

/-- **A Remote tunnel stops in order**, whenever it is told to and
whatever the far side answers; and the token, which the relays have
theirs from, is cancelled by `stop` or by the one who gave it. -/
theorem stops_in_order (localTarget : LocalEndpoint) (remote : Option RemoteEndpoint)
    (inputs : List RemoteWorkerInput) :
    let s := runState step (before localTarget remote) inputs
    let record := answers step (before localTarget remote) inputs
    StopOrder record ∧
      (s.cancelled = true ↔ .ownerCancelled ∈ record ∨ .tokenCancelled ∈ record) := by
  intro s record
  have hboth : Recorded remote s record ∧ Ordered s record := answers_invariant
    (I := fun s record => Recorded remote s record ∧ Ordered s record)
    ⟨recorded_before localTarget remote, ordered_before localTarget remote⟩
    (fun _ _ input h => ⟨h.1.step input, h.2.step h.1 input⟩) inputs
  have htoken : TokenTold s record := answers_invariant (I := TokenTold)
    (by simp [TokenTold, before]) (fun _ _ input h => h.step input) inputs
  exact ⟨hboth.2.order, htoken⟩

end RemoteForwardWorker

end TunnelWarden
