import TunnelWarden.Forwarding.Connection
import TunnelWarden.Forwarding.Model.Worker

/-!
# How far a connection is

With respect to the channel it needs, a connection is before, within or
after its wait. It asks once, when the wait begins, and goes past it for
its cancellation, an answer or the loss of the request only
(`Handler.stage_step`).
-/

namespace TunnelWarden

open Ssh Socks5

namespace Handler

variable {h : Handler} {event : ConnectionEvent} {host : String} {port : ℕ}

/-- Before, within and after the wait for a channel. -/
inductive Stage where
  | early
  | waiting (host : String) (port : ℕ)
  | late
  deriving DecidableEq, Repr

def stage (h : Handler) : Stage :=
  match h.control with
  | .reading | .sending .. => .early
  | .awaiting host port => .waiting host port
  | _ => .late

theorem stage_start (mode : ForwardMode) (client : List UInt8) :
    (start mode client).stage = .early ∧ (start mode client).cancelled = false := by
  unfold start
  split
  · exact ⟨rfl, rfl⟩
  · exact ⟨rfl, rfl⟩

theorem stage_channelReturned {result : Except SshConnectError Unit} :
    (h.channelReturned result).stage = .late := by
  unfold channelReturned
  split
  · rfl
  · split
    · rfl
    · rfl

theorem stage_writeReply {reply : SocksReply} {result : Except IoError ℕ}
    {done : Except IoError Unit → Handler → Handler} (hlate : h.stage = .late)
    (hdone : ∀ r h', (done r h').stage = .late) :
    (h.writeReply reply result done).stage = .late := by
  rcases writeReply_cases reply result done h with ⟨error, heq⟩ | ⟨n, heq | ⟨-, heq⟩⟩
  · rw [heq, hdone]
  · rw [heq]
    exact hlate
  · rw [heq, hdone]

/-- What a connection does at the await for an answer. -/
theorem stage_advance_awaiting (hcontrol : h.control = .awaiting host port) :
    (h.advance event).stage = .waiting host port ∨ (h.advance event).stage = .late ∧
      (h.cancelled = true ∨ (∃ outcome, event = .answer outcome) ∨ event = .hungUp) := by
  have hstay : h.stage = .waiting host port := by rw [stage, hcontrol]
  unfold advance
  rw [hcontrol]
  dsimp only
  split
  · rename_i hcancelled
    exact .inr ⟨stage_channelReturned, .inl hcancelled⟩
  · split
    · exact .inr ⟨stage_channelReturned, .inr (.inl ⟨_, rfl⟩)⟩
    · exact .inr ⟨stage_channelReturned, .inr (.inr rfl)⟩
    · exact .inl hstay

/-- One that has its answer stays so. -/
theorem stage_advance_late (hlate : h.stage = .late) : (h.advance event).stage = .late := by
  have hstay := hlate
  unfold stage at hlate
  unfold advance
  cases hc : h.control with
  | reading => simp [hc] at hlate
  | sending host port => simp [hc] at hlate
  | awaiting host port => simp [hc] at hlate
  | failed error =>
      dsimp only
      unfold channelFailed
      split
      · rfl
      · rfl
  | refusing reply =>
      dsimp only
      split
      · exact stage_writeReply hstay fun _ _ => rfl
      · rfl
      · exact hstay
  | confirming =>
      dsimp only
      split
      · rfl
      · split
        · refine stage_writeReply hstay fun r _ => ?_
          cases r with
          | error error => rfl
          | ok _ => rfl
        · exact hstay
  | relaying =>
      dsimp only
      split
      · rfl
      · exact hstay
  | returned result => exact hstay

theorem control_of_waiting (hwaiting : h.stage = .waiting host port) :
    h.control = .awaiting host port := by
  unfold stage at hwaiting
  split at hwaiting
  · cases hwaiting
  · cases hwaiting
  · rename_i heq
    obtain ⟨rfl, rfl⟩ := Stage.waiting.inj hwaiting
    exact heq
  · cases hwaiting

/-- A request is made by a connection that is about to send it. -/
theorem control_of_requests (hrequests : h.requests event = some (host, port)) :
    h.control = .sending host port ∧ event = .queued true ∧ h.cancelled = false := by
  unfold requests at hrequests
  split at hrequests
  · rename_i heq
    split at hrequests
    · cases hrequests
    · rename_i hcancelled
      obtain ⟨rfl, rfl⟩ := Prod.mk.inj (Option.some.inj hrequests)
      exact ⟨heq, rfl, Bool.eq_false_iff.2 hcancelled⟩
  · cases hrequests

/-- An answer ends the wait for it. -/
theorem receives_cases {result : Except SshConnectError Unit}
    (hreceives : h.receives event = some result) :
    ∃ host port outcome, h.control = .awaiting host port ∧ event = .answer outcome ∧
      h.cancelled = false ∧ result = answerOf host port outcome := by
  unfold receives at hreceives
  split at hreceives
  · rename_i host port outcome heq
    split at hreceives
    · cases hreceives
    · rename_i hcancelled
      exact ⟨host, port, outcome, heq, rfl, Bool.eq_false_iff.2 hcancelled,
        (Option.some.inj hreceives).symm⟩
  · cases hreceives

theorem stage_step_of_requests (hrequests : h.requests event = some (host, port)) :
    h.stage = .early ∧ (h.step event).2.stage = .waiting host port := by
  obtain ⟨hcontrol, rfl, hcancelled⟩ := control_of_requests hrequests
  refine ⟨by rw [stage, hcontrol], ?_⟩
  show (h.advance (.queued true)).stage = _
  unfold advance
  rw [hcontrol, hcancelled]
  rfl

theorem stage_step_of_receives {result : Except SshConnectError Unit}
    (hreceives : h.receives event = some result) :
    (∃ host port, h.stage = .waiting host port) ∧ (h.step event).2.stage = .late := by
  obtain ⟨host, port, outcome, hcontrol, rfl, hcancelled, -⟩ := receives_cases hreceives
  refine ⟨⟨host, port, by rw [stage, hcontrol]⟩, ?_⟩
  show (h.advance (.answer outcome)).stage = _
  unfold advance
  rw [hcontrol, hcancelled]
  exact stage_channelReturned

/-- Without a request a connection does not begin to wait. -/
theorem stage_advance_early (hearly : h.stage = .early) (hnone : h.requests event = none) :
    (h.advance event).stage = .early ∨ (h.advance event).stage = .late := by
  have hstay := hearly
  unfold stage at hearly
  unfold advance
  unfold requests at hnone
  cases hc : h.control with
  | reading =>
      dsimp only
      split
      · exact .inr rfl
      · split
        · unfold handshakeReturned
          split
          · exact .inl rfl
          · exact .inr rfl
        · exact .inr rfl
        · exact .inr rfl
        · exact .inl hstay
  | sending host port =>
      rw [hc] at hnone
      dsimp only
      split
      · exact .inr stage_channelReturned
      · rename_i hcancelled
        split
        · -- this is the request
          dsimp only at hnone
          rw [if_neg hcancelled] at hnone
          cases hnone
        · exact .inr stage_channelReturned
        · exact .inl hstay
  | awaiting host port => simp [hc] at hearly
  | failed error => simp [hc] at hearly
  | refusing reply => simp [hc] at hearly
  | confirming => simp [hc] at hearly
  | relaying => simp [hc] at hearly
  | returned result => simp [hc] at hearly

/-- **Where an event takes a connection** that makes no request with it:
nowhere, or past the wait. What ends a wait is the cancellation of the
connection, an answer or the loss of the request. -/
theorem stage_step (hnone : h.requests event = none) :
    (h.step event).2.stage = h.stage ∨ (h.step event).2.stage = .late ∧
      ∀ host port, h.stage = .waiting host port →
        h.cancelled = true ∨ (∃ outcome, event = .answer outcome) ∨ event = .hungUp := by
  have hadvance : (h.advance event).stage = h.stage ∨ (h.advance event).stage = .late ∧
      ∀ host port, h.stage = .waiting host port →
        h.cancelled = true ∨ (∃ outcome, event = .answer outcome) ∨ event = .hungUp := by
    cases hstage : h.stage with
    | early =>
        rcases stage_advance_early hstage hnone with hearly | hlate
        · exact .inl hearly
        · exact .inr ⟨hlate, nofun⟩
    | waiting host port =>
        rcases stage_advance_awaiting (control_of_waiting hstage) with hwaiting | ⟨hlate, hwhy⟩
        · exact .inl hwaiting
        · exact .inr ⟨hlate, fun _ _ _ => hwhy⟩
    | late => exact .inl (stage_advance_late hstage)
  unfold step
  cases event with
  | cancel => exact .inl rfl
  | _ => exact hadvance

/-- A connection that has not asked yet had not asked before. -/
theorem early_of_step (hearly : (h.step event).2.stage = .early) : h.stage = .early := by
  cases hrequests : h.requests event with
  | some destination => exact (stage_step_of_requests hrequests).1
  | none =>
      rcases stage_step hrequests with hsame | ⟨hlate, -⟩
      · rw [← hsame, hearly]
      · rw [hlate] at hearly
        cases hearly

/-- One that waits has asked now, or waited before. -/
theorem waiting_of_step (hwaiting : (h.step event).2.stage = .waiting host port) :
    h.stage = .waiting host port ∨ h.requests event = some (host, port) := by
  cases hrequests : h.requests event with
  | some destination =>
      have hafter := (stage_step_of_requests hrequests).2
      rw [hwaiting] at hafter
      obtain ⟨rfl, rfl⟩ := Stage.waiting.inj hafter
      exact .inr rfl
  | none =>
      rcases stage_step hrequests with hsame | ⟨hlate, -⟩
      · exact .inl (hsame.symm.trans hwaiting)
      · rw [hlate] at hwaiting
        cases hwaiting

/-- One that was past the wait still is. -/
theorem late_step (hlate : h.stage = .late) : (h.step event).2.stage = .late := by
  cases hrequests : h.requests event with
  | some destination =>
      have hbefore := (stage_step_of_requests hrequests).1
      rw [hlate] at hbefore
      cases hbefore
  | none =>
      rcases stage_step hrequests with hsame | ⟨hafter, -⟩
      · exact hsame.trans hlate
      · exact hafter

end Handler

end TunnelWarden
