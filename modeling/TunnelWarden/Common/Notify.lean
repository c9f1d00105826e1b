import Mathlib.Logic.Basic

/-!
# A signal that keeps one permit

`tokio::sync::Notify`, with one waiter at a time. `notify_one` wakes the
waiter that is registered, and stores one permit where there is none; a
waiter that was woken is no longer registered, so a second signal in the
meantime is stored. The future `notified()` takes a stored permit at its
first poll and registers where there is none. Dropping it passes a
signal it was woken with on, to the next waiter or to the permit.
-/

namespace TunnelWarden

/-- The future `notified()`, as the signal knows it. -/
inductive Waiter where
  /-- None, or one that was not polled yet. -/
  | idle
  | registered
  | woken
  deriving DecidableEq, Repr

structure Notify where
  permit : Bool := false
  waiter : Waiter := .idle
  deriving DecidableEq, Repr

namespace Notify

/-- `Notify::notify_one`. -/
def notifyOne (n : Notify) : Notify :=
  match n.waiter with
  | .registered => { n with waiter := .woken }
  | .idle | .woken => { n with permit := true }

/-- A poll of the future: is it ready, and what is left of the signal. -/
def poll (n : Notify) : Bool × Notify :=
  match n.waiter with
  | .woken => (true, { n with waiter := .idle })
  | .registered => (false, n)
  | .idle => if n.permit then (true, { n with permit := false })
    else (false, { n with waiter := .registered })

/-- The future is dropped before it is ready. -/
def drop (n : Notify) : Notify :=
  match n.waiter with
  | .woken => { permit := true }
  | .idle | .registered => { n with waiter := .idle }

/-- The next poll is ready. -/
def Ready (n : Notify) : Prop := n.poll.1 = true

/-- No signal is on its way: none is stored and the waiter was not
woken. -/
def Quiet (n : Notify) : Prop := n.permit = false ∧ n.waiter ≠ .woken

variable {n : Notify}

theorem Quiet.not_ready (h : n.Quiet) : n.poll.1 = false := by
  obtain ⟨permit, waiter⟩ := n
  obtain ⟨rfl, hw⟩ := h
  cases waiter with
  | idle => rfl
  | registered => rfl
  | woken => exact absurd rfl hw

/-- A poll of a quiet signal registers, and no more. -/
theorem Quiet.poll (h : n.Quiet) : n.poll.2.Quiet := by
  obtain ⟨permit, waiter⟩ := n
  obtain ⟨rfl, hw⟩ := h
  cases waiter with
  | idle => exact ⟨rfl, nofun⟩
  | registered => exact ⟨rfl, nofun⟩
  | woken => exact absurd rfl hw

/-- A future that is done waits no more. -/
theorem poll_idle {n' : Notify} (h : n.poll = (true, n')) : n'.waiter = .idle := by
  obtain ⟨permit, waiter⟩ := n
  cases waiter with
  | idle =>
      cases permit with
      | true => rw [← (Prod.mk.inj h).2]
      | false => simp [poll] at h
  | registered => simp [poll] at h
  | woken => rw [← (Prod.mk.inj h).2]

theorem drop_idle : n.drop.waiter = .idle := by
  obtain ⟨permit, waiter⟩ := n
  cases waiter <;> rfl

/-- A signal nobody waits for is kept for the next to wait. -/
theorem notifyOne_ready_of_idle (h : n.waiter = .idle) : n.notifyOne.Ready := by
  simp [notifyOne, Ready, poll, h]

theorem ready_of_permit (h : n.waiter = .idle) (hp : n.permit = true) : n.Ready := by
  simp [Ready, poll, h, hp]

end Notify

end TunnelWarden
