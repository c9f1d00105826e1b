import TunnelWarden.Ssh.Remote

/-!
# The queue of a remote forward

The queue the handler hands its channels on by has room for each channel
it accepts, however the owner of the session and the server interleave.
Only an answer lengthens it and only a receive shortens it.
-/

namespace TunnelWarden

namespace Ssh

namespace Remote

variable {r : Remote}

/-- The length of the handler's queue, where there is a handler. -/
def queued (r : Remote) : Option ℕ := r.handler.map Forwarded.queued

@[simp] theorem queued_store (port : ℕ) : (r.store port).queued = r.queued := by
  simp [queued, store, Function.comp_def]

@[simp] theorem queued_closeChannels : r.closeChannels.queued = r.queued := by
  simp [queued, closeChannels, Function.comp_def]

/-- The handler's queue has this length, and room for a channel that is
about to be accepted. -/
structure Room (r : Remote) (count : ℕ) : Prop where
  queued : ∀ n, r.queued = some n → n = count
  bound : count ≤ maxForwardedChannels
  opening : ∀ opening, r.opening = some opening → opening.verdict = .ok () →
    r.queued ≠ none ∧ count < maxForwardedChannels

theorem Room.aside {r' : Remote} {count : ℕ} (h : Room r count) (hqueued : r'.queued = r.queued)
    (hopening : r'.opening = r.opening) : Room r' count where
  queued n hn := h.queued n (hqueued ▸ hn)
  bound := h.bound
  opening opening hsome hok := by
    rw [hqueued]
    exact h.opening opening (hopening ▸ hsome) hok

/-- What the handler accepts there is room for. -/
theorem Room.channelOpen {count : ℕ} (h : Room r count) (address : String) (port : ℕ) :
    Room (r.step (.channelOpen address port)).2 count := by
  cases hopening : r.opening with
  | some opening => simpa only [step, hopening] using h
  | none =>
      simp only [step, hopening]
      refine ⟨h.queued, h.bound, fun opening hsome hok => ?_⟩
      obtain rfl := Option.some.inj hsome
      dsimp only at hok
      unfold serverChannelOpenForwardedTcpip at hok
      split at hok
      · cases hok
      · rename_i handler hhandler
        dsimp only at hok
        split at hok
        · cases hok
        · split at hok
          · rename_i hroom
            have hqueued : r.queued = some handler.queued := by
              rw [Remote.queued, hhandler, Option.map_some]
            refine ⟨?_, ?_⟩
            · show r.queued ≠ none
              rw [hqueued]
              exact Option.some_ne_none _
            · rw [← h.queued _ hqueued]
              exact hroom.2
          · cases hok

/-- **Neither the owner nor a decision touches the queue.** -/
theorem Room.step {count : ℕ} (h : Room r count) {input : RemoteInput} (hreply : input ≠ .reply)
    (hreceive : input ≠ .receive) :
    Room (r.step input).2 count ∧ ∀ opening, .answered opening ∉ (r.step input).1 := by
  have hsame : Room r count ∧ ∀ opening, RemoteEvent.answered opening ∉ [] :=
    ⟨h, fun _ => List.not_mem_nil⟩
  cases input with
  | reply => exact absurd rfl hreply
  | receive => exact absurd rfl hreceive
  | channelOpen address port =>
      refine ⟨h.channelOpen address port, fun opening hmem => ?_⟩
      cases hopening : r.opening with
      | some other => simp [Remote.step, hopening] at hmem
      | none => simp [Remote.step, hopening] at hmem
  | request =>
      dsimp only [Remote.step]
      split
      · unfold Remote.request
        split
        · exact ⟨h, fun _ hmem => by cases List.mem_singleton.1 hmem⟩
        · split
          · exact ⟨h, fun _ hmem => by cases List.mem_singleton.1 hmem⟩
          · exact ⟨h.aside rfl rfl, fun _ => List.not_mem_nil⟩
      · exact hsame
  | requestAnswered answer =>
      dsimp only [Remote.step]
      split
      · unfold Remote.requestAnswered
        dsimp only
        split
        · exact ⟨h.aside rfl rfl, fun _ hmem => by cases List.mem_singleton.1 hmem⟩
        · rename_i port session heq
          have hqueued : (r.store port).queued = r.queued := queued_store port
          exact ⟨h.aside hqueued rfl, fun _ hmem => by cases List.mem_singleton.1 hmem⟩
      · exact hsame
  | cancel =>
      dsimp only [Remote.step]
      split
      · unfold Remote.cancel
        split
        · exact ⟨h, fun _ hmem => by cases List.mem_singleton.1 hmem⟩
        · have hqueued : (r.store 0).queued = r.queued := queued_store 0
          exact ⟨h.aside hqueued rfl, fun _ hmem => by cases List.mem_singleton.1 hmem⟩
      · exact hsame
  | cancelAnswered answer =>
      dsimp only [Remote.step]
      split
      · unfold Remote.cancelAnswered
        split
        · exact ⟨h.aside rfl rfl, fun _ hmem => by cases List.mem_singleton.1 hmem⟩
        · exact ⟨h.aside rfl rfl, fun _ hmem => by cases List.mem_singleton.1 hmem⟩
      · exact hsame
  | abandon =>
      dsimp only [Remote.step]
      split
      · exact ⟨h.aside rfl rfl, fun _ hmem => by cases List.mem_singleton.1 hmem⟩
      · exact hsame
  | disconnect =>
      dsimp only [Remote.step]
      split
      · exact ⟨h.aside rfl rfl, fun _ => List.not_mem_nil⟩
      · exact hsame
  | drop =>
      dsimp only [Remote.step]
      split
      · unfold Remote.drop
        have hqueued : (r.store 0).queued = r.queued := queued_store 0
        dsimp only
        split
        · exact ⟨h.aside hqueued rfl, fun _ hmem => by cases List.mem_singleton.1 hmem⟩
        · refine ⟨h.aside ?_ rfl, fun _ hmem => by cases List.mem_singleton.1 hmem⟩
          rw [queued_closeChannels]
          exact hqueued
      · exact hsame
  | cancelToken => exact ⟨h.aside rfl rfl, fun _ => List.not_mem_nil⟩
  | closeChannels =>
      dsimp only [Remote.step]
      split
      · exact ⟨h.aside queued_closeChannels rfl, fun _ => List.not_mem_nil⟩
      · exact hsame

/-- A channel more is in the queue where it was accepted. -/
theorem Room.reply {count : ℕ} (h : Room r count) {opening : Opening}
    (hopening : r.opening = some opening) (hok : opening.verdict = .ok ()) :
    Room (r.step .reply).2 (count + 1) := by
  simp only [Remote.step, hopening, Remote.reply, hok, if_true]
  refine ⟨fun n hn => ?_, (h.opening opening hopening hok).2, fun _ hsome => by cases hsome⟩
  obtain ⟨handler, hhandler, rfl⟩ := Option.map_eq_some_iff.1 hn
  obtain ⟨before, hbefore, rfl⟩ := Option.map_eq_some_iff.1 hhandler
  have hcount := h.queued before.queued (by rw [Remote.queued, hbefore, Option.map_some])
  show before.queued + 1 = count + 1
  rw [hcount]

/-- And otherwise not. -/
theorem Room.declined {count : ℕ} (h : Room r count)
    (hnone : ¬ ∃ opening, r.opening = some opening ∧ opening.verdict = .ok ()) :
    Room (r.step .reply).2 count := by
  cases hopening : r.opening with
  | none => simpa only [Remote.step, hopening] using h
  | some opening =>
      have hverdict : opening.verdict ≠ .ok () := fun hok => hnone ⟨opening, hopening, hok⟩
      simp only [Remote.step, hopening, Remote.reply, hverdict, if_false]
      exact ⟨h.queued, h.bound, fun _ hsome => by cases hsome⟩

theorem Room.receive {count : ℕ} (h : Room r (count + 1)) : Room (r.step .receive).2 count := by
  have hbound := h.bound
  refine ⟨fun n hn => ?_, by omega, fun opening hsome hok => ?_⟩
  · obtain ⟨handler, hhandler, rfl⟩ := Option.map_eq_some_iff.1 hn
    obtain ⟨before, hbefore, rfl⟩ := Option.map_eq_some_iff.1 hhandler
    have hcount := h.queued before.queued (by rw [Remote.queued, hbefore, Option.map_some])
    show before.queued - 1 = count
    omega
  · obtain ⟨hhandler, hlt⟩ := h.opening opening hsome hok
    refine ⟨?_, by omega⟩
    simpa [Remote.queued, Remote.step, Function.comp_def] using hhandler

theorem room_connected (remote : Option RemoteEndpoint) : Room (connected remote) 0 where
  queued n hn := by
    simp only [connected, Remote.queued, Option.map_map, Option.map_eq_some_iff] at hn
    obtain ⟨_, _, rfl⟩ := hn
    rfl
  bound := Nat.zero_le _
  opening _ hsome := by cases hsome

end Remote

end Ssh

end TunnelWarden
