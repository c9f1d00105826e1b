import TunnelWarden.Common.Fault
import TunnelWarden.Domain.Validation

/-!
# What a validated tunnel is

`Valid` lists what `TunnelConfig::validate` asks for, without the order
it asks in, and `validate_iff` says that it asks for no more and no
less.
-/

namespace TunnelWarden

namespace TunnelConfig

variable {t : TunnelConfig} {hosts : List SshHost} {groups : List TunnelGroup}

/-- Exactly one host has the identifier. -/
def Resolves (hosts : List SshHost) (hop : HostId) : Prop :=
  (hosts.filter fun host => host.id = hop).length = 1

/-- **A tunnel `validate` accepts.** -/
structure Valid (t : TunnelConfig) (hosts : List SshHost) (groups : List TunnelGroup) : Prop where
  id : blank t.id.val = false
  name : blank t.name = false
  chain : t.jumpChain ≠ []
  distinct : t.jumpChain.Nodup
  resolves : ∀ hop ∈ t.jumpChain, Resolves hosts hop
  group : checkGroup groups t.groupId = .ok ()
  reconnect : ¬ (t.reconnect.baseDelay = 0 ∨ t.reconnect.maxDelay < t.reconnect.baseDelay ∨
    t.reconnect.resetAfterHealthy = 0 ∨ 100 < t.reconnect.jitterPercent)
  localHost : blank t.localEnd.host = false
  localLength : byteLen t.localEnd.host ≤ 255
  localPort : t.localEnd.port ≠ 0
  bindAddress : t.mode ≠ .remote → IpAddr.parse t.localEnd.host ≠ none
  remote : checkRemote t.mode t.remote = .ok ()

/-- The hops are checked one by one, and each against those before. -/
theorem checkHops_ok_iff {seen chain : List HostId} :
    checkHops hosts seen chain = .ok () ↔
      chain.Nodup ∧ (∀ hop ∈ chain, hop ∉ seen) ∧ ∀ hop ∈ chain, Resolves hosts hop := by
  induction chain generalizing seen with
  | nil => simp [checkHops]
  | cons hop rest ih =>
      unfold checkHops
      by_cases hseen : hop ∈ seen
      · rw [if_pos hseen]
        simp [hseen]
      · rw [if_neg hseen]
        by_cases hone : Resolves hosts hop
        · have hlen : (hosts.filter fun host => host.id = hop).length = 1 := hone
          simp only [hlen]
          rw [ih]
          simp only [List.nodup_cons, List.forall_mem_cons, List.mem_append, List.mem_singleton,
            not_or]
          constructor
          · rintro ⟨hnodup, hfresh, hrest⟩
            refine ⟨⟨fun hmem => (hfresh hop hmem).2 rfl, hnodup⟩, ⟨hseen, fun x hx => ?_⟩, hone,
              hrest⟩
            exact (hfresh x hx).1
          · rintro ⟨⟨hnot, hnodup⟩, ⟨-, hfresh⟩, -, hrest⟩
            refine ⟨hnodup, fun x hx => ⟨hfresh x hx, ?_⟩, hrest⟩
            rintro rfl
            exact hnot hx
        · have hrhs : ¬ ((hop :: rest).Nodup ∧ (∀ x ∈ hop :: rest, x ∉ seen) ∧
              ∀ x ∈ hop :: rest, Resolves hosts x) :=
            fun h => hone (h.2.2 hop List.mem_cons_self)
          refine iff_of_false ?_ hrhs
          split
          · simp
          · rename_i hlen
            exact absurd hlen hone
          · simp

/-- The far ends that fit a mode. -/
theorem checkRemote_ok_iff {mode : TunnelMode} {remote : Option RemoteEndpoint} :
    checkRemote mode remote = .ok () ↔
      (mode = .dynamic ∧ remote = none) ∨
      (mode ≠ .dynamic ∧ ∃ r, remote = some r ∧ blank r.host = false ∧ byteLen r.host ≤ 255 ∧
        (r.port ≠ 0 ∨ mode = .remote) ∧ (mode = .remote → IpAddr.parse r.host ≠ none)) := by
  cases remote with
  | none => cases mode <;> simp [checkRemote]
  | some r =>
      cases mode with
      | dynamic => simp [checkRemote]
      | «local» => simp [checkRemote, and_assoc]
      | remote =>
          by_cases hparse : IpAddr.parse r.host = none
          · refine iff_of_false ?_ (by simp [hparse])
            simp only [checkRemote, hparse, and_self, if_true]
            split_ifs <;> simp
          · simp [checkRemote, hparse]

/-- **`validate` asks for this and for nothing else.** -/
theorem validate_iff : t.validate hosts groups = .ok () ↔ t.Valid hosts groups := by
  unfold validate
  simp only [throw_bind, ite_error_eq_ok, bind_eq_ok]
  constructor
  · rintro ⟨hid, hname, hchain, _, hhops, _, hgroup, hretry, hlocal, hbind, hremote⟩
    obtain ⟨hnodup, -, hresolves⟩ := checkHops_ok_iff.1 hhops
    obtain ⟨hhost, hlen, hport⟩ := by simpa only [not_or] using hlocal
    exact ⟨by simpa using hid, by simpa using hname, hchain, hnodup, hresolves, hgroup, hretry,
      by simpa using hhost, Nat.le_of_not_lt hlen, hport, fun hmode hnone => hbind ⟨hmode, hnone⟩,
      hremote⟩
  · intro h
    refine ⟨by simp [h.id], by simp [h.name], h.chain, (),
      checkHops_ok_iff.2 ⟨h.distinct, by simp, h.resolves⟩, (), h.group, h.reconnect, ?_,
      fun hbind => h.bindAddress hbind.1 hbind.2, h.remote⟩
    rintro (hhost | hlen | hport)
    · simp [h.localHost] at hhost
    · exact absurd h.localLength (Nat.not_le_of_lt hlen)
    · exact h.localPort hport

end TunnelConfig

end TunnelWarden
