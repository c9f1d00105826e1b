import TunnelWarden.Manager.Handshakes
import TunnelWarden.Ssh.Strict

/-!
# A handshake that is left alone

`check_server_key` was given twice: as the steps of a handshake among
others, and as one function of what its files answer. A handshake that
looks at its files while nothing else happens does what the function
says: it ends with its verdict, or asks.
-/

namespace TunnelWarden

namespace Manager

open Ssh HostKeyVerifier

namespace System

variable {known : KnownHosts} {home : Option PathBuf} {codec : Codec}
variable {s : System} {k : ℕ} {h : Handshake}

/-- No prompt can be sent. -/
def full (s : System) : Bool := !s.channelOpen || maxHostKeyPrompts ≤ s.prompts.length

/-- The event in which a verdict shows. -/
def announce (k : ℕ) : KeyVerdict → Event
  | .accepted => .ended k (.ok true)
  | .prompted .. => .asked k
  | .failed error => .ended k (.error error)

/-- What is seen of a run. -/
def seen (known : KnownHosts) (home : Option PathBuf) (codec : Codec) (s : System)
    (inputs : List Input) : List Event :=
  (trace (step known home codec) s inputs).filterMap Step.output

/-- The files at the paths, each as it is when it is looked at. -/
def filesAt (s : System) (paths : List PathBuf) (looks : List Look) : List KnownHostsFile :=
  List.zipWith (fun path look => ⟨path, s.files.lookup path, look⟩) paths looks

/-- What a strict check makes of the first loop. -/
def afterLoop (v : HostKeyVerifier) (key : PublicKey) (room : Bool) :
    Except HostKeyError Bool → KeyVerdict
  | .error error => .failed error
  | .ok true => .accepted
  | .ok false => v.askUser key room

theorem seen_cons (input : Input) (inputs : List Input) :
    seen known home codec s (input :: inputs) =
      (step known home codec s input).1.toList ++
        seen known home codec (step known home codec s input).2 inputs := by
  unfold seen
  rw [trace, List.filterMap_cons]
  cases (step known home codec s input).1 <;> rfl

/-- A handshake that is over shows nothing more. -/
theorem seen_done (known : KnownHosts) (home : Option PathBuf) (codec : Codec)
    {result : Except HostKeyError Bool} (hk : s.handshakes[k]? = some h)
    (hc : h.control = .done result) (looks : List Look) :
    seen known home codec s (looks.map (.advance k)) = [] := by
  have hidle : ∀ look, step known home codec s (.advance k look) = (none, s) := by
    intro look
    simp [step, advance, hk, hc]
  induction looks with
  | nil => rfl
  | cons look looks ih =>
      rw [List.map_cons, seen_cons, hidle]
      exact ih

theorem handshake_setControl (hk : s.handshakes[k]? = some h) (control : Control) :
    (s.setControl k control).handshakes[k]? = some { h with control } := by
  simp [setControl, hk]

/-- The end of the loop. -/
theorem advance_checked {found : Bool} (hk : s.handshakes[k]? = some h)
    (hc : h.control = .checking [] found) (look : Look) :
    (step known home codec s (.advance k look)).1 =
      some (announce k (afterLoop h.verifier h.key (!s.full) (.ok found))) := by
  simp only [step, advance, hk, hc]
  cases found with
  | true => rfl
  | false =>
      have hask : ∀ approval, s.ask k h approval =
          if s.full then
            s.finish k (.error (.approvalUnavailable h.verifier.host h.verifier.port))
          else (some (.asked k),
            { s with prompts := s.prompts ++ [h.prompt k] }.setControl k (.waiting approval)) :=
        fun _ => rfl
      simp only [afterLoop, askUser]
      cases h.verifier.approval with
      | none => rfl
      | some approval =>
          dsimp only
          rw [hask]
          cases s.full with
          | true => rfl
          | false => rfl

/-- **The looks at the files, one step each**, and the step after them. -/
theorem seen_checking {paths : List PathBuf} {found : Bool} {looks : List Look} {last : Look}
    (hk : s.handshakes[k]? = some h) (hc : h.control = .checking paths found)
    (hlen : looks.length = paths.length) :
    seen known home codec s ((looks ++ [last]).map (.advance k)) =
      [announce k (afterLoop h.verifier h.key (!s.full)
        (h.verifier.firstLoop known h.key found (s.filesAt paths looks)))] := by
  induction paths generalizing s h found looks with
  | nil =>
      obtain rfl := List.length_eq_zero_iff.1 hlen
      rw [List.nil_append, List.map_singleton, seen_cons, advance_checked hk hc]
      rfl
  | cons path rest ih =>
      obtain ⟨look, looks, rfl⟩ := List.exists_cons_of_length_eq_add_one hlen
      rw [List.cons_append, List.map_cons, seen_cons]
      simp only [filesAt, List.zipWith_cons_cons, firstLoop]
      have hstep : step known home codec s (.advance k look) =
          s.advance known k look := rfl
      rw [hstep, advance, hk]
      dsimp only
      rw [hc]
      dsimp only
      cases hlook : h.verifier.checkPath known h.key path (s.files.lookup path) look with
      | error error =>
          -- the handshake is over, and the looks that are left see that
          have hdone := seen_done known home codec
            (handshake_setControl hk (.done (.error error))) rfl (looks ++ [last])
          simp only [finish, Option.toList_some, List.singleton_append, afterLoop, announce]
          rw [hdone]
      | ok matched =>
          have hnext := ih (handshake_setControl hk (.checking rest (found || matched))) rfl
            (Nat.succ.inj hlen)
          exact hnext

theorem checkServerKey_eq (v : HostKeyVerifier) (key : PublicKey) (files : List KnownHostsFile)
    (room : Bool) (hpolicy : v.policy ≠ .bypass) :
    v.checkServerKey known (.publicKey key) files room =
      afterLoop v key room (v.firstLoop known key false files) := by
  rcases hloop : v.firstLoop known key false files with error | _ | _
  · simp only [checkServerKey, if_neg hpolicy, afterLoop, hloop]
  · simp only [checkServerKey, if_neg hpolicy, afterLoop, hloop]
  · simp only [checkServerKey, if_neg hpolicy, afterLoop, hloop]

/-- **A handshake that is left alone does what the check says.** -/
theorem seen_connect (s : System) (v : HostKeyVerifier) (serverKey : PublicKeyOrCertificate)
    (looks : List Look) (last : Look) (hlen : looks.length = v.paths.length) :
    seen known home codec s (.connect v serverKey ::
        (looks ++ [last]).map (.advance s.handshakes.length)) =
      [announce s.handshakes.length
        (v.checkServerKey known serverKey (s.filesAt v.paths looks) (!s.full))] := by
  have hnew : ∀ control, (s.handshakes ++ [(⟨v, serverKey, control⟩ : Handshake)])[
      s.handshakes.length]? = some ⟨v, serverKey, control⟩ := by simp
  have hstep : step known home codec s (.connect v serverKey) = s.connect v serverKey := rfl
  rw [seen_cons, hstep]
  unfold connect
  by_cases hpolicy : v.policy = .bypass
  · have hdone := seen_done known home codec
      (s := { s with handshakes := s.handshakes ++ [⟨v, serverKey, .done (.ok true)⟩] })
      (hnew _) rfl (looks ++ [last])
    simp only [if_pos hpolicy, Option.toList_some, List.singleton_append, hdone, checkServerKey,
      announce]
  · simp only [if_neg hpolicy]
    cases serverKey with
    | certificate key =>
        have hdone := seen_done known home codec
          (s := { s with handshakes := s.handshakes ++ [⟨v, .certificate key,
            .done (.error (.unsupportedCertificate v.host v.port))⟩] })
          (hnew _) rfl (looks ++ [last])
        simp only [Option.toList_some, List.singleton_append, hdone, checkServerKey,
          if_neg hpolicy, announce]
    | publicKey key =>
        rw [checkServerKey_eq v key _ _ hpolicy]
        exact seen_checking (s := { s with handshakes := s.handshakes ++ [⟨v, .publicKey key,
          .checking v.paths false⟩] }) (hnew _) rfl hlen

end System

end Manager

end TunnelWarden
