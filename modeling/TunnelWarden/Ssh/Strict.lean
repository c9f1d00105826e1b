import Mathlib.Data.List.Perm.Basic
import TunnelWarden.Ssh.Model.HostKey

/-!
# A strict check of a host key

What `check_server_key` makes of its files depends on which of them know
the key and which are at fault, and not on their order: the first loop
ends early for a fault or a changed key only, so a match does not hide
what a later file says (`firstLoop_ok_iff`). The order decides which of
several faults is reported, and nothing else.
-/

namespace TunnelWarden

namespace Ssh

namespace HostKeyVerifier

variable {known : KnownHosts} {v : HostKeyVerifier} {key : PublicKey} {f : KnownHostsFile}
variable {files files' : List KnownHostsFile} {found : Bool}

/-! ## One file -/

/-- The file is not there. -/
def Missing (f : KnownHostsFile) : Prop :=
  ∃ source, f.look.metadataOf f.file = .error source ∧ source.kind = .notFound

/-- The file is a regular file of at most 1 MiB, and what is said of it
is neither an error nor that the key has changed: it says whether it
knows the key. Of a file that cannot be opened, `known_hosts` may say
that it does not. -/
def Sound (known : KnownHosts) (v : HostKeyVerifier) (key : PublicKey) (f : KnownHostsFile)
    (matched : Bool) : Prop :=
  ∃ metadata, f.look.metadataOf f.file = .ok metadata ∧ metadata.isFile = true ∧
    metadata.len ≤ maxKnownHostsBytes ∧ v.report known key f.file f.look = .known matched

/-- Nothing is wrong with the file: it is missing, or sound. -/
def InOrder (known : KnownHosts) (v : HostKeyVerifier) (key : PublicKey) (f : KnownHostsFile) :
    Prop :=
  Missing f ∨ ∃ matched, Sound known v key f matched

/-- What a round of the loop makes of a file. -/
def lookAt (known : KnownHosts) (v : HostKeyVerifier) (key : PublicKey) (f : KnownHostsFile) :
    Except HostKeyError Bool :=
  v.checkPath known key f.path f.file f.look

theorem lookAt_missing (h : Missing f) : lookAt known v key f = .ok false := by
  obtain ⟨source, hm, hk⟩ := h
  simp [lookAt, checkPath, checkFile, hm, hk]

theorem lookAt_sound {matched : Bool} (h : Sound known v key f matched) :
    lookAt known v key f = .ok matched := by
  obtain ⟨metadata, hm, hfile, hlen, hreport⟩ := h
  simp [lookAt, checkPath, checkFile, hm, hfile, Nat.not_lt.2 hlen, hreport]

/-- A file that is there and at fault ends the check. -/
theorem lookAt_fault (h : ¬ InOrder known v key f) : ∃ error, lookAt known v key f = .error error := by
  unfold InOrder at h
  push Not at h
  obtain ⟨hm, hs⟩ := h
  unfold lookAt checkPath checkFile
  cases hmeta : f.look.metadataOf f.file with
  | error source =>
      have hk : source.kind ≠ .notFound := fun hk => hm ⟨source, hmeta, hk⟩
      exact ⟨_, if_neg hk⟩
  | ok metadata =>
      dsimp only
      by_cases hfile : metadata.isFile = true
      · rw [if_neg (by simp [hfile])]
        by_cases hlen : maxKnownHostsBytes < metadata.len
        · exact ⟨_, if_pos hlen⟩
        · rw [if_neg hlen]
          cases hreport : v.report known key f.file f.look with
          | known matched =>
              exact absurd ⟨metadata, hmeta, hfile, Nat.not_lt.1 hlen, hreport⟩ (hs matched)
          | changed line => exact ⟨_, rfl⟩
          | invalid text => exact ⟨_, rfl⟩
      · exact ⟨_, if_pos (by simp [hfile])⟩

/-- **What a round says of a file**: it goes on where the file is in
order, and knows then whether the file has the key. -/
theorem lookAt_ok_iff {matched : Bool} :
    lookAt known v key f = .ok matched ↔
      InOrder known v key f ∧ (matched = true ↔ Sound known v key f true) := by
  by_cases h : InOrder known v key f
  · rcases h with hm | ⟨m, hs⟩
    · have hnot : ¬ Sound known v key f true := fun hs => by
        have := lookAt_sound hs
        simp [lookAt_missing hm] at this
      rw [lookAt_missing hm]
      simp [InOrder, hm, hnot]
    · have hin : InOrder known v key f := .inr ⟨m, hs⟩
      have htrue : m = true ↔ Sound known v key f true := by
        refine ⟨fun h => h ▸ hs, fun hs' => ?_⟩
        have := lookAt_sound hs'
        rw [lookAt_sound hs] at this
        exact Except.ok.inj this
      rw [lookAt_sound hs]
      simp only [Except.ok.injEq, hin, true_and, ← htrue]
      exact ⟨fun h => h ▸ Iff.rfl, fun h => Bool.eq_iff_iff.2 h.symm⟩
  · obtain ⟨error, heq⟩ := lookAt_fault h
    rw [heq]
    simp [h]

/-! ## The loop -/

/-- Some file has the key. -/
def AnyMatches (known : KnownHosts) (v : HostKeyVerifier) (key : PublicKey)
    (files : List KnownHostsFile) : Prop :=
  ∃ f ∈ files, Sound known v key f true

/-- All files are in order. -/
def AllInOrder (known : KnownHosts) (v : HostKeyVerifier) (key : PublicKey)
    (files : List KnownHostsFile) : Prop :=
  ∀ f ∈ files, InOrder known v key f

/-- **The loop ends well** exactly where all files are in order, and says
then whether one of them has the key. -/
theorem firstLoop_ok_iff {b : Bool} :
    v.firstLoop known key found files = .ok b ↔
      AllInOrder known v key files ∧ (b = true ↔ found = true ∨ AnyMatches known v key files) := by
  induction files generalizing found with
  | nil =>
      simp only [firstLoop, Except.ok.injEq, AllInOrder, AnyMatches, List.not_mem_nil, false_and,
        exists_false, or_false, implies_true, false_implies, true_and]
      exact ⟨fun h => h ▸ Iff.rfl, fun h => Bool.eq_iff_iff.2 h.symm⟩
  | cons f rest ih =>
      have hall : AllInOrder known v key (f :: rest) ↔
          InOrder known v key f ∧ AllInOrder known v key rest := List.forall_mem_cons
      have hany : AnyMatches known v key (f :: rest) ↔
          Sound known v key f true ∨ AnyMatches known v key rest := by
        simp [AnyMatches]
      have hround : v.checkPath known key f.path f.file f.look = lookAt known v key f := rfl
      simp only [firstLoop, hround]
      rw [hall, hany]
      rcases hf : lookAt known v key f with error | matched
      · -- the first fault ends the loop
        have hnot : ¬ InOrder known v key f := fun hin => by
          rcases hin with hm | ⟨m, hs⟩
          · rw [lookAt_missing hm] at hf
            cases hf
          · rw [lookAt_sound hs] at hf
            cases hf
        simp [hnot]
      · obtain ⟨hin, hmatched⟩ := lookAt_ok_iff.1 hf
        dsimp only
        rw [ih, Bool.or_eq_true, hmatched]
        simp [hin, or_assoc]

/-- No error about a file is one about the user not being asked. -/
theorem lookAt_error {error : HostKeyError} (h : lookAt known v key f = .error error) :
    error ≠ .unknown v.host v.port key.fingerprint ∧ error ≠ .approvalUnavailable v.host v.port := by
  unfold lookAt checkPath checkFile at h
  split at h
  · split at h
    · cases h
    · obtain rfl := Except.error.inj h
      simp
  · split at h
    · obtain rfl := Except.error.inj h
      simp
    · split at h
      · obtain rfl := Except.error.inj h
        simp
      · split at h
        · cases h
        · obtain rfl := Except.error.inj h
          simp
        · obtain rfl := Except.error.inj h
          simp

theorem firstLoop_error_ne {error : HostKeyError}
    (h : v.firstLoop known key found files = .error error) :
    error ≠ .unknown v.host v.port key.fingerprint ∧ error ≠ .approvalUnavailable v.host v.port := by
  induction files generalizing found with
  | nil => cases h
  | cons f rest ih =>
      have hround : v.checkPath known key f.path f.file f.look = lookAt known v key f := rfl
      simp only [firstLoop, hround] at h
      rcases hf : lookAt known v key f with error' | matched
      · rw [hf] at h
        obtain rfl := Except.error.inj h
        exact lookAt_error hf
      · rw [hf] at h
        exact ih h

/-! ## The check -/

/-- The user is asked, or there is no way to: no channel, or one that is
full or closed. -/
def Asks (v : HostKeyVerifier) (key : PublicKey) (room : Bool) (verdict : KeyVerdict) : Prop :=
  (v.approval.isSome ∧ room = true ∧
      verdict = .prompted v.host v.port key.algorithm key.fingerprint) ∨
    (v.approval = none ∧ verdict = .failed (.unknown v.host v.port key.fingerprint)) ∨
    (v.approval.isSome ∧ room = false ∧ verdict = .failed (.approvalUnavailable v.host v.port))

/-- Neither accepted nor put to the user. -/
def Rejects (v : HostKeyVerifier) (key : PublicKey) (room : Bool) (verdict : KeyVerdict) : Prop :=
  verdict ≠ .accepted ∧ ¬ Asks v key room verdict

theorem asks_askUser (v : HostKeyVerifier) (key : PublicKey) (room : Bool) :
    Asks v key room (v.askUser key room) := by
  unfold askUser Asks
  cases v.approval with
  | none => exact .inr (.inl ⟨rfl, rfl⟩)
  | some approval =>
      cases room with
      | true => exact .inl ⟨rfl, rfl, rfl⟩
      | false => exact .inr (.inr ⟨rfl, rfl, rfl⟩)

theorem not_asks_accepted {room : Bool} : ¬ Asks v key room .accepted := by
  rintro (⟨-, -, h⟩ | ⟨-, h⟩ | ⟨-, -, h⟩) <;> cases h

theorem not_asks_failed {room : Bool} {error : HostKeyError}
    (h : error ≠ .unknown v.host v.port key.fingerprint ∧
      error ≠ .approvalUnavailable v.host v.port) : ¬ Asks v key room (.failed error) := by
  rintro (⟨-, -, h'⟩ | ⟨-, h'⟩ | ⟨-, -, h'⟩)
  · cases h'
  · exact h.1 (KeyVerdict.failed.inj h')
  · exact h.2 (KeyVerdict.failed.inj h')

/-- **The three ways of a strict check** of a plain key. -/
theorem checkServerKey_cases (known : KnownHosts) (hstrict : v.policy = .strict) (key : PublicKey)
    (files : List KnownHostsFile) (room : Bool) :
    (AllInOrder known v key files ∧ AnyMatches known v key files ∧
        v.checkServerKey known (.publicKey key) files room = .accepted) ∨
      (AllInOrder known v key files ∧ ¬ AnyMatches known v key files ∧
        Asks v key room (v.checkServerKey known (.publicKey key) files room)) ∨
      (¬ AllInOrder known v key files ∧
        Rejects v key room (v.checkServerKey known (.publicKey key) files room)) := by
  simp only [checkServerKey, hstrict, reduceCtorEq, if_false]
  rcases hloop : v.firstLoop known key false files with error | _ | _
  · refine .inr (.inr ⟨fun hall => ?_, nofun, not_asks_failed (firstLoop_error_ne hloop)⟩)
    by_cases hany : AnyMatches known v key files
    · have hok : v.firstLoop known key false files = .ok true :=
        firstLoop_ok_iff.2 ⟨hall, by simp [hany]⟩
      rw [hloop] at hok
      cases hok
    · have hok : v.firstLoop known key false files = .ok false :=
        firstLoop_ok_iff.2 ⟨hall, by simp [hany]⟩
      rw [hloop] at hok
      cases hok
  · obtain ⟨hall, hany⟩ := firstLoop_ok_iff.1 hloop
    exact .inr (.inl ⟨hall, by simpa using hany, asks_askUser v key room⟩)
  · obtain ⟨hall, hany⟩ := firstLoop_ok_iff.1 hloop
    exact .inl ⟨hall, by simpa using hany, rfl⟩

/-- What is read off the three ways. -/
theorem checkServerKey_iffs (known : KnownHosts) (hstrict : v.policy = .strict) (key : PublicKey)
    (files : List KnownHostsFile) (room : Bool) :
    (v.checkServerKey known (.publicKey key) files room = .accepted ↔
        AnyMatches known v key files ∧ AllInOrder known v key files) ∧
      (Asks v key room (v.checkServerKey known (.publicKey key) files room) ↔
        ¬ AnyMatches known v key files ∧ AllInOrder known v key files) ∧
      (Rejects v key room (v.checkServerKey known (.publicKey key) files room) ↔
        ¬ AllInOrder known v key files) := by
  rcases checkServerKey_cases known hstrict key files room with
    ⟨hall, hany, heq⟩ | ⟨hall, hany, hasks⟩ | ⟨hall, hrej⟩
  · rw [heq]
    simp [hall, hany, not_asks_accepted, Rejects]
  · have hne : v.checkServerKey known (.publicKey key) files room ≠ .accepted := fun h =>
      not_asks_accepted (h ▸ hasks)
    simp [hall, hany, hasks, hne, Rejects]
  · simp [hall, hrej, hrej.1, hrej.2]

theorem anyMatches_perm (h : files'.Perm files) :
    AnyMatches known v key files' ↔ AnyMatches known v key files := by
  unfold AnyMatches
  simp only [h.mem_iff]

theorem allInOrder_perm (h : files'.Perm files) :
    AllInOrder known v key files' ↔ AllInOrder known v key files := by
  unfold AllInOrder
  simp only [h.mem_iff]

/-- **A strict check fails closed, and the order of the files does not
matter.** For a plain key, whatever each file answers: the key is
accepted without asking exactly where a file has it and all are in order,
the user is asked exactly where none has it and all are in order, and
with the files in another order each of the three comes to the same. -/
theorem checkServerKey_strict (known : KnownHosts) (v : HostKeyVerifier) (key : PublicKey)
    (files : List KnownHostsFile) (room : Bool) (hstrict : v.policy = .strict) :
    (v.checkServerKey known (.publicKey key) files room = .accepted ↔
        AnyMatches known v key files ∧ AllInOrder known v key files) ∧
      (Asks v key room (v.checkServerKey known (.publicKey key) files room) ↔
        ¬ AnyMatches known v key files ∧ AllInOrder known v key files) ∧
      ∀ files', files'.Perm files →
        (v.checkServerKey known (.publicKey key) files' room = .accepted ↔
            v.checkServerKey known (.publicKey key) files room = .accepted) ∧
          (Asks v key room (v.checkServerKey known (.publicKey key) files' room) ↔
            Asks v key room (v.checkServerKey known (.publicKey key) files room)) ∧
          (Rejects v key room (v.checkServerKey known (.publicKey key) files' room) ↔
            Rejects v key room (v.checkServerKey known (.publicKey key) files room)) := by
  obtain ⟨haccept, hasks, hreject⟩ := checkServerKey_iffs known hstrict key files room
  refine ⟨haccept, hasks, fun files' hperm => ?_⟩
  obtain ⟨haccept', hasks', hreject'⟩ := checkServerKey_iffs known hstrict key files' room
  refine ⟨?_, ?_, ?_⟩
  · rw [haccept, haccept', anyMatches_perm hperm, allInOrder_perm hperm]
  · rw [hasks, hasks', anyMatches_perm hperm, allInOrder_perm hperm]
  · rw [hreject, hreject', allInOrder_perm hperm]

/-! ## Two files -/

/-- A reader of plain lines for the standard port. -/
def plainLines : KnownHosts where
  check host _ key lines := .known (host ++ " " ++ key.algorithm ++ " " ++ key.encoded ∈ lines)
  unreadable _ _ _ _ := .known false
  entry host _ key := host ++ " " ++ key.algorithm ++ " " ++ key.encoded

/-- A strict verifier that may ask the user. -/
def strictVerifier : HostKeyVerifier :=
  ⟨"db", 22, [.ofName "known_hosts", .ofName "trusted"], .strict, some ⟨.ofName "trusted"⟩⟩

def serverKey : PublicKey := ⟨"ssh-ed25519", "SHA256:abc", "AAAA"⟩

/-- A file with the key, and one that is not there. -/
def knownFiles : List KnownHostsFile :=
  [⟨.ofName "known_hosts", some ["db ssh-ed25519 AAAA"], {}⟩, ⟨.ofName "trusted", none, {}⟩]

theorem checkServerKey_strict_known :
    strictVerifier.policy = .strict ∧
      (strictVerifier.checkServerKey plainLines (.publicKey serverKey) knownFiles true = .accepted ↔
        AnyMatches plainLines strictVerifier serverKey knownFiles ∧
          AllInOrder plainLines strictVerifier serverKey knownFiles) :=
  ⟨rfl, (checkServerKey_strict plainLines strictVerifier serverKey knownFiles true rfl).1⟩

/-- Neither file is there. -/
def noFiles : List KnownHostsFile :=
  [⟨.ofName "known_hosts", none, {}⟩, ⟨.ofName "trusted", none, {}⟩]

/-- **A prompt that cannot be sent.** No file has the key and none is at
fault, and there is a channel, but it is full: the user is not asked, and
the error is not the one for a verifier without a channel. -/
theorem checkServerKey_full_channel :
    ¬ (((∃ host port algorithm fingerprint,
          strictVerifier.checkServerKey plainLines (.publicKey serverKey) noFiles false =
            .prompted host port algorithm fingerprint) ∨
        (strictVerifier.approval = none ∧
          strictVerifier.checkServerKey plainLines (.publicKey serverKey) noFiles false =
            .failed (.unknown "db" 22 "SHA256:abc"))) ↔
      ¬ AnyMatches plainLines strictVerifier serverKey noFiles ∧
        AllInOrder plainLines strictVerifier serverKey noFiles) := by
  have hverdict : strictVerifier.checkServerKey plainLines (.publicKey serverKey) noFiles false =
      .failed (.approvalUnavailable "db" 22) := by
    decide
  have hloop : strictVerifier.firstLoop plainLines serverKey false noFiles = .ok false := by
    decide
  obtain ⟨hall, hany⟩ := firstLoop_ok_iff.1 hloop
  rw [hverdict]
  intro h
  rcases h.2 ⟨by simpa using hany, hall⟩ with ⟨_, _, _, _, hprompted⟩ | ⟨hnone, -⟩
  · cases hprompted
  · cases hnone

end HostKeyVerifier

end Ssh

end TunnelWarden
