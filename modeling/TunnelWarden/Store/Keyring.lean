import TunnelWarden.Store.Model.Persist

/-!
# What a save does to the keyring

A save stores the secret that goes with it, or takes it back, and looks
at no other entry. A save that ends well leaves it there.
-/

namespace TunnelWarden

open Prog

variable {env : Verdicts StoreOp IoError} {secret : Option SecretUpdate}
variable {keyring : AList fun _ : SecretRef => String}

namespace Stores

/-- Every entry but that of the secret is as it was. -/
def Others (secret : Option SecretUpdate) (keyring : AList fun _ : SecretRef => String)
    (w : Stores) : Prop :=
  ∀ reference, (∀ s ∈ secret, s.reference ≠ reference) →
    w.keyring.lookup reference = keyring.lookup reference

/-- And the secret is there. -/
def Holds (secret : Option SecretUpdate) (keyring : AList fun _ : SecretRef => String)
    (w : Stores) : Prop :=
  w.Others secret keyring ∧ ∀ s ∈ secret, w.keyring.lookup s.reference = some s.value

end Stores

/-- Storing the secret. -/
theorem keepSecret_holds :
    (keepSecret secret).Triple env (Stores.Others secret keyring)
      (fun _ => Stores.Holds secret keyring) (Stores.Others secret keyring)
      (Stores.Others secret keyring) := by
  cases secret with
  | none => exact Triple.pure fun _ h => ⟨h, fun _ hs => nomatch hs⟩
  | some s =>
      refine Triple.mapError ?_
      unfold SecretStore.save
      split
      · exact Triple.throw fun _ h => h
      · split
        · exact Triple.throw fun _ h => h
        · refine Triple.mapError (Triple.op (fun _ w _ _ h hrun => ?_) (fun _ _ _ _ _ hrun => ?_)
            (fun _ _ h => h) fun _ _ h => h)
          · obtain ⟨-, rfl⟩ := Prod.mk.inj hrun
            refine ⟨fun reference hne => ?_, fun s' hs' => ?_⟩
            · have hother : reference ≠ s.reference := fun heq => hne s rfl heq.symm
              exact (AList.lookup_insert_ne hother).trans (h reference hne)
            · obtain rfl := Option.some.inj hs'
              exact AList.lookup_insert _
          · cases hrun

/-- Taking it back. -/
theorem keeps_forgetSecret {ε : Type} :
    Keeps env (Stores.Others secret keyring) (forgetSecret secret : StoreProg ε Unit) := by
  cases secret with
  | none => exact Keeps.pure
  | some s =>
      refine Keeps.bind (Keeps.attempt ?_) fun _ => Keeps.pure
      unfold SecretStore.delete
      split
      · exact Keeps.throw
      · refine Keeps.mapError (Keeps.op (fun _ w h => ?_) fun _ _ h => h)
        split
        · intro reference hne
          have hother : reference ≠ s.reference := fun heq => hne s rfl heq.symm
          exact (AList.lookup_erase_ne hother).trans (h reference hne)
        · exact h

section Beside

variable {I : Stores → Prop}

/-- Login startup is beside what is kept. -/
theorem keeps_setRunAtLogin (hI : ∀ w login, I w → I { w with login := login }) (new : Bool) :
    Keeps env I (setRunAtLogin new) := by
  refine Keeps.bind (Keeps.mapError (Keeps.op (fun _ _ h => h) fun _ _ h => h)) fun len => ?_
  split
  · exact Keeps.throw
  · exact Keeps.mapError (Keeps.op (fun _ w h => hI w new h) fun _ _ h => h)

/-- And so is the disk. -/
theorem keeps_onDisk {ε α : Type} {x : FileProg ε α}
    (hI : ∀ w disk, I w → I { w with disk := disk }) : Keeps env I (StoreProg.onDisk x) :=
  Keeps.of_holds fun _ w h => hI w _ h

end Beside

variable {new old : Bool}

/-- Login startup after the secret. -/
theorem changeLogin_holds :
    (changeLogin secret new old).Triple env (Stores.Holds secret keyring)
      (fun _ => Stores.Holds secret keyring) (Stores.Others secret keyring)
      (Stores.Others secret keyring) := by
  unfold changeLogin
  split
  · have hlogin : Keeps env (Stores.Holds secret keyring) (setRunAtLogin new) :=
      keeps_setRunAtLogin (fun _ _ h => h) new
    refine Triple.bind (Triple.mono (Keeps.attempt hlogin) (fun _ h => h) (fun _ _ h => h)
      (fun _ h => h.1) fun _ h => h.1) fun r => ?_
    cases r with
    | ok u => exact Triple.pure fun _ h => h
    | error error =>
        refine Triple.pre (P := Stores.Others secret keyring) ?_ fun _ h => h.1
        exact Triple.bind keeps_forgetSecret fun _ => Triple.throw fun _ h => h
  · exact Triple.pure fun _ h => h

/-- A save that is rolled back. -/
theorem rollBack_others (error : ConfigStoreError) :
    (rollBack secret new old error).Triple env (Stores.Others secret keyring) (fun _ _ => False)
      (Stores.Others secret keyring) (Stores.Others secret keyring) := by
  refine Triple.bind keeps_forgetSecret fun _ => ?_
  split
  · have hlogin : Keeps env (Stores.Others secret keyring) (setRunAtLogin old) :=
      keeps_setRunAtLogin (fun _ _ h => h) old
    refine Triple.bind (Keeps.attempt hlogin) fun r => ?_
    cases r with
    | ok u => exact Triple.throw fun _ h => h
    | error rollback => exact Triple.throw fun _ h => h
  · exact Triple.throw fun _ h => h

/-- **A save touches one entry of the keyring**, that of its secret, and
where it ends well the secret is there. -/
theorem persistConfig_holds (home : Option PathBuf) (codec : Codec) (directory : PathBuf)
    (config : DomainConfig) (secret : Option SecretUpdate) (old : Bool) :
    (persistConfig home codec directory config secret old).Triple env
      (Stores.Others secret keyring) (fun _ => Stores.Holds secret keyring)
      (Stores.Others secret keyring) (Stores.Others secret keyring) := by
  refine Triple.bind (V := fun _ => Stores.Others secret keyring)
    (Triple.liftExcept (fun _ _ _ h => h) fun _ h => h) fun document => ?_
  refine Triple.bind (Triple.bind keepSecret_holds fun _ => changeLogin_holds) fun _ => ?_
  have hdisk : Keeps env (Stores.Holds secret keyring)
      (StoreProg.onDisk (ConfigStore.save home codec directory document)) :=
    keeps_onDisk fun _ _ h => h
  refine Triple.bind (Triple.mono (Keeps.attempt hdisk) (fun _ h => h) (fun _ _ h => h)
    (fun _ h => h.1) fun _ h => h.1) fun r => ?_
  cases r with
  | ok u => exact Triple.pure fun _ h => h
  | error error =>
      exact (rollBack_others error).mono (fun _ h => h.1) (fun _ _ h => h.elim) (fun _ h => h)
        fun _ h => h

end TunnelWarden
