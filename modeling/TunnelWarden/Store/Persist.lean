import TunnelWarden.Store.Model.Persist
import TunnelWarden.Store.Save

/-!
# Saving to all three stores, or to none

`persist_config` writes the secret, login startup and the file in this
order, and takes the first two back where a later one fails. Up to the
rename inside the last that is enough. What follows the rename is
`prune_backups`: where that fails, the save fails with the new file in
place and the other two stores rolled back. And what login startup is
put back to is the flag the caller says it had, which need not be what
the registry holds. Saving is all or nothing exactly where neither
matters.
-/

namespace TunnelWarden

open Prog ConfigStore

variable {env : Verdicts StoreOp IoError} {secret : Option SecretUpdate} {w : Stores}
variable {new old : Bool}

/-- The calls that take something back succeed: the deletion of the
secret, and login startup set to its old value. -/
structure Compensates (env : Verdicts StoreOp IoError) (secret : Option SecretUpdate)
    (old : Bool) : Prop where
  delete : ∀ s, secret = some s → ∀ n, ∃ reading, env n (.keyringDelete s.reference) = .ok reading
  exe : ∀ n, ∃ len, env n (.currentExe old) = .ok len ∧ loginCommandLen len * 2 < 2 ^ 32
  registry : ∀ n, ∃ reading, env n (.registryRun old) = .ok reading

/-- The secret has a reference the keyring does not know yet. -/
def Fresh (secret : Option SecretUpdate) (w : Stores) : Prop :=
  ∀ s, secret = some s → w.keyring.lookup s.reference = none

namespace Stores

/-- Login startup is as it was and so is every secret. -/
def Untouched (w w' : Stores) : Prop :=
  w'.login = w.login ∧ ∀ r, w'.keyring.lookup r = w.keyring.lookup r

/-- The stores with the secret stored. -/
def withSecret (w : Stores) : Option SecretUpdate → Stores
  | none => w
  | some s => { w with keyring := w.keyring.insert s.reference s.value }

/-- Login startup once it was set, where the flag changes. -/
def loginSet (w : Stores) (new old : Bool) : Bool := if new = old then w.login else new

@[simp] theorem withSecret_disk : (w.withSecret secret).disk = w.disk := by
  cases secret <;> rfl

end Stores

/-- May this secret be stored? -/
def Storable (secret : Option SecretUpdate) : Prop :=
  ∀ s, secret = some s → SecretStore.validReference s.reference

/-! ## The steps -/

/-- Storing the secret works or changes nothing. -/
theorem keepSecret_triple :
    (keepSecret secret).Triple env (· = w) (fun _ w' => w' = w.withSecret secret ∧ Storable secret)
      (· = w) (fun _ => True) := by
  cases secret with
  | none => exact Triple.pure fun _ h => ⟨h, fun _ hs => by simp at hs⟩
  | some s =>
      refine Triple.mapError ?_
      unfold SecretStore.save
      split
      · exact Triple.throw fun _ h => h
      · split
        · exact Triple.throw fun _ h => h
        · rename_i hvalid
          refine Triple.mapError (Triple.op (fun _ s' _ t hs hrun => ?_) (fun _ _ _ _ _ hrun => ?_)
            (fun _ _ h => h) fun _ _ _ => trivial)
          · obtain ⟨-, rfl⟩ := Prod.mk.inj hrun
            refine ⟨by rw [hs]; rfl, fun s'' hs'' => ?_⟩
            obtain rfl := Option.some.inj hs''
            simpa using hvalid
          · simp at hrun

/-- Taking the secret back works. -/
theorem forgetSecret_triple {ε : Type} (hcomp : Compensates env secret old)
    (hfresh : Fresh secret w) (hvalid : Storable secret) (d : Disk) (login : Bool) :
    (forgetSecret secret : StoreProg ε Unit).Triple env
      (· = { w.withSecret secret with disk := d, login := login })
      (fun _ w' => w'.disk = d ∧ w'.login = login ∧
        ∀ r, w'.keyring.lookup r = w.keyring.lookup r) (fun _ => False) (fun _ => False) := by
  cases secret with
  | none => exact Triple.pure fun _ h => by subst h; exact ⟨rfl, rfl, fun _ => rfl⟩
  | some s =>
      refine Triple.bind (V := fun _ w' => w'.disk = d ∧ w'.login = login ∧
        ∀ r, w'.keyring.lookup r = w.keyring.lookup r) ?_ fun _ => Triple.pure fun _ h => h
      refine Triple.mono (Triple.attempt (V := fun _ w' => w'.disk = d ∧ w'.login = login ∧
        ∀ r, w'.keyring.lookup r = w.keyring.lookup r) (X := fun _ => False) ?_) (fun _ h => h)
        (fun r _ h => by cases r with | ok _ => exact h | error _ => exact h.elim) (fun _ h => h)
        fun _ h => h
      unfold SecretStore.delete
      rw [if_neg (by simp [hvalid s rfl])]
      refine Triple.mapError (Triple.op_ok (hcomp.delete s rfl) (fun _ _ _ _ t _ hs hrun => ?_)
        fun _ _ _ _ hs hrun => ?_)
      · subst hs
        rw [if_pos (by simp [Stores.withSecret])] at hrun
        obtain ⟨-, rfl⟩ := Prod.mk.inj hrun
        refine ⟨rfl, rfl, fun r => ?_⟩
        by_cases hr : r = s.reference
        · subst hr
          rw [AList.lookup_erase, hfresh s rfl]
        · exact (AList.lookup_erase_ne hr).trans (AList.lookup_insert_ne hr)
      · subst hs
        rw [if_pos (by simp [Stores.withSecret])] at hrun
        simp at hrun

/-- Login startup is set, or nothing changes. -/
theorem setRunAtLogin_triple :
    (setRunAtLogin new).Triple env (· = w) (fun _ w' => w' = { w with login := new }) (· = w)
      (fun _ => True) := by
  refine Triple.bind (V := fun _ w' => w' = w) (Triple.mapError (Triple.op
    (fun _ _ _ _ hs hrun => ?_) (fun _ _ _ _ _ hrun => ?_) (fun _ _ h => h) fun _ _ _ => trivial))
    fun len => ?_
  · obtain ⟨-, rfl⟩ := Prod.mk.inj hrun
    exact hs
  · simp at hrun
  · split
    · exact Triple.throw fun _ h => h
    · refine Triple.mapError (Triple.op (fun _ _ _ _ hs hrun => ?_) (fun _ _ _ _ _ hrun => ?_)
        (fun _ _ h => h) fun _ _ _ => trivial)
      · obtain ⟨-, rfl⟩ := Prod.mk.inj hrun
        rw [hs]
      · simp at hrun

/-- Setting it back works. -/
theorem restoreLogin_triple {P : Stores → Prop} (hcomp : Compensates env secret old)
    (hP : ∀ w login, P w → P { w with login := login }) :
    (setRunAtLogin old).Triple env P (fun _ w' => P w' ∧ w'.login = old) (fun _ => False)
      (fun _ => False) := by
  -- The length read is one the surroundings answered, so it is short.
  have hrun : ∀ n s, P s → ∃ len m, ((StoreProg.step (.currentExe old) fun reading w =>
      (Except.ok reading, w)).mapError StartupError.executable) env (n, s) = (.value len, m, s) ∧
      loginCommandLen len * 2 < 2 ^ 32 := by
    intro n s _
    obtain ⟨len, hlen, hshort⟩ := hcomp.exe n
    refine ⟨len, n + 1, ?_, hshort⟩
    simp only [Prog.mapError, StoreProg.step, Prog.op, hlen]
  intro n s hs
  obtain ⟨len, m, hread, hshort⟩ := hrun n s hs
  unfold setRunAtLogin
  rw [bind_of_value hread, if_neg (by omega)]
  refine (Triple.mapError (Triple.op_ok hcomp.registry (fun _ _ _ _ _ _ hs hrun => ?_)
    fun _ _ _ _ _ hrun => ?_) : Triple env P _ _ _ _) m s hs
  · obtain ⟨-, rfl⟩ := Prod.mk.inj hrun
    exact ⟨hP _ _ hs, rfl⟩
  · simp at hrun

/-- **Before the file**: the secret is stored and login startup set, or
both are as they were. -/
theorem prepare_triple (new : Bool) (hcomp : Compensates env secret old) (hfresh : Fresh secret w) :
    (prepare secret new old).Triple env (· = w)
      (fun _ w' => w' = { w.withSecret secret with login := w.loginSet new old } ∧ Storable secret)
      (fun w' => w'.disk = w.disk ∧ w.Untouched w') (fun _ => True) := by
  refine Triple.bind (keepSecret_triple.mono (fun _ h => h) (fun _ _ h => h)
    (fun _ h => ⟨by rw [h], by rw [h], fun _ => by rw [h]⟩) fun _ h => h) fun _ => ?_
  intro n s hs
  obtain ⟨rfl, hvalid⟩ := hs
  unfold changeLogin
  split
  · rename_i hchanges
    have hset : w.loginSet new old = new := if_neg hchanges
    refine Triple.bind (Triple.attempt setRunAtLogin_triple) (fun r => ?_) n _ rfl
    cases r with
    | ok _ => exact Triple.pure fun _ h => ⟨by rw [hset]; exact h, hvalid⟩
    | error e =>
        refine Triple.mono (P := (· = { w.withSecret secret with disk := w.disk, login := w.login }))
          (Triple.bind ((forgetSecret_triple hcomp hfresh hvalid w.disk w.login).mono
            (fun _ h => h) (fun _ _ h => h) (fun _ h => h.elim) fun _ h => h.elim)
            fun _ => Triple.throw fun _ h => h)
          (fun _ h => ?_) (fun _ _ h => h) (fun _ h => ⟨h.1, h.2.1, h.2.2⟩) fun _ h => h
        dsimp only at h
        rw [h]
        cases secret <;> rfl
  · rename_i hsame
    have hset : w.loginSet new old = w.login := if_pos (Decidable.not_not.1 hsame)
    refine Triple.pure (fun s hs => ⟨?_, hvalid⟩) n _ rfl
    rw [hset, ← hs]
    cases secret <;> rfl

/-- **After a failed save**: the secret is gone, login startup is what it
was said to be where it was set, and the disk is left as it is. -/
theorem rollBack_triple (hcomp : Compensates env secret old) (hfresh : Fresh secret w)
    (hvalid : Storable secret) (new : Bool) (d : Disk) (e : ConfigStoreError) :
    (rollBack secret new old e).Triple env
      (· = { w.withSecret secret with disk := d, login := w.loginSet new old }) (fun _ _ => False)
      (fun w' => w'.disk = d ∧ w'.login = (if new = old then w.login else old) ∧
        ∀ r, w'.keyring.lookup r = w.keyring.lookup r) (fun _ => False) := by
  refine Triple.bind ((forgetSecret_triple hcomp hfresh hvalid d (w.loginSet new old)).mono
    (fun _ h => h) (fun _ _ h => h) (fun _ h => h.elim) fun _ h => h) fun _ => ?_
  split
  · refine Triple.bind (Triple.attempt (restoreLogin_triple hcomp (P := fun w' =>
      w'.disk = d ∧ ∀ r, w'.keyring.lookup r = w.keyring.lookup r) fun _ _ h => h)
      |>.pre fun _ h => ⟨h.1, h.2.2⟩) fun r => ?_
    cases r with
    | ok _ => exact Triple.throw fun _ h => ⟨h.1.1, h.2, h.1.2⟩
    | error _ => exact Triple.throw fun _ h => h.elim
  · rename_i hsame
    have hset : w.loginSet new old = if new = old then w.login else old := by
      rw [Stores.loginSet, if_pos (Decidable.not_not.1 hsame), if_pos (Decidable.not_not.1 hsame)]
    exact Triple.throw fun _ h => ⟨h.1, h.2.1.trans hset, h.2.2⟩

/-! ## All or nothing -/

section AllOrNothing

variable (home : Option PathBuf) (codec : Codec) (directory : PathBuf) (config : DomainConfig)
variable (secret : Option SecretUpdate) (w : Stores) (old : Bool)

/-- The text is the one the configuration is saved as. -/
def SavedAs (text : String) : Prop :=
  ∃ document, ConfigDocument.tryFrom config = .ok document ∧ codec.toStringPretty document = .ok text

/-- **All or nothing**: a save that ends with an error leaves the three
stores as they were, and one that ends well leaves all three new. -/
def AllOrNothing (r : Exit String Unit) (w' : Stores) : Prop :=
  match r with
  | .error _ => w'.disk.lookup (configPath directory) = w.disk.lookup (configPath directory) ∧
      w.Untouched w'
  | .value _ => (∃ text, SavedAs codec config text ∧
        w'.disk.lookup (configPath directory) = some (.file text.toUTF8)) ∧
      w'.login = config.app.runAtStartup ∧
      ∀ s, secret = some s → w'.keyring.lookup s.reference = some s.value
  | .cut => True

/-- From this disk the replacement succeeds, and `prune_backups` then
fails on the directory it leaves. -/
def PruneFailsAfter (fenv : Verdicts FileOp IoError) (text : String) (s : ℕ × Disk) : Prop :=
  ∃ t e t', replaceFile directory text fenv s = (.value (), t) ∧
    pruneBackups directory fenv t = (.error e, t')

/-- The save gets as far as its rename, and `prune_backups` fails behind
it. -/
def PruneFails (env : Verdicts StoreOp IoError) (n : ℕ) : Prop :=
  ∃ document text n₁ w₁,
    ConfigDocument.tryFrom config = .ok document ∧
    serialized home codec document = .ok text ∧
    prepare secret config.app.runAtStartup old env (n, w) = (.value (), n₁, w₁) ∧
    PruneFailsAfter directory (fun n op => env n (.file op)) text (n₁, w₁.disk)

/-- Where the save of the file ends so, what login startup is set to
depends on the flag that is taken for the old one: a new flag equal to it
is never set, and one that differs from it is put back to it. -/
def ReliesOnFlag (new old : Bool) : Exit ConfigStoreError Unit → Prop
  | .value _ => new = old
  | .error _ => new ≠ old
  | .cut => False

/-- The save gets as far as the file, and relies on the old flag. -/
def FlagMatters (env : Verdicts StoreOp IoError) (n : ℕ) : Prop :=
  ∃ document n₁ w₁,
    ConfigDocument.tryFrom config = .ok document ∧
    prepare secret config.app.runAtStartup old env (n, w) = (.value (), n₁, w₁) ∧
    ReliesOnFlag config.app.runAtStartup old
      (save home codec directory document (fun n op => env n (.file op)) (n₁, w₁.disk)).1

variable {home codec directory config secret w old}
variable {env : Verdicts StoreOp IoError} {n : ℕ} {document : ConfigDocument}

/-- The checks before any file is touched. -/
theorem serialized_cases {text : String}
    (h : serialized home codec document = .ok text) :
    codec.toStringPretty document = .ok text ∧ (∃ c, document.intoDomain home = .ok c) ∧
      byteLen text ≤ maxConfigBytes := by
  unfold serialized at h
  obtain ⟨t, ht, h⟩ := bind_eq_ok.1 h
  obtain ⟨c, hc, h⟩ := bind_eq_ok.1 h
  split at h
  · simp at h
  · obtain rfl := Except.ok.inj h
    exact ⟨mapError_eq_ok.1 ht, ⟨c, mapError_eq_ok.1 hc⟩, by omega⟩

/-- The end of `persist_config`, by how the save of the file ends. -/
theorem saveOrRollBack_apply {new old : Bool} {w₁ : Stores} :
    saveOrRollBack home codec directory secret new old document env (n, w₁) =
      match save home codec directory document (fun n op => env n (.file op)) (n, w₁.disk) with
      | (.value _, m, d) => (.value (), m, { w₁ with disk := d })
      | (.error e, m, d) => rollBack secret new old e env (m, { w₁ with disk := d })
      | (.cut, m, d) => (.cut, m, { w₁ with disk := d }) := by
  unfold saveOrRollBack
  rw [bind_apply]
  simp only [Prog.attempt, StoreProg.onDisk, Prog.zoom]
  rcases save home codec directory document (fun n op => env n (.file op)) (n, w₁.disk) with
    ⟨_ | _ | _, m, d⟩ <;> rfl

/-- After a save of the file that works, login startup is what it was
told to be. -/
theorem loginSet_eq_iff {new : Bool} :
    w.loginSet new old = new ↔ old = w.login ∨ ¬ ReliesOnFlag new old (.value ()) := by
  unfold Stores.loginSet
  split
  · rename_i hsame
    rw [hsame]
    constructor
    · intro heq
      exact .inl heq.symm
    · intro hor
      exact (hor.resolve_right fun hnot => hnot rfl).symm
  · rename_i hchanges
    exact iff_of_true rfl (.inr hchanges)

/-- A failed save, rolled back: it is all or nothing exactly where
`config.toml` is what it was and the flag is the setting, or was not set
anew. -/
theorem rollBack_allOrNothing_iff (hcomp : Compensates env secret old)
    (hfresh : Fresh secret w) (hvalid : Storable secret) (new : Bool) (d : Disk)
    (e : ConfigStoreError) (m : ℕ) :
    AllOrNothing codec directory config secret w
      (rollBack secret new old e env
        (m, { w.withSecret secret with disk := d, login := w.loginSet new old })).1
      (rollBack secret new old e env
        (m, { w.withSecret secret with disk := d, login := w.loginSet new old })).2.2 ↔
      d.lookup (configPath directory) = w.disk.lookup (configPath directory) ∧
        (old = w.login ∨ ¬ ReliesOnFlag new old (.error e)) := by
  have h := rollBack_triple hcomp hfresh hvalid new d e m _ rfl
  rcases hr : rollBack secret new old e env
    (m, { w.withSecret secret with disk := d, login := w.loginSet new old }) with ⟨r, m', w'⟩
  rw [hr] at h
  cases r with
  | value _ => exact h.elim
  | cut => exact h.elim
  | error _ =>
      have hlogin : w'.login = w.login ↔ old = w.login ∨ ¬ ReliesOnFlag new old (.error e) := by
        rw [h.2.1]
        split
        · rename_i hsame
          exact iff_of_true rfl (.inr fun hne => hne hsame)
        · rename_i hchanges
          exact ⟨.inl, fun hor => hor.resolve_right fun hnot => hnot hchanges⟩
      refine ⟨fun hall => ⟨?_, hlogin.1 hall.2.1⟩, fun hd => ⟨?_, hlogin.2 hd.2, h.2.2⟩⟩
      · rw [← h.1]; exact hall.1
      · rw [h.1]; exact hd.1

/-- The save of the file in its three stages. -/
theorem save_of_ok {text : String} (h : serialized home codec document = .ok text) :
    save home codec directory document =
      (replaceFile directory text >>= fun _ => pruneBackups directory) := by
  unfold save
  rw [h]
  rfl

theorem save_of_error {e : ConfigStoreError} (h : serialized home codec document = .error e)
    (fenv : Verdicts FileOp IoError) (s : ℕ × Disk) :
    save home codec directory document fenv s = (.error e, s) := by
  unfold save
  rw [h]
  rfl

/-- The text a configuration is saved as is one. -/
theorem SavedAs.unique {text text' : String} (h : SavedAs codec config text)
    (h' : SavedAs codec config text') : text = text' := by
  obtain ⟨document, hdoc, htext⟩ := h
  obtain ⟨document', hdoc', htext'⟩ := h'
  obtain rfl := Except.ok.inj (hdoc.symm.trans hdoc')
  exact Except.ok.inj (htext.symm.trans htext')

theorem pruneFailsAfter_iff {fenv : Verdicts FileOp IoError} {text : String} {s t : ℕ × Disk}
    (h : replaceFile directory text fenv s = (.value (), t)) :
    PruneFailsAfter directory fenv text s ↔ ∃ e t', pruneBackups directory fenv t = (.error e, t') := by
  constructor
  · rintro ⟨t₁, e, t', hr, hp⟩
    obtain rfl := (Prod.mk.inj (h.symm.trans hr)).2
    exact ⟨e, t', hp⟩
  · rintro ⟨e, t', hp⟩
    exact ⟨t, e, t', h, hp⟩

theorem not_pruneFailsAfter {fenv : Verdicts FileOp IoError} {text : String} {s t : ℕ × Disk}
    {r : Exit ConfigStoreError Unit} (h : replaceFile directory text fenv s = (r, t))
    (hr : r ≠ .value ()) : ¬ PruneFailsAfter directory fenv text s := by
  rintro ⟨t₁, e, t', hr', -⟩
  exact hr (Prod.mk.inj (h.symm.trans hr')).1

/-- The save of the file and what follows it, from stores that are
prepared and with a text to save. -/
theorem saveOrRollBack_allOrNothing_iff {text : String} (hcomp : Compensates env secret old)
    (hfresh : Fresh secret w) (hvalid : Storable secret) (hsaved : SavedAs codec config text)
    (hser : serialized home codec document = .ok text) (m : ℕ) :
    AllOrNothing codec directory config secret w
      (saveOrRollBack home codec directory secret config.app.runAtStartup old document env
        (m, { w.withSecret secret with login := w.loginSet config.app.runAtStartup old })).1
      (saveOrRollBack home codec directory secret config.app.runAtStartup old document env
        (m, { w.withSecret secret with login := w.loginSet config.app.runAtStartup old })).2.2 ↔
    (PruneFailsAfter directory (fun n op => env n (.file op)) text (m, w.disk) →
      w.disk.lookup (configPath directory) = some (.file text.toUTF8)) ∧
    (old = w.login ∨ ¬ ReliesOnFlag config.app.runAtStartup old
      (save home codec directory document (fun n op => env n (.file op)) (m, w.disk)).1) := by
  rw [saveOrRollBack_apply, save_of_ok hser, Stores.withSecret_disk]
  have hreplace := replaceFile_replaces (fun n op => env n (.file op)) directory text _ m w.disk rfl
  rcases hr : replaceFile directory text (fun n op => env n (.file op)) (m, w.disk) with ⟨r, n₂, d₂⟩
  rw [hr] at hreplace
  cases r with
  | cut =>
      rw [bind_of_cut hr]
      exact iff_of_true trivial ⟨fun h => absurd h (not_pruneFailsAfter hr (by simp)), .inr id⟩
  | error e =>
      rw [bind_of_error hr]
      refine (rollBack_allOrNothing_iff hcomp hfresh hvalid _ _ e _).trans ?_
      exact and_congr_left fun _ =>
        iff_of_true hreplace fun h => absurd h (not_pruneFailsAfter hr (by simp))
  | value u =>
      -- The new text is in place from here on, whatever the pruning answers.
      rw [bind_of_value hr, pruneFailsAfter_iff hr]
      have hkeep : Keeps (fun n op => env n (.file op)) (Has directory (some (.file text.toUTF8)))
        (pruneBackups directory) := keeps_pruneBackups elsewhere_configPath
      have hprune := hkeep n₂ d₂ hreplace
      rcases hr' : pruneBackups directory (fun n op => env n (.file op)) (n₂, d₂) with ⟨r', n₃, d₃⟩
      rw [hr'] at hprune
      cases r' with
      | cut => exact iff_of_true trivial ⟨fun ⟨_, _, h⟩ => by simp at h, .inr id⟩
      | value _ =>
          have hsecret : ∀ s, secret = some s →
              (w.withSecret secret).keyring.lookup s.reference = some s.value := by
            intro s hs
            subst hs
            exact AList.lookup_insert _
          refine ⟨fun hall => ⟨fun ⟨_, _, h⟩ => by simp at h, loginSet_eq_iff.1 hall.2.1⟩,
            fun h => ?_⟩
          exact ⟨⟨text, hsaved, hprune⟩, loginSet_eq_iff.2 h.2, hsecret⟩
      | error e =>
          refine (rollBack_allOrNothing_iff hcomp hfresh hvalid _ _ e _).trans ?_
          rw [hprune]
          exact and_congr_left fun _ => ⟨fun h _ => h.symm, fun h => (h ⟨e, _, rfl⟩).symm⟩

/-- **Saving is all or nothing exactly where `prune_backups` does not
fail behind the rename**, or the file held the new text already, and the
flag that is taken for the old one is the setting, or is not relied
on. -/
theorem persistConfig_allOrNothing_iff (hfresh : Fresh secret w)
    (hcomp : Compensates env secret old) :
    AllOrNothing codec directory config secret w
      (persistConfig home codec directory config secret old env (n, w)).1
      (persistConfig home codec directory config secret old env (n, w)).2.2 ↔
    (PruneFails home codec directory config secret w old env n →
      ∃ text, SavedAs codec config text ∧
        w.disk.lookup (configPath directory) = some (.file text.toUTF8)) ∧
    (old = w.login ∨ ¬ FlagMatters home codec directory config secret w old env n) := by
  unfold persistConfig
  cases hdoc : ConfigDocument.tryFrom config with
  | error e =>
      refine iff_of_true ⟨rfl, rfl, fun _ => rfl⟩ ⟨?_, .inr ?_⟩
      · rintro ⟨document, -, -, -, h, -⟩
        simp [hdoc] at h
      · rintro ⟨document, -, -, h, -⟩
        simp [hdoc] at h
  | ok document =>
      rw [bind_of_value (t := (n, w)) (a := document) rfl]
      have hprep := prepare_triple config.app.runAtStartup hcomp hfresh n w rfl
      rcases hp : prepare secret config.app.runAtStartup old env (n, w) with ⟨r, n₁, w₁⟩
      rw [hp] at hprep
      cases r with
      | error e =>
          rw [bind_of_error hp]
          refine iff_of_true ⟨by rw [hprep.1], hprep.2⟩ ⟨?_, .inr ?_⟩
          · rintro ⟨_, _, _, _, -, -, h, -⟩
            simp [hp] at h
          · rintro ⟨_, _, _, -, h, -⟩
            simp [hp] at h
      | cut =>
          rw [bind_of_cut hp]
          refine iff_of_true trivial ⟨?_, .inr ?_⟩
          · rintro ⟨_, _, _, _, -, -, h, -⟩
            simp [hp] at h
          · rintro ⟨_, _, _, -, h, -⟩
            simp [hp] at h
      | value u =>
          obtain ⟨rfl, hvalid⟩ := hprep
          rw [bind_of_value hp]
          have hdisk : ({ w.withSecret secret with
              login := w.loginSet config.app.runAtStartup old } : Stores).disk = w.disk :=
            Stores.withSecret_disk
          have hflag : FlagMatters home codec directory config secret w old env n ↔
              ReliesOnFlag config.app.runAtStartup old
                (save home codec directory document (fun n op => env n (.file op))
                  (n₁, w.disk)).1 := by
            constructor
            · rintro ⟨document', n₁', w₁', hdoc', hp', hrelies⟩
              obtain rfl := Except.ok.inj (hdoc.symm.trans hdoc')
              obtain ⟨-, rfl, rfl⟩ : True ∧ n₁ = n₁' ∧ _ = w₁' := by simpa using hp.symm.trans hp'
              exact hdisk ▸ hrelies
            · intro hrelies
              exact ⟨document, n₁, _, hdoc, hp, hdisk.symm ▸ hrelies⟩
          rw [hflag]
          cases hser : serialized home codec document with
          | error e =>
              rw [saveOrRollBack_apply, save_of_error hser, save_of_error hser]
              refine (rollBack_allOrNothing_iff hcomp hfresh hvalid _ _ e _).trans ?_
              refine and_congr_left fun _ => iff_of_true (by rw [hdisk]) ?_
              rintro ⟨_, _, _, _, h, h', -⟩
              obtain rfl := Except.ok.inj (hdoc.symm.trans h)
              simp [hser] at h'
          | ok text =>
              have hsaved : SavedAs codec config text := ⟨document, hdoc, (serialized_cases hser).1⟩
              rw [saveOrRollBack_allOrNothing_iff hcomp hfresh hvalid hsaved hser]
              refine and_congr_left fun _ => ?_
              constructor
              · rintro h ⟨document', text', n₁', w₁', hdoc', hser', hp', hfails⟩
                obtain rfl := Except.ok.inj (hdoc.symm.trans hdoc')
                obtain rfl := Except.ok.inj (hser.symm.trans hser')
                obtain ⟨-, rfl, rfl⟩ : True ∧ n₁ = n₁' ∧ _ = w₁' := by simpa using hp.symm.trans hp'
                exact ⟨text, hsaved, h (hdisk ▸ hfails)⟩
              · intro h hfails
                obtain ⟨text', hsaved', hw⟩ := h ⟨document, text, n₁, _, hdoc, hser, hp,
                  hdisk.symm ▸ hfails⟩
                rw [hsaved.unique hsaved']
                exact hw

end AllOrNothing

/-! ## What a save leaves -/

section Saved

variable {home : Option PathBuf} {codec : Codec} {directory : PathBuf} {config : DomainConfig}
variable {document : ConfigDocument}

/-- The document's text is in the file. -/
def Stored (home : Option PathBuf) (codec : Codec) (directory : PathBuf) (document : ConfigDocument)
    (d : Disk) : Prop :=
  ∃ text, serialized home codec document = .ok text ∧ Has directory (some (.file text.toUTF8)) d

/-- A save that ends well. -/
theorem save_stores (fenv : Verdicts FileOp IoError) :
    (save home codec directory document).Triple fenv (fun _ => True)
      (fun _ => Stored home codec directory document) (fun _ => True) (fun _ => True) := by
  refine Triple.bind (V := fun text _ => serialized home codec document = .ok text)
    (Triple.liftExcept (fun _ _ h _ => h) fun _ _ => trivial) fun text => ?_
  refine Triple.bind (V := fun _ d => serialized home codec document = .ok text ∧
    Has directory (some (.file text.toUTF8)) d) (fun n d hser => ?_) fun _ => ?_
  · have h := replaceFile_replaces fenv directory text _ n d rfl
    cases hr : (replaceFile directory text fenv (n, d)).1 with
    | value u => rw [hr] at h; exact ⟨hser, h⟩
    | error e => trivial
    | cut => trivial
  · intro n d hd
    have hkeep : Keeps fenv (Has directory (some (.file text.toUTF8))) (pruneBackups directory) :=
      keeps_pruneBackups elsewhere_configPath
    have h := hkeep n d hd.2
    cases hr : (pruneBackups directory fenv (n, d)).1 with
    | value u => rw [hr] at h; exact ⟨text, hd.1, h⟩
    | error e => trivial
    | cut => trivial

/-- What a program of file operations does to the disk, over all the
stores. -/
theorem onDisk_triple {ε α : Type} {x : FileProg ε α} {P X C : Disk → Prop} {V : α → Disk → Prop}
    (p : Prop) (hx : x.Triple (fun n op => env n (.file op)) P V X C) :
    (StoreProg.onDisk x).Triple env (fun w => P w.disk ∧ p) (fun a w => V a w.disk ∧ p)
      (fun w => X w.disk ∧ p) (fun w => C w.disk ∧ p) :=
  Triple.zoom (F := fun _ => p) (fun _ _ => rfl) (fun _ _ h => h) hx

/-- A save that is rolled back does not end well. -/
theorem rollBack_fails (new old : Bool) (e : ConfigStoreError) :
    (rollBack secret new old e).Triple env (fun _ => True) (fun _ _ => False) (fun _ => True)
      (fun _ => True) := by
  refine Triple.bind (Triple.const True) fun _ => ?_
  split
  · refine Triple.bind (Triple.const True) fun r => ?_
    cases r with
    | ok _ => exact Triple.throw fun _ h => h
    | error _ => exact Triple.throw fun _ h => h
  · exact Triple.throw fun _ h => h

/-- **A save that ends well leaves the configuration in the file.** -/
theorem persistConfig_stores (home : Option PathBuf) (codec : Codec) (directory : PathBuf)
    (config : DomainConfig) (secret : Option SecretUpdate) (env : Verdicts StoreOp IoError)
    (old : Bool) :
    (persistConfig home codec directory config secret old).Triple env (fun _ => True)
      (fun _ w => ∃ document, ConfigDocument.tryFrom config = .ok document ∧
        Stored home codec directory document w.disk) (fun _ => True) (fun _ => True) := by
  refine Triple.bind (V := fun document _ => ConfigDocument.tryFrom config = .ok document)
    (Triple.liftExcept (fun _ _ h _ => mapError_eq_ok.1 h) fun _ _ => trivial) fun document => ?_
  refine Triple.bind (Triple.const _) fun _ => ?_
  refine Triple.bind (V := fun r w => ConfigDocument.tryFrom config = .ok document ∧
    (r = .ok () → Stored home codec directory document w.disk)) ?_ fun r => ?_
  · refine Triple.mono (Triple.attempt (onDisk_triple
      (ConfigDocument.tryFrom config = .ok document) (save_stores _))) (fun _ h => ⟨trivial, h⟩)
      (fun r w h => ?_) (fun _ h => h) fun _ _ => trivial
    cases r with
    | ok _ => exact ⟨h.2, fun _ => h.1⟩
    | error e => exact ⟨h.2, fun hr => by simp at hr⟩
  · cases r with
    | ok _ => exact Triple.pure fun _ h => ⟨document, h.1, h.2 rfl⟩
    | error e =>
        exact (rollBack_fails _ _ e).mono (fun _ _ => trivial) (fun _ _ h => h.elim) (fun _ h => h)
          fun _ h => h

end Saved

/-! ## A directory that cannot be listed -/

/-- The default configuration as `toml` writes it. -/
def defaultText : String :=
  "schema_version = 1\nhosts = []\ngroups = []\ntunnels = []\n\n[app]\ntheme = \"system\"\n" ++
    "run_at_startup = false\nminimize_to_tray = true\ntraffic_monitor = false\n"

/-- `toml` on one document and its text. -/
def Codec.only (document : ConfigDocument) (text : String) : Codec where
  toStringPretty d := if d = document then .ok text else .error "unsupported"
  fromStr t := if t = text then .ok document else .error "unsupported"

theorem Codec.only_fromStr {document d : ConfigDocument} {text t : String}
    (h : (Codec.only document text).toStringPretty d = .ok t) :
    (Codec.only document text).fromStr t = .ok d := by
  simp only [Codec.only] at h ⊢
  split at h
  · rw [if_pos (Except.ok.inj h).symm, ‹d = document›]
  · simp at h

/-- `toml` on the default configuration. -/
def defaultCodec : Codec := .only {} defaultText

def appDirectory : PathBuf := ⟨[.windowsPrefix "C:", .rootDir, .normal "TunnelWarden"]⟩

/-- A directory with an older configuration in it. -/
def olderStores : Stores where
  disk := (∅ : Disk).insert (configPath appDirectory) (.file "schema_version = 1\n".toUTF8)

/-- Everything works but listing the backups. -/
def unlistable : Verdicts StoreOp IoError := fun _ op =>
  if op = .file (.readDir (backupsPath appDirectory)) then
    .fail ⟨.permissionDenied, "Access is denied. (os error 5)"⟩ 0
  else .ok 0

/-- The criterion at that directory, for a save that also stores a
secret, where the flag that is taken for the old one is not the
setting. -/
theorem persistConfig_allOrNothing_iff_unlistable :
    let secret : Option SecretUpdate := some ⟨⟨"tw-1"⟩, "secret"⟩
    Fresh secret olderStores ∧ Compensates unlistable secret true ∧
    (AllOrNothing defaultCodec appDirectory {} secret olderStores
      (persistConfig none defaultCodec appDirectory {} secret true unlistable (0, olderStores)).1
      (persistConfig none defaultCodec appDirectory {} secret true unlistable
        (0, olderStores)).2.2 ↔
    (PruneFails none defaultCodec appDirectory {} secret olderStores true unlistable 0 →
      ∃ text, SavedAs defaultCodec {} text ∧
        olderStores.disk.lookup (configPath appDirectory) = some (.file text.toUTF8)) ∧
    (true = olderStores.login ∨
      ¬ FlagMatters none defaultCodec appDirectory {} secret olderStores true unlistable 0)) := by
  intro secret
  have hfresh : Fresh secret olderStores := fun s _ => rfl
  have hcomp : Compensates unlistable secret true :=
    ⟨fun _ _ _ => ⟨0, rfl⟩, fun _ => ⟨0, rfl, by decide⟩, fun _ => ⟨0, rfl⟩⟩
  exact ⟨hfresh, hcomp, persistConfig_allOrNothing_iff hfresh hcomp⟩

/-- **A save that fails and is not undone**: the backups cannot be
listed, the answer is an error, and the new file is in place. -/
theorem persistConfig_unlistable_not_allOrNothing :
    ¬ AllOrNothing defaultCodec appDirectory {} none olderStores
      (persistConfig none defaultCodec appDirectory {} none olderStores.login unlistable
        (0, olderStores)).1
      (persistConfig none defaultCodec appDirectory {} none olderStores.login unlistable
        (0, olderStores)).2.2 := by
  have herr : (persistConfig none defaultCodec appDirectory {} none olderStores.login unlistable
      (0, olderStores)).1 = .error
        "configuration I/O at C:\\TunnelWarden\\backups: Access is denied. (os error 5)" := by
    decide +kernel
  have hnew : (persistConfig none defaultCodec appDirectory {} none olderStores.login unlistable
      (0, olderStores)).2.2.disk.lookup (configPath appDirectory) ≠
        olderStores.disk.lookup (configPath appDirectory) := by
    decide +kernel
  rw [herr]
  intro h
  exact hnew h.1

end TunnelWarden
