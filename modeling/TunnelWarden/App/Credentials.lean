import TunnelWarden.App.Editor
import TunnelWarden.App.Reopen
import TunnelWarden.Manager.Keyring

/-!
# The credentials of the hosts

A form of a host sends the secret that was entered in it under a new
reference, and the manager stores it with the configuration. Along every
run, with windows that are closed and opened again while saves are under
way and saves that fail anywhere, a reference in use leads to what was
entered with it (`credentials_kept`).
-/

namespace TunnelWarden

namespace App

open Manager

variable {home : Option PathBuf} {codec : Codec} {paths : PathText}
variable {b : Bench} {config c : DomainConfig} {edit : Edit} {reference : SecretRef}

/-! ## The references of an edit -/

theorem mem_references : reference ∈ config.references ↔
    ∃ host ∈ config.hosts, reference ∈ host.auth.references := List.mem_flatMap

theorem mem_upsert {α κ : Type} [DecidableEq κ] {key : α → κ} {items : List α} {item x : α}
    (h : x ∈ upsert key items item) : x ∈ items ∨ x = item := by
  unfold upsert at h
  split at h
  · exact List.mem_or_eq_of_mem_set h
  · rcases List.mem_append.1 h with hold | hnew
    · exact .inl hold
    · exact .inr (List.mem_singleton.1 hnew)

theorem mem_addEntries {entries : List SshEntry} {hosts hosts' : List SshHost}
    (h : addEntries entries hosts = .ok hosts') {host : SshHost} (hmem : host ∈ hosts') :
    host ∈ hosts ∨ ∃ entry ∈ entries, host.auth = entry.host.auth := by
  induction entries generalizing hosts with
  | nil =>
      obtain rfl := Except.ok.inj h
      exact .inl hmem
  | cons entry rest ih =>
      have hlater (old : List SshHost) (hrest : addEntries rest old = .ok hosts')
          (hold : ∀ x ∈ old, x ∈ hosts ∨ x.auth = entry.host.auth) :
          host ∈ hosts ∨ ∃ e ∈ entry :: rest, host.auth = e.host.auth := by
        rcases ih hrest with hbefore | ⟨e, he, hauth⟩
        · rcases hold host hbefore with hfirst | hauth
          · exact .inl hfirst
          · exact .inr ⟨entry, List.mem_cons_self, hauth⟩
        · exact .inr ⟨e, List.mem_cons_of_mem _ he, hauth⟩
      have hadded (new : SshHost) (hauth : new.auth = entry.host.auth) :
          ∀ x ∈ hosts ++ [new], x ∈ hosts ∨ x.auth = entry.host.auth := by
        intro x hx
        rcases List.mem_append.1 hx with hold | hnew
        · exact .inl hold
        · rw [List.mem_singleton.1 hnew]
          exact .inr hauth
      unfold addEntries at h
      split_ifs at h
      · exact hlater hosts h fun x hx => .inl hx
      · split at h
        · cases h
        · exact hlater _ h (hadded _ rfl)
      · exact hlater _ h (hadded _ rfl)

/-- **An edit brings no reference** but those of its host or of its import. -/
theorem applyEdit_references (h : applyEdit home config edit = .ok c)
    (hmem : reference ∈ c.references) :
    reference ∈ config.references ∨ reference ∈ edit.brings ∨
      ∃ host secret, edit = .host host secret ∧ reference ∈ host.auth.references := by
  obtain ⟨host, hhost, href⟩ := mem_references.1 hmem
  have hsame (hhosts : c.hosts = config.hosts) : reference ∈ config.references :=
    mem_references.2 ⟨host, hhosts ▸ hhost, href⟩
  cases edit with
  | host entered secret =>
      rw [checked_eq_ok h] at hhost
      rcases mem_upsert hhost with hold | rfl
      · exact .inl (mem_references.2 ⟨host, hold, href⟩)
      · exact .inr (.inr ⟨host, secret, rfl, href⟩)
  | tunnel entered => exact .inl (hsame (by rw [checked_eq_ok h]))
  | group id name =>
      left
      apply hsame
      simp only [applyEdit, saveGroup] at h
      split_ifs at h
      split at h
      · obtain rfl := Except.ok.inj h
        rfl
      · obtain rfl := Except.ok.inj h
        rfl
  | deleteGroup id =>
      obtain rfl := Except.ok.inj h
      exact .inl (hsame rfl)
  | moveGroup id direction =>
      left
      apply hsame
      simp only [applyEdit, moveGroup] at h
      split at h
      · cases h
      · split_ifs at h
        obtain rfl := Except.ok.inj h
        rfl
  | runAtLogin =>
      obtain rfl := Except.ok.inj h
      exact .inl (hsame rfl)
  | closeMode =>
      obtain rfl := Except.ok.inj h
      exact .inl (hsame rfl)
  | importConfig imported =>
      obtain rfl := Except.ok.inj h
      exact .inr (.inl hmem)
  | importSsh entries =>
      obtain ⟨hosts, hadd, hcheck⟩ := bind_eq_ok.1 h
      rw [checked_eq_ok hcheck] at hhost
      rcases mem_addEntries hadd hhost with hold | ⟨entry, hentry, hauth⟩
      · exact .inl (mem_references.2 ⟨host, hold, href⟩)
      · exact .inr (.inl (List.mem_flatMap.2 ⟨entry, hentry, hauth ▸ href⟩))

/-! ## What refers to credentials -/

/-- **Every reference about is in order**: those in the configuration in
use, in the window's copy and its form, in the configurations on their way
to the manager (but for the secret on its way with them) and in those that
are answered to have been saved. -/
structure Clean (F : SecretRef → Prop) (b : Bench) : Prop where
  views : ∀ r ∈ b.desktop.manager.configViews.references, F r
  copy : ∀ w, b.desktop.window = some w → ∀ r ∈ w.startup.references, F r
  editor : ∀ e, b.editor = some (.host e) → ∃ known, e.Holds known ∧ ∀ r ∈ known, F r
  commands : ∀ q ∈ b.desktop.commands, ∀ r ∈ q.config.references,
    F r ∨ ∃ s ∈ q.secret, s.reference = r
  replies : ∀ q ∈ b.desktop.replies, q.result = .ok () → ∀ r ∈ q.config.references, F r

/-- A step that moves no secret. -/
structure Quiet (b b' : Bench) : Prop where
  clean : ∀ F, Clean F b → Clean F b'
  commands : b'.desktop.commands = b.desktop.commands
  keyring : b'.desktop.manager.stores.keyring = b.desktop.manager.stores.keyring

theorem Quiet.same (b : Bench) : Quiet b b := ⟨fun _ h => h, rfl, rfl⟩

variable {F G : SecretRef → Prop}

theorem Clean.mono (h : Clean F b) (hFG : ∀ r, F r → G r) : Clean G b where
  views r hr := hFG r (h.views r hr)
  copy w hw r hr := hFG r (h.copy w hw r hr)
  editor e he := by
    obtain ⟨known, hholds, hknown⟩ := h.editor e he
    exact ⟨known, hholds, fun r hr => hFG r (hknown r hr)⟩
  commands q hq r hr := (h.commands q hq r hr).imp_left (hFG r)
  replies q hq hok r hr := hFG r (h.replies q hq hok r hr)

/-! ## Steps that move no secret -/

/-- A form is exchanged. -/
theorem Quiet.exchange {editor : Option Editor}
    (h : ∀ F, Clean F b → ∀ e, editor = some (.host e) →
      ∃ known, e.Holds known ∧ ∀ r ∈ known, F r) : Quiet b { b with editor } where
  clean F hF := ⟨hF.views, hF.copy, h F hF, hF.commands, hF.replies⟩
  commands := rfl
  keyring := rfl

theorem quiet_openEditor {editor : DomainConfig → Option Editor}
    (h : ∀ config e, editor config = some (.host e) → e.Holds config.references) :
    Quiet b (b.openEditor editor) := by
  unfold Bench.openEditor
  cases hopen : b.copy.bind editor with
  | none => exact Quiet.same b
  | some opened =>
      refine Quiet.exchange fun F hF e he => ?_
      obtain ⟨config, hcopy, heditor⟩ := Option.bind_eq_some_iff.1 hopen
      obtain ⟨w, hw, rfl⟩ := Option.map_eq_some_iff.1 hcopy
      obtain rfl := Option.some.inj he
      exact ⟨w.startup.references, h _ e heditor, hF.copy w hw⟩

/-- The form of a host that is in the copy refers to what the copy refers
to. -/
theorem holds_of_mem {host : SshHost} (id : HostId) (hmem : host ∈ config.hosts) :
    (HostEditor.new paths id (some host)).Holds config.references := by
  refine HostEditor.holds_new id fun found hfound r hr => ?_
  obtain rfl := Option.some.inj hfound
  exact mem_references.2 ⟨_, hmem, hr⟩

/-- Something of the window that is no reference. -/
theorem Quiet.window {window : Option Workspace}
    (h : ∀ w, window = some w → ∃ w', b.desktop.window = some w' ∧ w.startup = w'.startup) :
    Quiet b { b with desktop := { b.desktop with window } } where
  clean F hF := by
    refine ⟨hF.views, fun w hw => ?_, hF.editor, hF.commands, hF.replies⟩
    obtain ⟨w', hw', hstartup⟩ := h w hw
    rw [hstartup]
    exact hF.copy w' hw'
  commands := rfl
  keyring := rfl

theorem quiet_refuse (error : Option String) : Quiet b (b.refuse error) := by
  refine Quiet.window fun w hw => ?_
  obtain ⟨w', hw', rfl⟩ := Option.map_eq_some_iff.1 hw
  exact ⟨w', hw', rfl⟩

theorem Quiet.closed {b' : Bench} (h : Quiet b b') : Quiet b { b' with editor := none } where
  clean F hF :=
    let hF' := h.clean F hF
    ⟨hF'.views, hF'.copy, fun _ he => (nomatch he), hF'.commands, hF'.replies⟩
  commands := h.commands
  keyring := h.keyring

/-- The form stays, or goes. -/
theorem Quiet.orClosed {desktop : Desktop} (h : Quiet b { b with desktop }) (gone : Bool) :
    Quiet b ⟨desktop, if gone then none else b.editor⟩ := by
  cases gone with
  | true => exact h.closed
  | false => exact h

/-! ### The desktop -/

theorem quiet_openWindow : Quiet b { b with desktop := b.desktop.openWindow } := by
  unfold Desktop.openWindow
  split
  · exact Quiet.same b
  · refine ⟨fun F hF => ⟨hF.views, fun w hw => ?_, hF.editor, hF.commands, hF.replies⟩, rfl, rfl⟩
    obtain rfl := Option.some.inj hw
    exact hF.views

theorem quiet_closeWindow : Quiet b { b with desktop := b.desktop.closeWindow } := by
  unfold Desktop.closeWindow
  split
  · exact Quiet.window fun _ hw => nomatch hw
  · exact Quiet.same b

/-- A reply is taken: a configuration becomes the copy once it is answered
to have been saved. -/
theorem deliverNext_cases (d : Desktop) :
    d.deliverNext = d ∨ ∃ reply rest window, d.replies = reply :: rest ∧
      d.deliverNext = { d with replies := rest, window := window } ∧
      ∀ w, window = some w → (∃ w', d.window = some w' ∧ w.startup = w'.startup) ∨
        (reply.result = .ok () ∧ w.startup = reply.config) := by
  unfold Desktop.deliverNext
  cases hreplies : d.replies with
  | nil => exact .inl rfl
  | cons reply rest =>
      right
      dsimp only
      cases hwindow : d.window with
      | none => exact ⟨reply, rest, none, rfl, rfl, fun _ hw => nomatch hw⟩
      | some w =>
          dsimp only
          split
          · split
            · rename_i hresult
              refine ⟨reply, rest, _, rfl, rfl, fun w' hw' => .inr ⟨hresult, ?_⟩⟩
              obtain rfl := Option.some.inj hw'
              rfl
            · refine ⟨reply, rest, _, rfl, rfl, fun w' hw' => .inl ⟨w, rfl, ?_⟩⟩
              obtain rfl := Option.some.inj hw'
              rfl
          · exact ⟨reply, rest, some w, rfl, rfl, fun w' hw' => .inl ⟨w', hw', rfl⟩⟩

theorem quiet_deliverNext : Quiet b { b with desktop := b.desktop.deliverNext } := by
  rcases deliverNext_cases b.desktop with heq | ⟨reply, rest, window, hreplies, heq, hwindow⟩
  · rw [heq]
    exact Quiet.same b
  · rw [heq]
    refine ⟨fun F hF => ⟨hF.views, fun w hw => ?_, hF.editor, hF.commands, fun q hq => ?_⟩, rfl, rfl⟩
    · rcases hwindow w hw with ⟨w', hw', hstartup⟩ | ⟨hok, hstartup⟩
      · rw [hstartup]
        exact hF.copy w' hw'
      · rw [hstartup]
        exact hF.replies reply (hreplies ▸ List.mem_cons_self) hok
    · exact hF.replies q (hreplies ▸ List.mem_cons_of_mem _ hq)

theorem quiet_manage (home : Option PathBuf) (codec : Codec) (input : Manager.Input) :
    Quiet b { b with desktop := (b.desktop.step home codec (.manage input)).2 } := by
  by_cases hsave : ∃ directory config secret env,
      input = .command (.saveConfig directory config secret) env
  · obtain ⟨directory, config, secret, env, rfl⟩ := hsave
    exact Quiet.same b
  · have hother : ∀ directory config secret env,
        input ≠ .command (.saveConfig directory config secret) env :=
      fun directory config secret env heq => hsave ⟨directory, config, secret, env, heq⟩
    have hviews := World.step_configViews home codec b.desktop.manager hother
    have hkeyring := World.step_keyring home codec b.desktop.manager hother
    have heq : (b.desktop.step home codec (.manage input)).2 =
        { b.desktop with manager := (b.desktop.manager.step home codec input).2 } := by
      cases input with
      | command command env =>
          cases command with
          | saveConfig directory config secret => exact absurd rfl (hother directory config secret env)
          | _ => rfl
      | _ => rfl
    rw [heq]
    refine ⟨fun F hF => ⟨?_, hF.copy, hF.editor, hF.commands, hF.replies⟩, rfl, hkeyring⟩
    rw [hviews]
    exact hF.views

/-! ## Sending -/

/-- An edit is refused, or goes to the manager. -/
theorem editConfig_sends (home : Option PathBuf) (edit : Edit) (unsent : Option String)
    (d : Desktop) :
    ((d.editConfig home edit unsent).1 = none ∧ ∃ window,
      (d.editConfig home edit unsent).2 = { d with window } ∧
      ∀ w, window = some w → ∃ w', d.window = some w' ∧ w.startup = w'.startup) ∨
    ∃ w c, d.window = some w ∧ applyEdit home w.startup edit = .ok c ∧
      d.editConfig home edit unsent = (some (.sent w.number w.startup c), { d with
        commands := d.commands ++ [⟨w.number, c, edit.secret⟩]
        window := some { w with saving := true, commandError := none } }) := by
  unfold Desktop.editConfig
  cases hwindow : d.window with
  | none =>
      refine .inl ⟨rfl, d.window, rfl, fun w hw => ?_⟩
      rw [hwindow] at hw
      cases hw
  | some w =>
      dsimp only
      split
      · exact .inl ⟨rfl, d.window, rfl, fun w' hw' => ⟨w', hwindow.symm.trans hw', rfl⟩⟩
      · cases happly : applyEdit home w.startup edit with
        | error refusal =>
            refine .inl ⟨rfl, _, rfl, fun w' hw' => ⟨w, rfl, ?_⟩⟩
            obtain rfl := Option.some.inj hw'
            rfl
        | ok c =>
            cases unsent with
            | some error =>
                refine .inl ⟨rfl, _, rfl, fun w' hw' => ⟨w, rfl, ?_⟩⟩
                obtain rfl := Option.some.inj hw'
                rfl
            | none => exact .inr ⟨w, c, rfl, happly, rfl⟩

theorem send_cases (home : Option PathBuf) (edit : Edit) (unsent : Option String) (b : Bench) :
    ((b.send home edit unsent).1 = [] ∧ Quiet b (b.send home edit unsent).2) ∨
    ∃ w c, b.desktop.window = some w ∧ applyEdit home w.startup edit = .ok c ∧
      b.send home edit unsent = (edit.secret.toList.map .entered ++ [.brought edit.brings],
        { b with desktop := { b.desktop with
            commands := b.desktop.commands ++ [⟨w.number, c, edit.secret⟩]
            window := some { w with saving := true, commandError := none } } }) := by
  unfold Bench.send
  rcases editConfig_sends home edit unsent b.desktop with ⟨hnone, window, heq, hwindow⟩ |
    ⟨w, c, hw, happly, heq⟩
  · rcases hr : b.desktop.editConfig home edit unsent with ⟨event, desktop⟩
    rw [hr] at hnone heq
    obtain rfl : event = none := hnone
    obtain rfl : desktop = { b.desktop with window } := heq
    exact .inl ⟨rfl, Quiet.window hwindow⟩
  · rw [heq]
    exact .inr ⟨w, c, hw, happly, rfl⟩

/-! ## The ledger -/

/-- The secrets that were sent. -/
def entered (record : List Bench.Event) : List SecretUpdate :=
  record.filterMap fun
    | .entered secret => some secret
    | .brought _ => none

/-- The references that came with imports. -/
def broughtIn (record : List Bench.Event) : List SecretRef :=
  record.flatMap fun
    | .entered _ => []
    | .brought references => references

/-- What was entered with a reference. -/
def valueOf (secrets : List SecretUpdate) (reference : SecretRef) : Option String :=
  (secrets.find? fun s => s.reference = reference).map SecretUpdate.value

/-- The references that forms draw. -/
def drawn (inputs : List Bench.Input) : List SecretRef :=
  inputs.filterMap fun
    | .saveEditor random _ => some (newSecretRef random)
    | _ => none

/-- The references of the secrets on their way. -/
def pending (commands : List SaveRequest) : List SecretRef :=
  commands.filterMap fun q => q.secret.map SecretUpdate.reference

variable {first : AList fun _ : SecretRef => String} {initial past : List SecretRef}
variable {record : List Bench.Event} {r : SecretRef}

/-- **A reference in order** came with an import; or it was there at first
or came with a secret, this is not on its way, and it leads to what was
entered with it, or else to what it led to at first. -/
def InOrder (first : AList fun _ : SecretRef => String) (initial : List SecretRef)
    (record : List Bench.Event) (d : Desktop) (r : SecretRef) : Prop :=
  r ∈ broughtIn record ∨
    (r ∈ initial ∨ ∃ s ∈ entered record, s.reference = r) ∧ r ∉ pending d.commands ∧
      d.manager.stores.keyring.lookup r = (valueOf (entered record) r).or (first.lookup r)

/-- What holds of the credentials along a run. -/
structure Kept (first : AList fun _ : SecretRef => String) (initial past : List SecretRef)
    (record : List Bench.Event) (b : Bench) : Prop where
  clean : Clean (InOrder first initial record b.desktop) b
  apart : (pending b.desktop.commands).Nodup
  sent : ∀ q ∈ b.desktop.commands, ∀ s ∈ q.secret, s ∈ entered record
  once : ((entered record).map SecretUpdate.reference).Nodup
  known : ∀ s ∈ entered record, s.reference ∈ past

theorem valueOf_mem {secrets : List SecretUpdate} {s : SecretUpdate}
    (h : (secrets.map SecretUpdate.reference).Nodup) (hs : s ∈ secrets) :
    valueOf secrets s.reference = some s.value := by
  induction secrets with
  | nil => cases hs
  | cons s' rest ih =>
      obtain ⟨hnew, hrest⟩ := List.nodup_cons.1 h
      unfold valueOf
      rcases List.mem_cons.1 hs with rfl | hlater
      · simp
      · have hne : ¬ s'.reference = s.reference := fun heq =>
          hnew (heq ▸ List.mem_map_of_mem hlater)
        rw [List.find?_cons_of_neg (by simpa using hne)]
        exact ih hrest hlater

/-- Another secret says nothing about a reference. -/
theorem valueOf_append {secrets more : List SecretUpdate} (h : ∀ s ∈ more, s.reference ≠ r) :
    valueOf (secrets ++ more) r = valueOf secrets r := by
  have hnone : more.find? (fun s => s.reference = r) = none :=
    List.find?_eq_none.2 fun s hs => by simpa using h s hs
  unfold valueOf
  rw [List.find?_append, hnone, Option.or_none]

/-- Steps that move no secret. -/
theorem Kept.quiet (h : Kept first initial past record b) {b' : Bench} (hquiet : Quiet b b')
    (more : List SecretRef) : Kept first initial (past ++ more) record b' := by
  have hmono : ∀ r, InOrder first initial record b.desktop r →
      InOrder first initial record b'.desktop r := by
    rintro r (hbrought | ⟨hold, hsettled, hvalue⟩)
    · exact .inl hbrought
    · refine .inr ⟨hold, ?_, ?_⟩
      · rw [hquiet.commands]
        exact hsettled
      · rw [hquiet.keyring]
        exact hvalue
  refine ⟨hquiet.clean _ (h.clean.mono hmono), ?_, ?_, h.once, fun s hs =>
    List.mem_append_left _ (h.known s hs)⟩
  · rw [hquiet.commands]
    exact h.apart
  · rw [hquiet.commands]
    exact h.sent

theorem entered_sent (edit : Edit) (record : List Bench.Event) :
    entered (record ++ (edit.secret.toList.map .entered ++ [.brought edit.brings])) =
      entered record ++ edit.secret.toList := by
  unfold entered
  cases edit.secret <;> simp

theorem broughtIn_sent (edit : Edit) (record : List Bench.Event) :
    broughtIn (record ++ (edit.secret.toList.map .entered ++ [.brought edit.brings])) =
      broughtIn record ++ edit.brings := by
  unfold broughtIn
  cases edit.secret <;> simp

theorem pending_sent (commands : List SaveRequest) (q : SaveRequest) :
    pending (commands ++ [q]) = pending commands ++ q.secret.toList.map SecretUpdate.reference := by
  unfold pending
  rw [List.filterMap_append]
  cases hsecret : q.secret <;> simp [hsecret]

/-- **An edit is sent.** Its secret has a new reference, and its host
refers to that one or to what the copy refers to. -/
theorem Kept.sends (h : Kept first initial past record b) {w : Workspace}
    (hw : b.desktop.window = some w) (happly : applyEdit home w.startup edit = .ok c)
    (more : List SecretRef)
    (hnew : ∀ s ∈ edit.secret, s.reference ∈ more ∧ s.reference ∉ past ∧ s.reference ∉ initial)
    (hhost : ∀ host secret, edit = .host host secret → ∀ r ∈ host.auth.references,
      InOrder first initial record b.desktop r ∨ ∃ s ∈ secret, s.reference = r) :
    Kept first initial (past ++ more)
      (record ++ (edit.secret.toList.map .entered ++ [.brought edit.brings]))
      { b with desktop := { b.desktop with
          commands := b.desktop.commands ++ [⟨w.number, c, edit.secret⟩]
          window := some { w with saving := true, commandError := none } } } := by
  set record' := record ++ (edit.secret.toList.map .entered ++ [.brought edit.brings])
  set d' : Desktop := { b.desktop with
    commands := b.desktop.commands ++ [⟨w.number, c, edit.secret⟩]
    window := some { w with saving := true, commandError := none } }
  have hentered : entered record' = entered record ++ edit.secret.toList := entered_sent edit record
  have hbrought : broughtIn record' = broughtIn record ++ edit.brings := broughtIn_sent edit record
  have hpending : pending d'.commands =
      pending b.desktop.commands ++ edit.secret.toList.map SecretUpdate.reference :=
    pending_sent b.desktop.commands ⟨w.number, c, edit.secret⟩
  have hmono : ∀ r, InOrder first initial record b.desktop r →
      InOrder first initial record' d' r := by
    rintro r (hcame | ⟨hold, hsettled, hvalue⟩)
    · left
      rw [hbrought]
      exact List.mem_append_left _ hcame
    · have hother : ∀ s ∈ edit.secret.toList, s.reference ≠ r := by
        rintro s hs rfl
        obtain ⟨-, hpast, hinitial⟩ := hnew s (Option.mem_toList.1 hs)
        rcases hold with hfirst | ⟨s', hs', heq⟩
        · exact hinitial hfirst
        · exact hpast (heq ▸ h.known s' hs')
      have hstill : r ∈ initial ∨ ∃ s ∈ entered record', s.reference = r := by
        refine hold.imp_right fun ⟨s, hs, heq⟩ => ⟨s, ?_, heq⟩
        rw [hentered]
        exact List.mem_append_left _ hs
      refine .inr ⟨hstill, ?_, ?_⟩
      · rw [hpending, List.mem_append, not_or]
        refine ⟨hsettled, fun hmem => ?_⟩
        obtain ⟨s, hs, heq⟩ := List.mem_map.1 hmem
        exact hother s hs heq
      · rw [hentered, valueOf_append hother]
        exact hvalue
  have hclean := h.clean.mono hmono
  refine ⟨⟨hclean.views, fun w' hw' => ?_, hclean.editor, fun q hq => ?_, hclean.replies⟩, ?_, ?_, ?_,
    ?_⟩
  · obtain rfl := Option.some.inj hw'
    exact hclean.copy w hw
  · rcases List.mem_append.1 hq with hbefore | hlast
    · exact hclean.commands q hbefore
    · obtain rfl := List.mem_singleton.1 hlast
      intro r hr
      rcases applyEdit_references happly hr with hcopy | hbrings | ⟨host, secret, rfl, hauth⟩
      · exact .inl (hclean.copy w hw r hcopy)
      · refine .inl (.inl ?_)
        rw [hbrought]
        exact List.mem_append_right _ hbrings
      · exact (hhost host secret rfl r hauth).imp_left (hmono r)
  · rw [hpending]
    refine List.nodup_append.2 ⟨h.apart, ?_, ?_⟩
    · cases edit.secret <;> simp
    · intro r hr r' hr' heq
      subst heq
      -- what is on its way was entered, so its reference was drawn before
      obtain ⟨s, hs, rfl⟩ := List.mem_map.1 hr'
      obtain ⟨q, hq, hsecret⟩ := List.mem_filterMap.1 hr
      obtain ⟨s', hs', hsame⟩ := Option.map_eq_some_iff.1 hsecret
      have hpast := h.known s' (h.sent q hq s' hs')
      rw [hsame] at hpast
      exact (hnew s (Option.mem_toList.1 hs)).2.1 hpast
  · intro q hq s hs
    rw [hentered]
    rcases List.mem_append.1 hq with hbefore | hlast
    · exact List.mem_append_left _ (h.sent q hbefore s hs)
    · obtain rfl := List.mem_singleton.1 hlast
      exact List.mem_append_right _ (Option.mem_toList.2 hs)
  · rw [hentered, List.map_append]
    refine List.nodup_append.2 ⟨h.once, ?_, ?_⟩
    · cases edit.secret <;> simp
    · intro r hr r' hr' heq
      subst heq
      obtain ⟨s', hs', hsame⟩ := List.mem_map.1 hr
      obtain ⟨s, hs, rfl⟩ := List.mem_map.1 hr'
      have hpast := h.known s' hs'
      rw [hsame] at hpast
      exact (hnew s (Option.mem_toList.1 hs)).2.1 hpast
  · intro s hs
    rw [hentered] at hs
    rcases List.mem_append.1 hs with hbefore | hlast
    · exact List.mem_append_left _ (h.known s hbefore)
    · exact List.mem_append_right _ (hnew s (Option.mem_toList.1 hlast)).1

/-! ## Saving -/

/-- The manager takes a save. -/
theorem saveNext_cases (home : Option PathBuf) (codec : Codec) (env : Env) (d : Desktop) :
    (d.saveNext home codec env).2 = d ∨ ∃ q rest manager replies, d.commands = q :: rest ∧
      (d.saveNext home codec env).2 = { d with commands := rest, manager, replies } ∧
      manager.stores.Others q.secret d.manager.stores.keyring ∧
      ((manager.configViews = d.manager.configViews ∧
          ∀ p ∈ replies, p.result = .ok () → p ∈ d.replies) ∨
        (manager.stores.Holds q.secret d.manager.stores.keyring ∧ manager.configViews = q.config ∧
          ∀ p ∈ replies, p ∈ d.replies ∨ p.config = q.config)) := by
  have hadds {replies : List SaveReply} {p : SaveReply} {window : ℕ} {config : DomainConfig}
      {error : String} (hp : p ∈ replies ++ [⟨window, config, .error error⟩])
      (hok : p.result = .ok ()) : p ∈ replies := by
    rcases List.mem_append.1 hp with hbefore | hlast
    · exact hbefore
    · obtain rfl := List.mem_singleton.1 hlast
      cases hok
  unfold Desktop.saveNext
  cases hcommands : d.commands with
  | nil => exact .inl rfl
  | cons q rest =>
      right
      dsimp only
      split
      · exact ⟨q, rest, d.manager, _, rfl, rfl, fun _ _ => rfl, .inl ⟨rfl, fun _ => hadds⟩⟩
      · have hkeyring := World.saveConfig_keyring home codec env d.directory q.config q.secret
          d.manager
        rcases hr : d.manager.saveConfig home codec env d.directory q.config q.secret with
          ⟨result, manager⟩
        rw [hr] at hkeyring
        obtain ⟨hothers, hsaved, hfailed⟩ := hkeyring
        cases result with
        | value u =>
            obtain ⟨hholds, hviews⟩ := hsaved rfl
            refine ⟨q, rest, manager, _, rfl, rfl, hothers, .inr ⟨hholds, hviews, fun p hp => ?_⟩⟩
            rcases List.mem_append.1 hp with hbefore | hlast
            · exact .inl hbefore
            · obtain rfl := List.mem_singleton.1 hlast
              exact .inr rfl
        | error error =>
            have hviews := hfailed fun heq => nomatch heq
            exact ⟨q, rest, manager, _, rfl, rfl, hothers, .inl ⟨hviews, fun _ => hadds⟩⟩
        | cut =>
            have hviews := hfailed fun heq => nomatch heq
            exact ⟨q, rest, manager, d.replies, rfl, rfl, hothers, .inl ⟨hviews, fun _ hp _ => hp⟩⟩

/-- **A save**, however it ends. -/
theorem Kept.saves (h : Kept first initial past record b) (home : Option PathBuf) (codec : Codec)
    (env : Env) :
    Kept first initial past record
      { b with desktop := (b.desktop.saveNext home codec env).2 } := by
  rcases saveNext_cases home codec env b.desktop with heq |
    ⟨q, rest, manager, replies, hcommands, heq, hothers, hend⟩
  · rw [heq]
    exact h
  · rw [heq]
    set d' : Desktop := { b.desktop with commands := rest, manager, replies }
    have hpending : pending b.desktop.commands =
        q.secret.toList.map SecretUpdate.reference ++ pending rest := by
      rw [hcommands, pending, List.filterMap_cons]
      cases hsecret : q.secret <;> simp [pending]
    have hsplit := h.apart
    rw [hpending, List.nodup_append] at hsplit
    obtain ⟨-, hrest, hapart⟩ := hsplit
    have hq : q ∈ b.desktop.commands := hcommands ▸ List.mem_cons_self
    have hmono : ∀ r, InOrder first initial record b.desktop r →
        InOrder first initial record d' r := by
      rintro r (hcame | ⟨hold, hsettled, hvalue⟩)
      · exact .inl hcame
      · rw [hpending, List.mem_append, not_or] at hsettled
        refine .inr ⟨hold, hsettled.2, ?_⟩
        rw [← hvalue]
        refine hothers r fun s hs heq => hsettled.1 ?_
        exact List.mem_map.2 ⟨s, Option.mem_toList.2 hs, heq⟩
    have hclean := h.clean.mono hmono
    have hlater : ∀ p ∈ rest, p ∈ b.desktop.commands := fun p hp =>
      hcommands ▸ List.mem_cons_of_mem _ hp
    -- what was saved refers to its secret, or to what was in order
    have hconfig : manager.stores.Holds q.secret b.desktop.manager.stores.keyring →
        ∀ r ∈ q.config.references, InOrder first initial record d' r := by
      intro hholds r hr
      rcases hclean.commands q hq r hr with hbefore | ⟨s, hs, rfl⟩
      · exact hbefore
      · have hsent := h.sent q hq s hs
        refine .inr ⟨.inr ⟨s, hsent, rfl⟩, fun hmem => ?_, ?_⟩
        · have hown : s.reference ∈ q.secret.toList.map SecretUpdate.reference :=
            List.mem_map_of_mem (Option.mem_toList.2 hs)
          exact hapart _ hown _ hmem rfl
        · rw [valueOf_mem h.once hsent]
          exact hholds.2 s hs
    refine ⟨?_, hrest, fun p hp => h.sent p (hlater p hp), h.once, h.known⟩
    rcases hend with ⟨hviews, hreplies⟩ | ⟨hholds, hviews, hreplies⟩
    · refine ⟨fun r hr => hclean.views r (hviews ▸ hr), hclean.copy, hclean.editor,
        fun p hp => hclean.commands p (hlater p hp), fun p hp hok => ?_⟩
      exact hclean.replies p (hreplies p hp hok) hok
    · refine ⟨fun r hr => hconfig hholds r (hviews ▸ hr), hclean.copy, hclean.editor,
        fun p hp => hclean.commands p (hlater p hp), fun p hp hok r hr => ?_⟩
      rcases hreplies p hp with hbefore | hsame
      · exact hclean.replies p hbefore hok r hr
      · exact hconfig hholds r (hsame ▸ hr)

/-! ## Along every run -/

/-- An edit that enters no secret. -/
theorem Kept.sendsPlain (h : Kept first initial past record b) (home : Option PathBuf)
    (unsent : Option String) (hsecret : edit.secret = none)
    (hhost : ∀ host secret, edit ≠ .host host secret) (more : List SecretRef) :
    Kept first initial (past ++ more) (record ++ (b.send home edit unsent).1)
      (b.send home edit unsent).2 := by
  rcases send_cases home edit unsent b with ⟨hnone, hquiet⟩ | ⟨w, c, hw, happly, heq⟩
  · rw [hnone, List.append_nil]
    exact h.quiet hquiet more
  · rw [heq]
    refine h.sends hw happly more (fun s hs => ?_) fun host secret hedit => ?_
    · rw [hsecret] at hs
      cases hs
    · exact absurd hedit (hhost host secret)

theorem collected_eq_ok {random : ℕ} {editor : Editor}
    (h : Bench.collected paths random editor = .ok edit) :
    (∃ e host secret, editor = .host e ∧ e.collect paths random = .ok (host, secret) ∧
      edit = .host host secret) ∨ ∃ tunnel, edit = .tunnel tunnel := by
  cases editor with
  | host e =>
      dsimp only [Bench.collected] at h
      cases hcollect : e.collect paths random with
      | error error =>
          rw [hcollect] at h
          cases h
      | ok pair =>
          rw [hcollect] at h
          exact .inl ⟨e, pair.1, pair.2, rfl, hcollect, (Except.ok.inj h).symm⟩
  | tunnel e =>
      dsimp only [Bench.collected] at h
      cases hcollect : e.collect with
      | error error =>
          rw [hcollect] at h
          cases h
      | ok tunnel =>
          rw [hcollect] at h
          exact .inr ⟨tunnel, (Except.ok.inj h).symm⟩

/-- The form is saved. -/
theorem Kept.saveEditor (h : Kept first initial past record b) (home : Option PathBuf)
    (paths : PathText) (random : ℕ) (unsent : Option String)
    (hnew : newSecretRef random ∉ past ∧ newSecretRef random ∉ initial) :
    Kept first initial (past ++ [newSecretRef random])
      (record ++ (b.saveEditor home paths random unsent).1)
      (b.saveEditor home paths random unsent).2 := by
  have hquiet {b' : Bench} (hq : Quiet b b') :
      Kept first initial (past ++ [newSecretRef random]) (record ++ []) b' := by
    rw [List.append_nil]
    exact h.quiet hq _
  unfold Bench.saveEditor
  split
  · rename_i w editor hw heditor
    split
    · exact hquiet (Quiet.same b)
    · split
      · exact hquiet (quiet_refuse _)
      · rename_i edit hedit
        rcases collected_eq_ok hedit with ⟨e, host, secret, rfl, hcollect, rfl⟩ | ⟨tunnel, rfl⟩
        · obtain ⟨known, hholds, hknown⟩ := h.clean.editor e heditor
          obtain ⟨port, auth, connect, keepalive, most, -, hauth, -, -, -, rfl⟩ :=
            HostEditor.collect_eq_ok.1 hcollect
          obtain ⟨hrefs, hsecret⟩ := hholds.collectAuth hauth
          rcases send_cases home (.host _ secret) unsent b with ⟨hnone, hq⟩ |
            ⟨w', c, hw', happly, heq⟩
          · rw [hnone]
            exact hquiet hq
          · rw [heq]
            refine h.sends hw' happly _ (fun s hs => ?_) fun host' secret' hsame r hr => ?_
            · rw [(hsecret s hs).1]
              exact ⟨List.mem_singleton_self _, hnew⟩
            · obtain ⟨rfl, rfl⟩ := Edit.host.inj hsame
              exact (hrefs r hr).imp_left (hknown r)
        · exact h.sendsPlain home unsent rfl (fun _ _ heq => by cases heq) _
  · exact hquiet (Quiet.same b)

/-- What happens outside the form. -/
theorem Kept.outside (h : Kept first initial past record b) (home : Option PathBuf) (codec : Codec)
    (input : Desktop.Input) :
    Kept first initial past (record ++ (b.outside home codec input).1)
      (b.outside home codec input).2 := by
  have hquiet {b' : Bench} (hq : Quiet b b') : Kept first initial past (record ++ []) b' := by
    have hkept := h.quiet hq []
    rwa [List.append_nil] at hkept ⊢
  have hplain {edit : Edit} (unsent : Option String) (hsecret : edit.secret = none)
      (hhost : ∀ host secret, edit ≠ .host host secret) :
      Kept first initial past (record ++ (b.send home edit unsent).1)
        (b.send home edit unsent).2 := by
    have hkept := h.sendsPlain home unsent hsecret hhost []
    rwa [List.append_nil] at hkept
  cases input with
  | edit edit unsent =>
      cases edit with
      | host entered secret => exact hquiet (Quiet.same b)
      | tunnel entered => exact hquiet (Quiet.same b)
      | _ => exact hplain unsent rfl fun _ _ heq => nomatch heq
  | «open» => exact hquiet (quiet_openWindow.orClosed _)
  | close => exact hquiet (quiet_closeWindow.orClosed _)
  | deliver => exact hquiet (quiet_deliverNext.orClosed _)
  | manage input => exact hquiet ((quiet_manage home codec input).orClosed _)
  | save env =>
      have hsaved := h.saves home codec env
      have hclosed (gone : Bool) := hsaved.quiet ((Quiet.same _).orClosed gone) []
      simp only [List.append_nil] at hclosed
      dsimp only [Bench.outside]
      rw [List.append_nil]
      exact hclosed _

/-- **One step** keeps the credentials in order, if what is drawn in it is
new. -/
theorem Kept.step (h : Kept first initial past record b) (home : Option PathBuf) (codec : Codec)
    (paths : PathText) (input : Bench.Input)
    (hnew : ∀ r ∈ drawn [input], r ∉ past ∧ r ∉ initial) :
    Kept first initial (past ++ drawn [input]) (record ++ (b.step home codec paths input).1)
      (b.step home codec paths input).2 := by
  have hquiet {b' : Bench} (hq : Quiet b b') :
      Kept first initial (past ++ drawn [input]) (record ++ []) b' := by
    rw [List.append_nil]
    exact h.quiet hq _
  cases input with
  | newHost =>
      refine hquiet (quiet_openEditor fun config e he => ?_)
      obtain rfl := Editor.host.inj (Option.some.inj he)
      exact HostEditor.holds_new _ fun host hhost => nomatch hhost
  | editHost id =>
      refine hquiet (quiet_openEditor fun config e he => ?_)
      obtain ⟨host, hfound, heq⟩ := Option.map_eq_some_iff.1 he
      obtain rfl := Editor.host.inj heq
      exact holds_of_mem id (List.mem_of_find?_eq_some hfound)
  | newTunnel => exact hquiet (quiet_openEditor fun config e he => nomatch he)
  | editTunnel id =>
      refine hquiet (quiet_openEditor fun config e he => ?_)
      obtain ⟨tunnel, -, heq⟩ := Option.map_eq_some_iff.1 he
      cases heq
  | host action =>
      dsimp only [Bench.step]
      split
      · rename_i editor heditor
        refine hquiet (Quiet.exchange fun F hF e he => ?_)
        obtain rfl := Editor.host.inj (Option.some.inj he)
        obtain ⟨known, hholds, hknown⟩ := hF.editor editor heditor
        exact ⟨known, hholds.act action, hknown⟩
      · exact hquiet (Quiet.same b)
  | tunnel action =>
      dsimp only [Bench.step]
      split
      · exact hquiet (Quiet.exchange fun F hF e he => nomatch he)
      · exact hquiet (Quiet.same b)
  | saveEditor random unsent =>
      exact h.saveEditor home paths random unsent (hnew _ (List.mem_singleton_self _))
  | cancel =>
      dsimp only [Bench.step]
      split
      · exact hquiet (Quiet.same b)
      · exact hquiet (quiet_refuse none).closed
  | selectPage => exact hquiet (Quiet.same b).closed
  | desktop input =>
      have hkept := h.outside home codec input
      rw [← List.append_nil past] at hkept
      exact hkept

/-- The application before a window is opened. -/
def Bench.start (w : World) (directory : PathBuf) : Bench := ⟨{ manager := w, directory }, none⟩

/-! ### What is entered -/

/-- The texts that are entered as a password or a passphrase. -/
def typedTexts (inputs : List Bench.Input) : List String :=
  inputs.filterMap fun
    | .host (.enter .password text) | .host (.enter .passphrase text) => some text
    | _ => none

/-- The form that is open shows no other secret than one of these. -/
def TypedIn (texts : List String) (b : Bench) : Prop :=
  ∀ e, b.editor = some (.host e) → e.TypedIn texts

/-- **The secret was typed in a form**, and this was saved with it. -/
def TypedAt (texts : List String) (x : Step Bench Bench.Input (List Bench.Event))
    (s : SecretUpdate) : Prop :=
  ∃ random unsent e, x.input = .saveEditor random unsent ∧ x.before.editor = some (.host e) ∧
    s = ⟨newSecretRef random, e.typed⟩ ∧ e.typed ≠ "" ∧ e.typed ∈ texts

variable {texts : List String}

theorem send_editor (home : Option PathBuf) (edit : Edit) (unsent : Option String) (b : Bench) :
    (b.send home edit unsent).2.editor = b.editor := by
  unfold Bench.send
  split
  · rfl
  · rfl

theorem entered_of_send {s : SecretUpdate} {unsent : Option String}
    (h : .entered s ∈ (b.send home edit unsent).1) : s ∈ edit.secret := by
  unfold Bench.send at h
  split at h
  · cases h
  · rcases List.mem_append.1 h with hsecret | hbrought
    · obtain ⟨s', hs', heq⟩ := List.mem_map.1 hsecret
      obtain rfl := Bench.Event.entered.inj heq
      exact Option.mem_toList.1 hs'
    · cases List.mem_singleton.1 hbrought

/-- What happens outside the form enters no secret, and opens no form. -/
theorem outside_typed (h : TypedIn texts b) (home : Option PathBuf) (codec : Codec)
    (input : Desktop.Input) :
    TypedIn texts (b.outside home codec input).2 ∧
      ∀ s, .entered s ∉ (b.outside home codec input).1 := by
  have hclosed (gone : Bool) (desktop : Desktop) :
      TypedIn texts ⟨desktop, if gone then none else b.editor⟩ := by
    intro e he
    cases gone with
    | true => cases he
    | false => exact h e he
  have hsend (edit : Edit) (unsent : Option String) (hsecret : edit.secret = none) :
      TypedIn texts (b.send home edit unsent).2 ∧
        ∀ s, .entered s ∉ (b.send home edit unsent).1 := by
    refine ⟨fun e he => h e ((send_editor home edit unsent b).symm.trans he), fun s hs => ?_⟩
    have hmem := entered_of_send hs
    rw [hsecret] at hmem
    cases hmem
  have hnone : ∀ s, Bench.Event.entered s ∉ ([] : List Bench.Event) := fun _ => List.not_mem_nil
  cases input with
  | edit edit unsent =>
      cases edit with
      | host entered secret => exact ⟨h, hnone⟩
      | tunnel entered => exact ⟨h, hnone⟩
      | _ => exact hsend _ unsent rfl
  | _ => exact ⟨hclosed _ _, hnone⟩

theorem saveEditor_typed (h : TypedIn texts b) (home : Option PathBuf) (paths : PathText)
    (random : ℕ) (unsent : Option String) :
    TypedIn texts (b.saveEditor home paths random unsent).2 ∧
      ∀ s, .entered s ∈ (b.saveEditor home paths random unsent).1 →
        ∃ e, b.editor = some (.host e) ∧ s = ⟨newSecretRef random, e.typed⟩ ∧ e.typed ≠ "" ∧
          e.typed ∈ texts := by
  have hnone : ∀ s, Bench.Event.entered s ∉ ([] : List Bench.Event) := fun _ => List.not_mem_nil
  unfold Bench.saveEditor
  split
  · rename_i w editor hw heditor
    split
    · exact ⟨h, fun s hs => absurd hs (hnone s)⟩
    · split
      · exact ⟨h, fun s hs => absurd hs (hnone s)⟩
      · rename_i edit hedit
        refine ⟨fun e he => h e ((send_editor home edit unsent b).symm.trans he), fun s hs => ?_⟩
        have hsecret := entered_of_send hs
        rcases collected_eq_ok hedit with ⟨e, host, secret, rfl, hcollect, rfl⟩ | ⟨tunnel, rfl⟩
        · obtain ⟨port, auth, connect, keepalive, most, -, hauth, -⟩ :=
            HostEditor.collect_eq_ok.1 hcollect
          obtain ⟨hs', hne⟩ := HostEditor.secret_of_collectAuth hauth s hsecret
          exact ⟨e, heditor, hs', hne, (h e heditor).typed hne⟩
        · cases hsecret
  · exact ⟨h, fun s hs => absurd hs (hnone s)⟩

/-- **One step** shows no secret that was not typed, and enters the one
that stands in the form. -/
theorem step_typed (h : TypedIn texts b) (home : Option PathBuf) (codec : Codec)
    (paths : PathText) (input : Bench.Input) (hinput : ∀ text ∈ typedTexts [input], text ∈ texts) :
    TypedIn texts (b.step home codec paths input).2 ∧
      ∀ s, .entered s ∈ (b.step home codec paths input).1 →
        TypedAt texts ⟨b, input, (b.step home codec paths input).1,
          (b.step home codec paths input).2⟩ s := by
  have hopens {editor : DomainConfig → Option Editor}
      (hnew : ∀ config e, editor config = some (.host e) → e.TypedIn texts) :
      TypedIn texts (b.openEditor editor) := by
    intro e he
    unfold Bench.openEditor at he
    split at he
    · exact h e he
    · rename_i opened hopened
      obtain ⟨config, -, heditor⟩ := Option.bind_eq_some_iff.1 hopened
      obtain rfl := Option.some.inj he
      exact hnew config e heditor
  cases input with
  | newHost =>
      refine ⟨hopens fun config e he => ?_, fun s hs => nomatch hs⟩
      obtain rfl := Editor.host.inj (Option.some.inj he)
      exact HostEditor.typedIn_new texts _ none
  | editHost id =>
      refine ⟨hopens fun config e he => ?_, fun s hs => nomatch hs⟩
      obtain ⟨host, -, heq⟩ := Option.map_eq_some_iff.1 he
      obtain rfl := Editor.host.inj heq
      exact HostEditor.typedIn_new texts id (some host)
  | newTunnel => exact ⟨hopens fun config e he => (nomatch he), fun s hs => nomatch hs⟩
  | editTunnel id =>
      refine ⟨hopens fun config e he => ?_, fun s hs => nomatch hs⟩
      obtain ⟨tunnel, -, heq⟩ := Option.map_eq_some_iff.1 he
      cases heq
  | host action =>
      dsimp only [Bench.step]
      split
      · rename_i editor heditor
        refine ⟨fun e he => ?_, fun s hs => nomatch hs⟩
        obtain rfl := Editor.host.inj (Option.some.inj he)
        refine (h editor heditor).act action (fun text heq => hinput text ?_) fun text heq =>
          hinput text ?_
        · rw [heq]
          exact List.mem_singleton_self _
        · rw [heq]
          exact List.mem_singleton_self _
      · exact ⟨h, fun s hs => nomatch hs⟩
  | tunnel action =>
      dsimp only [Bench.step]
      split
      · exact ⟨fun e he => (nomatch he), fun s hs => nomatch hs⟩
      · exact ⟨h, fun s hs => nomatch hs⟩
  | saveEditor random unsent =>
      obtain ⟨hkept, hentered⟩ := saveEditor_typed h home paths random unsent
      refine ⟨hkept, fun s hs => ?_⟩
      obtain ⟨e, he, hs', hne, htext⟩ := hentered s hs
      exact ⟨random, unsent, e, rfl, he, hs', hne, htext⟩
  | cancel =>
      dsimp only [Bench.step]
      split
      · exact ⟨h, fun s hs => nomatch hs⟩
      · exact ⟨fun e he => (nomatch he), fun s hs => nomatch hs⟩
  | selectPage => exact ⟨fun e he => (nomatch he), fun s hs => nomatch hs⟩
  | desktop input =>
      obtain ⟨hkept, hnone⟩ := outside_typed h home codec input
      exact ⟨hkept, fun s hs => absurd hs (hnone s)⟩

/-- The secrets of a run were typed in it. -/
theorem entered_typed (home : Option PathBuf) (codec : Codec) (paths : PathText) (b : Bench)
    (hnone : b.editor = none) (inputs : List Bench.Input) :
    ∀ s ∈ entered (answers (Bench.step home codec paths) b inputs),
      ∃ x ∈ trace (Bench.step home codec paths) b inputs,
        .entered s ∈ x.output ∧ TypedAt (typedTexts inputs) x s := by
  have hstart : TypedIn (typedTexts inputs) b := fun e he => by
    rw [hnone] at he
    cases he
  have hstep : ∀ b input, input ∈ inputs → TypedIn (typedTexts inputs) b →
      TypedIn (typedTexts inputs) (Bench.step home codec paths b input).2 ∧
        ∀ s, .entered s ∈ (Bench.step home codec paths b input).1 →
          TypedAt (typedTexts inputs) ⟨b, input, (Bench.step home codec paths b input).1,
            (Bench.step home codec paths b input).2⟩ s := by
    intro b input hmem h
    refine step_typed h home codec paths input fun text htext => ?_
    obtain ⟨input', hinput', heq⟩ := List.mem_filterMap.1 htext
    obtain rfl := List.mem_singleton.1 hinput'
    exact List.mem_filterMap.2 ⟨input', hmem, heq⟩
  have htyped : ∀ x ∈ trace (Bench.step home codec paths) b inputs,
      ∀ s, .entered s ∈ x.output → TypedAt (typedTexts inputs) x s :=
    trace_forall hstep hstart fun _ hmem => hmem
  intro s hs
  obtain ⟨event, hevent, heq⟩ := List.mem_filterMap.1 hs
  obtain ⟨x, hx, hout⟩ := List.mem_flatMap.1 hevent
  cases event with
  | brought references => cases heq
  | entered s' =>
      obtain rfl := Option.some.inj heq
      exact ⟨x, hx, hout, htyped x hx s' hout⟩

/-- **The credentials of a run.** A reference in the published
configuration came with an import; or it was there at first and leads the
keyring to what it led to then; or it came with a secret, and leads to
this. Each secret was typed in a form of the run and has the reference
that was drawn when that was saved. The placeholder for a password that
is yet to be entered is only there if it was, or came with an import. -/
structure Bench.CredentialsKept (home : Option PathBuf) (codec : Codec) (paths : PathText)
    (w : World) (directory : PathBuf) (inputs : List Bench.Input) : Prop where
  leads :
    let step := Bench.step home codec paths
    let manager := (runState step (Bench.start w directory) inputs).desktop.manager
    let record := answers step (Bench.start w directory) inputs
    ∀ r ∈ manager.configViews.references, r ∈ broughtIn record ∨
      (r ∈ w.configViews.references ∧
        manager.stores.keyring.lookup r = w.stores.keyring.lookup r) ∨
      ∃ s ∈ entered record, s.reference = r ∧ manager.stores.keyring.lookup r = some s.value
  typed :
    let run := trace (Bench.step home codec paths) (Bench.start w directory) inputs
    ∀ s ∈ entered (answers (Bench.step home codec paths) (Bench.start w directory) inputs),
      ∃ x ∈ run, .entered s ∈ x.output ∧ TypedAt (typedTexts inputs) x s
  placeholder :
    let step := Bench.step home codec paths
    let manager := (runState step (Bench.start w directory) inputs).desktop.manager
    let record := answers step (Bench.start w directory) inputs
    ⟨"pending"⟩ ∈ manager.configViews.references →
      ⟨"pending"⟩ ∈ broughtIn record ∨ ⟨"pending"⟩ ∈ w.configViews.references

/-- **The credentials of the hosts are what was entered**, along every run
from any manager on, whatever is typed, chosen, imported, closed and opened
again, and wherever saves fail, as long as the references that are drawn
are new ones. -/
theorem credentials_kept (home : Option PathBuf) (codec : Codec) (paths : PathText) (w : World)
    (directory : PathBuf) (inputs : List Bench.Input) (honce : (drawn inputs).Nodup)
    (hnew : ∀ r ∈ drawn inputs, r ∉ w.configViews.references) :
    Bench.CredentialsKept home codec paths w directory inputs := by
  let step := Bench.step home codec paths
  let b := runState step (Bench.start w directory) inputs
  let record := answers step (Bench.start w directory) inputs
  have hkept : Kept w.stores.keyring w.configViews.references (drawn inputs) record b := by
    induction inputs using List.reverseRecOn with
    | nil =>
        have hclean : Clean (InOrder w.stores.keyring w.configViews.references []
            (Bench.start w directory).desktop) (Bench.start w directory) := by
          refine ⟨fun r hr => .inr ⟨.inl hr, List.not_mem_nil, rfl⟩, ?_, ?_, ?_, ?_⟩
          · intro w' hw'
            cases hw'
          · intro e he
            cases he
          · exact fun q hq => (List.not_mem_nil hq).elim
          · exact fun q hq => (List.not_mem_nil hq).elim
        exact ⟨hclean, List.nodup_nil, fun _ hq => (List.not_mem_nil hq).elim, List.nodup_nil,
          fun _ hs => (List.not_mem_nil hs).elim⟩
    | append_singleton inputs input ih =>
        have hsplit : drawn (inputs ++ [input]) = drawn inputs ++ drawn [input] :=
          List.filterMap_append
        rw [hsplit] at honce hnew ⊢
        obtain ⟨hbefore, -, hapart⟩ := List.nodup_append.1 honce
        have hstep := (ih hbefore fun r hr => hnew r (List.mem_append_left _ hr)).step home codec
          paths input fun r hr => ⟨fun hpast => hapart r hpast r hr rfl,
            hnew r (List.mem_append_right _ hr)⟩
        rw [← runState_concat, ← answers_concat] at hstep
        exact hstep
  have hleads : ∀ r ∈ b.desktop.manager.configViews.references, r ∈ broughtIn record ∨
      (r ∈ w.configViews.references ∧
        b.desktop.manager.stores.keyring.lookup r = w.stores.keyring.lookup r) ∨
      ∃ s ∈ entered record, s.reference = r ∧
        b.desktop.manager.stores.keyring.lookup r = some s.value := by
    intro r hr
    refine (hkept.clean.views r hr).imp_right fun ⟨hold, _, hlookup⟩ => ?_
    rcases hold with hfirst | ⟨s, hs, rfl⟩
    · -- it was not drawn, so nothing was entered with it
      have hnone : valueOf (entered record) r = none := by
        unfold valueOf
        rw [Option.map_eq_none_iff, List.find?_eq_none]
        intro s hs heq
        exact hnew s.reference (hkept.known s hs) (of_decide_eq_true heq ▸ hfirst)
      rw [hnone, Option.none_or] at hlookup
      exact .inl ⟨hfirst, hlookup⟩
    · rw [valueOf_mem hkept.once hs, Option.some_or] at hlookup
      exact .inr ⟨s, hs, rfl, hlookup⟩
  have htyped := entered_typed home codec paths (Bench.start w directory) rfl inputs
  refine ⟨hleads, htyped, fun hpending => ?_⟩
  rcases hleads _ hpending with hbrought | ⟨hfirst, -⟩ | ⟨s, hs, hreference, -⟩
  · exact .inl hbrought
  · exact .inr hfirst
  · obtain ⟨x, -, -, random, unsent, e, -, -, rfl, -⟩ := htyped s hs
    exact absurd (congrArg SecretRef.val hreference) (HostEditor.newSecretRef_ne_pending random)

/-! ### A host that is entered -/

/-- The manager of an empty configuration. -/
def emptyWorld : World where
  hosts := []
  groups := []
  tunnels := ∅
  current := ∅
  snapshots := ∅
  configViews := {}

/-- A host with a password is entered, saved and stored. -/
def typedHost : List Bench.Input :=
  [.desktop .open, .newHost, .host (.enter .name "Lab "), .host (.enter .hostname "lab.test"),
    .host (.enter .username "operator"), .host (.auth .password),
    .host (.enter .password "correct horse"), .saveEditor 7 none, .desktop (.save calm),
    .desktop .deliver]

def typedDocument : ConfigDocument where
  hosts := [{
    id := "host-1", name := "Lab", hostname := "lab.test", port := 22, username := "operator",
    authType := .password, credentialRef := some "credential-00000000000000000000000000000007",
    identityFile := none, passphraseRef := none, agentSocket := none, hostKeyPolicy := .strict,
    connectTimeoutMs := 8000, keepaliveIntervalMs := 10000, keepaliveMax := 3, notes := "" }]

def typedText : String :=
  "schema_version = 1\ngroups = []\ntunnels = []\n\n[app]\ntheme = \"system\"\n" ++
  "run_at_startup = false\nminimize_to_tray = true\ntraffic_monitor = false\n\n[[hosts]]\n" ++
  "id = \"host-1\"\nname = \"Lab\"\nhostname = \"lab.test\"\nport = 22\n" ++
  "username = \"operator\"\nauth_type = \"password\"\n" ++
  "credential_ref = \"credential-00000000000000000000000000000007\"\n" ++
  "host_key_policy = \"strict\"\nconnect_timeout_ms = 8000\nkeepalive_interval_ms = 10000\n" ++
  "keepalive_max = 3\nnotes = \"\"\n"

def typedCodec : Codec := .only typedDocument typedText

/-- The host refers to the secret that was drawn for it. -/
theorem credentials_kept_typed :
    (runState (Bench.step none typedCodec PathText.names) (Bench.start emptyWorld appDirectory)
        typedHost).desktop.manager.configViews.references = [newSecretRef 7] ∧
      Bench.CredentialsKept none typedCodec PathText.names emptyWorld appDirectory typedHost := by
  refine ⟨by decide +kernel, ?_⟩
  exact credentials_kept none typedCodec PathText.names emptyWorld appDirectory typedHost
    (by decide +kernel) (by decide +kernel)

example : (runState (Bench.step none typedCodec PathText.names)
    (Bench.start emptyWorld appDirectory) typedHost).desktop.manager.stores.keyring.lookup
      (newSecretRef 7) = some "correct horse" := by
  decide +kernel

end App

end TunnelWarden
