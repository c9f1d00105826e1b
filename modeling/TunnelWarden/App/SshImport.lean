import TunnelWarden.App.Model.Workspace
import TunnelWarden.Store.Checked

/-!
# The import of hosts only adds

`confirm_ssh_import` walks through the marked entries of the preview and
adds a host for each. A host whose id or name is taken, by a host that
was there or by one added before it, gets the first suffix that makes
both free. What is sent is checked as a whole first.
-/

namespace TunnelWarden

namespace App

variable {home : Option PathBuf} {current config : DomainConfig}
variable {earlier hosts hosts' : List SshHost} {host : SshHost} {entries : List SshEntry}

/-- The check before a configuration is sent. -/
theorem checked_eq_ok_iff : checked home current = .ok config ↔
    config = current ∧ current.Accepted home := by
  unfold checked DomainConfig.Accepted
  constructor
  · intro h
    split at h
    · simp at h
    · rename_i c' hbind
      obtain ⟨doc, hdoc, hload⟩ := bind_eq_ok.1 hbind
      exact ⟨(Except.ok.inj h).symm, doc, c', hdoc, hload⟩
  · rintro ⟨rfl, doc, c', hdoc, hload⟩
    have hbind : (ConfigDocument.tryFrom config).bind (ConfigDocument.intoDomain home) = .ok c' :=
      bind_eq_ok.2 ⟨doc, hdoc, hload⟩
    rw [hbind]

/-! ## One host -/

/-- A host before it has the id or, but for the case, the name. -/
def Conflicts (earlier : List SshHost) (host : SshHost) : Prop :=
  ∃ existing ∈ earlier, existing.id = host.id ∨ eqIgnoreAsciiCase existing.name host.name = true

/-- The host under the id and the name with a suffix. -/
def renamed (host : SshHost) (suffix : ℕ) : SshHost :=
  { host with
    id := ⟨host.id.val ++ "-" ++ digits 10 suffix⟩
    name := host.name ++ " (" ++ digits 10 suffix ++ ")" }

/-- **A host that is added** for the entry that offers it. It is the one
offered, with another id and name where there is a conflict, and has no
conflict with the hosts before it. -/
structure AddedHost (earlier : List SshHost) (offered host : SshHost) : Prop where
  kept : ¬ Conflicts earlier offered → host = offered
  renamed : Conflicts earlier offered → ∃ suffix, 2 ≤ suffix ∧ suffix ≤ 1024 ∧
    host = renamed offered suffix
  fresh : ¬ Conflicts earlier host

/-- **The hosts that are added**, one for each that is offered, in
order. -/
inductive AddedHosts : List SshHost → List SshHost → List SshHost → Prop
  | nil {earlier : List SshHost} : AddedHosts earlier [] []
  | cons {earlier offers added : List SshHost} {offer host : SshHost} :
      AddedHost earlier offer host → AddedHosts (earlier ++ [host]) offers added →
      AddedHosts earlier (offer :: offers) (host :: added)

/-- The test of the loop. -/
theorem any_eq_conflicts : hosts.any (fun existing =>
      existing.id = host.id || eqIgnoreAsciiCase existing.name host.name) = true ↔
    Conflicts hosts host := by
  simp [Conflicts, List.any_eq_true]

/-- **A free name** has no conflict. -/
theorem freeName_eq_some {id : HostId} {name : String} {suffix fuel : ℕ}
    (h : freeName hosts host suffix fuel = some (id, name)) :
    ∃ k, suffix ≤ k ∧ k < suffix + fuel ∧ { host with id, name } = renamed host k ∧
      ¬ Conflicts hosts (renamed host k) := by
  induction fuel generalizing suffix with
  | zero => simp [freeName] at h
  | succ fuel ih =>
      unfold freeName at h
      dsimp only at h
      split at h
      · rename_i hfree
        obtain ⟨rfl, rfl⟩ := Prod.mk.inj (Option.some.inj h)
        refine ⟨suffix, le_rfl, by omega, rfl, ?_⟩
        rintro ⟨existing, hmem, hconflict⟩
        have hclear := List.all_eq_true.1 hfree existing hmem
        simp only [Bool.and_eq_true, Bool.not_eq_true', decide_eq_true_eq] at hclear
        rcases hconflict with hid | hname
        · exact hclear.1 hid
        · rw [renamed, hclear.2] at hname
          cases hname
      · obtain ⟨k, hlo, hhi, heq, hfresh⟩ := ih h
        exact ⟨k, by omega, by omega, heq, hfresh⟩

/-! ## The loop -/

/-- The hosts of the entries that are marked. -/
def markedHosts (entries : List SshEntry) : List SshHost :=
  (entries.filter SshEntry.selected).map SshEntry.host

theorem markedHosts_of_not_selected {entry : SshEntry} (h : entry.selected = false) :
    markedHosts (entry :: entries) = markedHosts entries := by
  simp [markedHosts, h]

theorem markedHosts_of_selected {entry : SshEntry} (h : entry.selected = true) :
    markedHosts (entry :: entries) = entry.host :: markedHosts entries := by
  simp [markedHosts, h]

/-- **The loop adds a host for each marked entry.** -/
theorem addEntries_eq_ok (h : addEntries entries hosts = .ok hosts') :
    ∃ added, hosts' = hosts ++ added ∧ AddedHosts hosts (markedHosts entries) added := by
  induction entries generalizing hosts with
  | nil => exact ⟨[], by rw [List.append_nil]; exact (Except.ok.inj h).symm, .nil⟩
  | cons entry rest ih =>
      have hadd {new : SshHost} (hsel : entry.selected = true)
          (hnew : AddedHost hosts entry.host new)
          (hrest : addEntries rest (hosts ++ [new]) = .ok hosts') :
          ∃ added, hosts' = hosts ++ added ∧
            AddedHosts hosts (markedHosts (entry :: rest)) added := by
        obtain ⟨added, hhosts, hadded⟩ := ih hrest
        refine ⟨new :: added, ?_, ?_⟩
        · rw [hhosts, List.append_assoc, List.singleton_append]
        · rw [markedHosts_of_selected hsel]
          exact .cons hnew hadded
      unfold addEntries at h
      split at h
      · rename_i hsel
        rw [markedHosts_of_not_selected (by simpa using hsel)]
        exact ih h
      · rename_i hsel
        have hsel : entry.selected = true := by simpa using hsel
        split at h
        · simp at h
        · split at h
          · rename_i htaken
            have hconflict : Conflicts hosts entry.host := any_eq_conflicts.1 htaken
            split at h
            · simp at h
            · rename_i id name hfree
              obtain ⟨k, hlo, hhi, heq, hfresh⟩ := freeName_eq_some hfree
              rw [heq] at h
              exact hadd hsel ⟨fun hno => absurd hconflict hno, fun _ => ⟨k, hlo, by omega, rfl⟩,
                hfresh⟩ h
          · rename_i hfree
            have hno : ¬ Conflicts hosts entry.host := fun hc => hfree (any_eq_conflicts.2 hc)
            exact hadd hsel ⟨fun _ => rfl, fun hc => absurd hc hno, hno⟩ h

/-! ## The import -/

/-- **An import only adds**: to the hosts that were there, one for each
that is offered. -/
structure OnlyAdds (home : Option PathBuf) (current : DomainConfig) (offers : List SshHost)
    (config : DomainConfig) : Prop where
  accepted : config.Accepted home
  hosts : ∃ added, config.hosts = current.hosts ++ added ∧ AddedHosts current.hosts offers added
  distinct : (config.hosts.map SshHost.id).Nodup
  app : config.app = current.app
  groups : config.groups = current.groups
  tunnels : config.tunnels = current.tunnels

/-- What is sent passed the check. -/
theorem onlyAdds_of_applyEdit (h : applyEdit home current (.importSsh entries) = .ok config) :
    OnlyAdds home current (markedHosts entries) config := by
  obtain ⟨hosts, hadd, hcheck⟩ := bind_eq_ok.1 h
  obtain ⟨added, hhosts, hadded⟩ := addEntries_eq_ok hadd
  obtain ⟨rfl, haccepted⟩ := checked_eq_ok_iff.1 hcheck
  exact ⟨haccepted, ⟨added, hhosts, hadded⟩, haccepted.nodup_hosts, rfl, rfl, rfl⟩

/-- Nothing is sent, and the window keeps its copy. -/
structure Untouched (d d' : Desktop) : Prop where
  manager : d'.manager = d.manager
  commands : d'.commands = d.commands
  startup : d'.window.map Workspace.startup = d.window.map Workspace.startup

/-- What a confirmed import sends. -/
structure SendsImport (home : Option PathBuf) (offers : List SshHost) (d : Desktop)
    (event : Desktop.Event) (d' : Desktop) (w : Workspace) (config : DomainConfig) : Prop where
  window : d.window = some w
  event : event = .sent w.number w.startup config
  commands : d'.commands = d.commands ++ [⟨w.number, config, none⟩]
  adds : OnlyAdds home w.startup offers config

/-- **An edit is sent or leaves everything as it was.** -/
theorem editConfig_cases (home : Option PathBuf) (edit : Edit) (unsent : Option String)
    (d : Desktop) :
    ((d.editConfig home edit unsent).1 = none ∧ Untouched d (d.editConfig home edit unsent).2) ∨
      ∃ w config, d.window = some w ∧ applyEdit home w.startup edit = .ok config ∧
        (d.editConfig home edit unsent).1 = some (.sent w.number w.startup config) ∧
        (d.editConfig home edit unsent).2.commands =
          d.commands ++ [⟨w.number, config, edit.secret⟩] := by
  unfold Desktop.editConfig
  cases hwindow : d.window with
  | none => exact .inl ⟨rfl, rfl, rfl, by rw [hwindow]⟩
  | some w =>
      dsimp only
      split
      · exact .inl ⟨rfl, rfl, rfl, by rw [hwindow]⟩
      · split
        · exact .inl ⟨rfl, rfl, rfl, by rw [hwindow]; rfl⟩
        · rename_i config hedit
          cases unsent with
          | some error => exact .inl ⟨rfl, rfl, rfl, by rw [hwindow]; rfl⟩
          | none => exact .inr ⟨w, config, rfl, hedit, rfl, rfl⟩

/-- **The import of hosts only adds**, whatever the preview and the
marks. -/
theorem confirmSshImport_cases (home : Option PathBuf) (preview : Import.SshImportPreview)
    (selected : List Bool) (unsent : Option String) (d : Desktop) :
    ((d.confirmSshImport home preview selected unsent).1 = none ∧
        Untouched d (d.confirmSshImport home preview selected unsent).2) ∨
      ∃ event w config, (d.confirmSshImport home preview selected unsent).1 = some event ∧
        SendsImport home (markedHosts (offered preview selected)) d event
          (d.confirmSshImport home preview selected unsent).2 w config := by
  rcases editConfig_cases home (.importSsh (offered preview selected)) unsent d with
    h | ⟨w, config, hwindow, hedit, hevent, hcommands⟩
  · exact .inl h
  · exact .inr ⟨_, w, config, hevent, hwindow, rfl, hcommands, onlyAdds_of_applyEdit hedit⟩

end App

end TunnelWarden
