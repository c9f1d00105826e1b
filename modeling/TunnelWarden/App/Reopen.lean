import TunnelWarden.App.Edits
import TunnelWarden.Manager.Stored
import TunnelWarden.Store.Accepted

/-!
# The configuration a window is reopened with

A window that is opened from the tray begins with what the manager
publishes, and its saves write the whole of it. `new` publishes the
tunnels in the order of its map (`new_configViews`), so it publishes the
configuration that was loaded where that has one order only
(`published_eq_loaded_iff`).
-/

namespace TunnelWarden

namespace App

open Manager ConfigStore

variable {home : Option PathBuf} {codec : Codec} {directory : PathBuf} {config : DomainConfig}

/-! ## What is loaded -/

/-- **Loading** makes an accepted document a configuration. -/
theorem load_triple (home : Option PathBuf) (codec : Codec) (directory : PathBuf)
    (fenv : Verdicts FileOp IoError) :
    Prog.Triple fenv (fun _ => True) (load home codec directory)
      (fun c _ => ∃ doc : ConfigDocument, doc.Accepted home c) (fun _ => True)
      fun _ => True := by
  have hconvert (doc : ConfigDocument) : Prog.Triple fenv (fun _ : Disk => True)
      (Prog.liftExcept ((doc.intoDomain home).mapError ConfigStoreError.validation))
      (fun c _ => ∃ doc : ConfigDocument, doc.Accepted home c) (fun _ => True)
      fun _ => True :=
    Prog.Triple.liftExcept
      (fun c _ hc _ => ⟨doc, ConfigDocument.intoDomain_eq_ok.1 (mapError_eq_ok.1 hc)⟩)
      fun _ _ => trivial
  unfold load
  refine (Prog.Triple.const True).bind fun r => ?_
  cases r with
  | ok u =>
      refine (Prog.Triple.const True).bind fun bytes => ?_
      split
      · exact Prog.Triple.throw fun _ _ => trivial
      · exact (Prog.Triple.const True).bind hconvert
  | error source =>
      dsimp only
      split
      · exact hconvert {}
      · exact Prog.Triple.throw fun _ _ => trivial

theorem accepted_of_load {fenv : Verdicts FileOp IoError} {s : ℕ × Disk}
    (h : (load home codec directory fenv s).1 = .value config) :
    ∃ doc : ConfigDocument, doc.Accepted home config := by
  have hs := load_triple home codec directory fenv s.1 s.2 trivial
  rw [Prod.mk.eta, h] at hs
  exact hs

/-- The tunnels of a configuration that was loaded: not more than the
manager takes, and each with its own id. -/
theorem tunnels_of_accepted {doc : ConfigDocument} (h : doc.Accepted home config) :
    config.tunnels.length ≤ Manager.maxTunnels ∧ (config.tunnels.map TunnelConfig.id).Nodup := by
  have hlen : doc.tunnels.length = config.tunnels.length := h.tunnels.length_eq
  exact ⟨hlen ▸ h.tunnelCount, h.nodup_tunnels⟩

/-! ## What is published -/

/-- The map `new` builds has the tunnels in the reverse of their
order. -/
theorem define_values (configs : List TunnelConfig)
    (acc : Map TunnelId TunnelConfig × ManagerSnapshot × List TunnelId)
    (hnodup : (configs.map TunnelConfig.id).Nodup)
    (hnew : ∀ tunnel ∈ configs, tunnel.id ∉ acc.1) :
    ∃ acc', define configs acc = .ok acc' ∧
      acc'.1.values = configs.reverse ++ acc.1.values := by
  induction configs generalizing acc with
  | nil => exact ⟨acc, rfl, rfl⟩
  | cons tunnel rest ih =>
      obtain ⟨definitions, current, autoStart⟩ := acc
      have hfresh : tunnel.id ∉ definitions := hnew tunnel (by simp)
      rw [List.map_cons, List.nodup_cons] at hnodup
      obtain ⟨acc', hacc', hvalues⟩ := ih (definitions.insert tunnel.id tunnel,
        current.insert tunnel.id ⟨.stopped, none⟩,
        if tunnel.autoStart then autoStart ++ [tunnel.id] else autoStart) hnodup.2 fun t ht => by
          rw [AList.mem_insert, not_or]
          refine ⟨fun heq => hnodup.1 ?_, hnew t (by simp [ht])⟩
          exact heq ▸ List.mem_map_of_mem ht
      refine ⟨acc', by rw [define, if_neg hfresh]; exact hacc', ?_⟩
      rw [hvalues, Map.values, AList.entries_insert_of_notMem hfresh, List.map_cons,
        List.reverse_cons, List.append_assoc]
      rfl

/-- **What `new` publishes**: the configuration, with its tunnels in the
order of the map. -/
theorem new_configViews (hlen : config.tunnels.length ≤ Manager.maxTunnels)
    (hnodup : (config.tunnels.map TunnelConfig.id).Nodup) (order : ℕ) :
    ∃ w, new order config.hosts config.groups config.tunnels = .ok w ∧
      (w.withAppSettings config.app).configViews =
        { config with tunnels := arrange order config.tunnels.reverse } := by
  obtain ⟨⟨definitions, current, autoStart⟩, hdefine, hvalues⟩ :=
    define_values config.tunnels (∅, ∅, []) hnodup fun _ _ => AList.notMem_empty _
  have hvalues : definitions.values = config.tunnels.reverse := by
    rw [hvalues]
    exact List.append_nil _
  refine ⟨_, by rw [new, if_neg (Nat.not_lt.2 hlen), hdefine], ?_⟩
  dsimp only [World.withAppSettings]
  rw [hvalues]

/-! ## Saving an edit of one item -/

/-- The items with other keys are where they were. -/
def ItemsKept {α κ : Type} (key : α → κ) (k : κ) (items items' : List α) : Prop :=
  ∀ (i : ℕ) x, items[i]? = some x → key x ≠ k → items'[i]? = some x

/-- An edit of one item leaves every other one as it is. The other edits
are of several items. -/
def OthersKept (config c : DomainConfig) : Edit → Prop
  | .host entered _ => ItemsKept SshHost.id entered.id config.hosts c.hosts ∧
      c = { config with hosts := c.hosts }
  | .tunnel entered => ItemsKept TunnelConfig.id entered.id config.tunnels c.tunnels ∧
      c = { config with tunnels := c.tunnels }
  | .group id _ => ItemsKept TunnelGroup.id id config.groups c.groups ∧
      c = { config with groups := c.groups }
  | .runAtLogin => c = { config with app := c.app }
  | .closeMode => c = { config with app := c.app }
  | .deleteGroup _ => True
  | .moveGroup _ _ => True
  | .importConfig _ => True
  | .importSsh _ => True

section Items

variable {α κ : Type} {key : α → κ} {items items' : List α} {k : κ}

theorem itemsKept_append (item : α) : ItemsKept key k items (items ++ [item]) := by
  intro i x hx _
  rw [List.getElem?_append_left (List.getElem?_eq_some_iff.1 hx).1, hx]

variable [DecidableEq κ]

/-- The item that is found under a key may be changed. -/
theorem itemsKept_of_index {index : ℕ}
    (hfound : items.findIdx? (fun old => key old = k) = some index)
    (hother : ∀ i, index ≠ i → items'[i]? = items[i]?) : ItemsKept key k items items' := by
  intro i x hx hne
  obtain ⟨hlt, hkey, -⟩ := List.findIdx?_eq_some_iff_getElem.1 hfound
  have hindex : index ≠ i := by
    rintro rfl
    rw [List.getElem?_eq_getElem hlt, Option.some.injEq] at hx
    exact hne (by simpa [hx] using hkey)
  rw [hother i hindex, hx]

theorem itemsKept_upsert (item : α) : ItemsKept key (key item) items (upsert key items item) := by
  unfold upsert
  split
  · rename_i index hfound
    exact itemsKept_of_index hfound fun _ hne => List.getElem?_set_ne hne
  · exact itemsKept_append item

end Items

theorem checked_eq_ok {c c' : DomainConfig} (h : checked home c = .ok c') : c' = c := by
  unfold checked at h
  split at h
  · cases h
  · exact (Except.ok.inj h).symm

/-- **An edit of one item** leaves the others in their places. -/
theorem applyEdit_others {edit : Edit} {c : DomainConfig} (h : applyEdit home config edit = .ok c) :
    OthersKept config c edit := by
  cases edit with
  | host entered secret =>
      rw [checked_eq_ok h]
      exact ⟨itemsKept_upsert entered, rfl⟩
  | tunnel entered =>
      rw [checked_eq_ok h]
      exact ⟨itemsKept_upsert entered, rfl⟩
  | group id name =>
      simp only [applyEdit, saveGroup] at h
      split_ifs at h
      split at h
      · rename_i index hfound
        obtain rfl := Except.ok.inj h
        exact ⟨itemsKept_of_index hfound fun _ hne => List.getElem?_modify_ne _ _ hne, rfl⟩
      · obtain rfl := Except.ok.inj h
        exact ⟨itemsKept_append _, rfl⟩
  | runAtLogin =>
      obtain rfl := Except.ok.inj h
      rfl
  | closeMode =>
      obtain rfl := Except.ok.inj h
      rfl
  | deleteGroup id => trivial
  | moveGroup id direction => trivial
  | importConfig config => trivial
  | importSsh entries => trivial

/-! ## From the tray -/

/-- The program with a manager, before a window is opened. -/
def started (config : DomainConfig) (w : World) (stores : Stores) (env : Env)
    (directory : PathBuf) : Desktop where
  manager := { w.withAppSettings config.app with stores }.launch env
  directory := directory

/-- Windows are opened and closed, and the manager does anything but
save. -/
def Desktop.Input.browses : Desktop.Input → Bool
  | .open => true
  | .close => true
  | .manage _ => true
  | .edit _ _ => false
  | .save _ => false
  | .deliver => false

/-- **Nothing is lost on the way through the manager**: what it
publishes is the configuration. A window that is opened later and edits
one item sends the configuration with every other item in its place, and
where that save succeeds it is in the file. -/
def Publishes (home : Option PathBuf) (codec : Codec) (config : DomainConfig) (order : ℕ) : Prop :=
  ∃ w, new order config.hosts config.groups config.tunnels = .ok w ∧
    (w.withAppSettings config.app).configViews = config ∧
    ∀ stores env directory (inputs : List Desktop.Input) edit window base c d,
      (∀ i ∈ inputs, i.browses = true) →
      (runState (Desktop.step home codec) (started config w stores env directory)
        inputs).openWindow.editConfig home edit none = (some (.sent window base c), d) →
      base = config ∧ OthersKept config c edit ∧
      ∀ env, (d.saveNext home codec env).1 = some (.saved window true) →
        ∃ document, ConfigDocument.tryFrom c = .ok document ∧
          Stored home codec directory document (d.saveNext home codec env).2.manager.stores.disk

/-- No edit was sent, and a window has what is published. -/
structure Unedited (published : DomainConfig) (directory : PathBuf) (d : Desktop) : Prop where
  views : d.manager.configViews = published
  directory : d.directory = directory
  commands : d.commands = []
  copy : ∀ w, d.window = some w → w.startup = published

namespace Unedited

variable {published : DomainConfig} {d : Desktop}

theorem openWindow (h : Unedited published directory d) :
    Unedited published directory d.openWindow := by
  unfold Desktop.openWindow
  split
  · exact h
  · refine ⟨h.views, h.directory, h.commands, fun w hw => ?_⟩
    obtain rfl := Option.some.inj hw
    exact h.views

theorem step (h : Unedited published directory d) (home : Option PathBuf) (codec : Codec)
    {input : Desktop.Input} (hinput : input.browses = true) :
    Unedited published directory (d.step home codec input).2 := by
  cases input with
  | «open» => exact h.openWindow
  | close =>
      dsimp only [Desktop.step, Desktop.closeWindow]
      split
      · exact ⟨h.views, h.directory, h.commands, fun w hw => nomatch hw⟩
      · exact h
  | manage input =>
      rcases Desktop.manage_cases home codec d input with heq | ⟨manager, hviews, heq⟩
      · rw [heq]
        exact h
      · rw [heq]
        exact ⟨hviews.trans h.views, h.directory, h.commands, h.copy⟩
  | edit edit unsent => cases hinput
  | save env => cases hinput
  | deliver => cases hinput

theorem reached (h : Unedited published directory d) (home : Option PathBuf) (codec : Codec)
    (inputs : List Desktop.Input) (hinputs : ∀ i ∈ inputs, i.browses = true) :
    Unedited published directory (runState (Desktop.step home codec) d inputs) := by
  induction inputs generalizing d with
  | nil => exact h
  | cons input rest ih =>
      exact ih (h.step home codec (hinputs input List.mem_cons_self)) fun i hi =>
        hinputs i (List.mem_cons_of_mem _ hi)

/-- An edit is made on what is published, and goes to the manager
alone. -/
theorem sent (h : Unedited published directory d) {edit : Edit} {window : ℕ}
    {base c : DomainConfig} {d' : Desktop}
    (hsent : d.editConfig home edit none = (some (.sent window base c), d')) :
    base = published ∧ applyEdit home published edit = .ok c ∧ d'.manager = d.manager ∧
      d'.directory = directory ∧ d'.commands = [⟨window, c, edit.secret⟩] := by
  unfold Desktop.editConfig at hsent
  split at hsent
  · cases hsent
  · rename_i w hw
    split at hsent
    · cases hsent
    · split at hsent
      · cases hsent
      · rename_i config happly
        rw [h.copy w hw] at happly
        simp only [Desktop.persistConfig, Prod.mk.injEq, Option.some.injEq,
          Desktop.Event.sent.injEq] at hsent
        obtain ⟨⟨rfl, rfl, rfl⟩, rfl⟩ := hsent
        exact ⟨h.copy w hw, happly, rfl, h.directory, by rw [h.commands, List.nil_append]⟩

end Unedited

theorem started_unedited (config : DomainConfig) (w : World) (stores : Stores) (env : Env)
    (directory : PathBuf) :
    Unedited (w.withAppSettings config.app).configViews directory
      (started config w stores env directory) := by
  have hf : World.Beside World.configViews := fun _ _ _ _ _ _ _ _ _ => rfl
  refine ⟨?_, rfl, rfl, fun _ hw => nomatch hw⟩
  exact hf.startEach env _ _

/-- A save that succeeds leaves its configuration in the file. -/
theorem saveNext_stores {d : Desktop} {request : SaveRequest} {rest : List SaveRequest}
    (hcommands : d.commands = request :: rest) {env : Env}
    (hok : (d.saveNext home codec env).1 = some (.saved request.window true)) :
    ∃ document, ConfigDocument.tryFrom request.config = .ok document ∧
      Stored home codec d.directory document
        (d.saveNext home codec env).2.manager.stores.disk := by
  unfold Desktop.saveNext at hok ⊢
  rw [hcommands] at hok ⊢
  dsimp only at hok ⊢
  by_cases hrun : (!d.manager.running) = true
  · rw [if_pos hrun] at hok
    cases hok
  · rw [if_neg hrun] at hok ⊢
    have hstores (hvalue : (d.manager.saveConfig home codec env d.directory request.config
        request.secret).1 = .value ()) := World.saveConfig_stored hvalue
    rcases hsave : d.manager.saveConfig home codec env d.directory request.config request.secret with
      ⟨result, manager⟩
    rw [hsave] at hok hstores
    cases result with
    | value u => exact hstores rfl
    | error error => cases hok
    | cut => cases hok

theorem publishes_of_views {order : ℕ} {w : World}
    (hnew : new order config.hosts config.groups config.tunnels = .ok w)
    (hviews : (w.withAppSettings config.app).configViews = config) :
    Publishes home codec config order := by
  refine ⟨w, hnew, hviews, fun stores env directory inputs edit window base c d hinputs hsent => ?_⟩
  have hstart := started_unedited config w stores env directory
  rw [hviews] at hstart
  have hopen := (hstart.reached home codec inputs hinputs).openWindow
  obtain ⟨hbase, happly, hmanager, hdirectory, hcommands⟩ := hopen.sent hsent
  refine ⟨hbase, applyEdit_others happly, fun env hok => ?_⟩
  have hstored := saveNext_stores hcommands hok
  rw [hdirectory] at hstored
  exact hstored

/-- **What is published is what was loaded**, whatever the order of the
map is, exactly where there is at most one tunnel. -/
theorem published_eq_loaded_iff (home : Option PathBuf) (codec : Codec) (directory : PathBuf)
    (fenv : Verdicts FileOp IoError) (s : ℕ × Disk) (config : DomainConfig)
    (hload : (load home codec directory fenv s).1 = .value config) :
    (∀ order, Publishes home codec config order) ↔ config.tunnels.length ≤ 1 := by
  obtain ⟨doc, hdoc⟩ := accepted_of_load hload
  obtain ⟨hlen, hnodup⟩ := tunnels_of_accepted hdoc
  constructor
  · intro h
    rcases htunnels : config.tunnels with _ | ⟨t₁, _ | ⟨t₂, rest⟩⟩
    · simp
    · simp
    · exfalso
      -- the order with the first two tunnels the other way round
      have hperm : (t₂ :: t₁ :: rest).Perm config.tunnels.reverse := by
        rw [htunnels]
        exact (List.Perm.swap t₁ t₂ rest).trans (List.reverse_perm _).symm
      obtain ⟨order, horder⟩ := exists_arrange hperm
      obtain ⟨w, hnew, hviews, -⟩ := h order
      obtain ⟨w', hnew', hviews'⟩ := new_configViews hlen hnodup order
      obtain rfl : w = w' := Except.ok.inj (hnew.symm.trans hnew')
      have heq : t₂ :: t₁ :: rest = config.tunnels := by
        rw [← horder]
        exact congrArg DomainConfig.tunnels (hviews'.symm.trans hviews)
      rw [htunnels] at heq hnodup
      have hhead : t₂ = t₁ := (List.cons.inj heq).1
      simp [hhead] at hnodup
  · intro hfew order
    obtain ⟨w, hnew, hviews⟩ := new_configViews hlen hnodup order
    refine publishes_of_views hnew ?_
    have harrange : arrange order config.tunnels.reverse = config.tunnels := by
      have hperm := (arrange_perm order config.tunnels.reverse).trans (List.reverse_perm _)
      rcases htunnels : config.tunnels with _ | ⟨t, _ | ⟨t', rest⟩⟩
      · rw [htunnels] at hperm
        exact List.perm_nil.1 hperm
      · rw [htunnels] at hperm
        exact List.perm_singleton.1 hperm
      · rw [htunnels] at hfew
        simp at hfew
    rw [hviews, harrange]

/-! ## Two tunnels -/

/-- A disk with this text in the file. -/
def diskOf (text : String) : Disk :=
  (∅ : Disk).insert (configPath appDirectory) (.file text.toUTF8)

/-- The one document a codec knows is loaded from its text. -/
theorem load_only {document : ConfigDocument} {text : String}
    (hdoc : document.intoDomain home = .ok config) (hlen : ¬ maxConfigBytes < byteLen text) :
    (load home (.only document text) appDirectory working (0, diskOf text)).1 = .value config := by
  have hser : serialized home (.only document text) document = .ok text := by
    unfold serialized Codec.only
    dsimp only
    rw [if_pos rfl, hdoc]
    exact if_neg hlen
  obtain ⟨c, hc, hload⟩ := load_of_serialized works_working 0 hser
    (Codec.only_fromStr (serialized_cases hser).1) (AList.lookup_insert _)
  rw [Except.ok.inj (hdoc.symm.trans hc)]
  exact hload

/-- The criterion for a configuration with one tunnel. -/
theorem published_eq_loaded_iff_labConfig :
    (∀ order, Publishes none labCodec labConfig order) ↔ labConfig.tunnels.length ≤ 1 :=
  published_eq_loaded_iff none labCodec appDirectory working (0, diskOf labText) labConfig
    (load_only (by decide +kernel) (by decide +kernel))

/-- A second tunnel through the same host. -/
def webTunnel : TunnelConfig :=
  { socksTunnel with id := ⟨"web"⟩, name := "Web", localEnd := ⟨"127.0.0.1", 8080⟩ }

def twoConfig : DomainConfig := { labConfig with tunnels := [socksTunnel, webTunnel] }

def twoDocument : ConfigDocument :=
  { labDocument with tunnels := labDocument.tunnels ++ labDocument.tunnels.map fun r =>
      { r with id := "web", name := "Web", localPort := 8080 } }

def twoText : String :=
  labText ++ "\n[[tunnels]]\nid = \"web\"\nname = \"Web\"\nmode = \"dynamic\"\n" ++
  "jump_chain = [\"lab\"]\nlocal_host = \"127.0.0.1\"\nlocal_port = 8080\nauto_start = true\n" ++
  "reconnect_base_ms = 1000\nreconnect_max_ms = 30000\nreconnect_reset_ms = 60000\n" ++
  "reconnect_jitter_percent = 20\ndescription = \"\"\n"

def twoCodec : Codec := .only twoDocument twoText

/-- **The tunnels change places**: the configuration is loaded, and a
window that is opened after the start and adds a group sends its tunnels
in the other order. -/
theorem publishes_reordered :
    (load none twoCodec appDirectory working (0, diskOf twoText)).1 = .value twoConfig ∧
    (∃ w, new 0 twoConfig.hosts twoConfig.groups twoConfig.tunnels = .ok w ∧
      ((started twoConfig w {} calm appDirectory).openWindow.editConfig none
        (.group ⟨"office"⟩ "Office") none).1 =
          some (.sent 0 { twoConfig with tunnels := [webTunnel, socksTunnel] }
            { twoConfig with
              tunnels := [webTunnel, socksTunnel]
              groups := [⟨⟨"office"⟩, "Office", 1⟩] })) ∧
    ¬ Publishes none twoCodec twoConfig 0 := by
  have hnodup : (twoConfig.tunnels.map TunnelConfig.id).Nodup := by decide
  have harrange : arrange 0 twoConfig.tunnels.reverse = [webTunnel, socksTunnel] := by
    decide +kernel
  obtain ⟨w, hnew, hviews⟩ := new_configViews (by decide) hnodup 0
  rw [harrange] at hviews
  refine ⟨load_only (by decide +kernel) (by decide +kernel), ⟨w, hnew, ?_⟩, ?_⟩
  · have hstart := started_unedited twoConfig w {} calm appDirectory
    rw [hviews] at hstart
    have hopen : (started twoConfig w {} calm appDirectory).openWindow.window =
        some { number := 0, startup := { twoConfig with tunnels := [webTunnel, socksTunnel] } } := by
      rw [← hstart.views]
      rfl
    unfold Desktop.editConfig
    rw [hopen]
    rfl
  · rintro ⟨w', hnew', hviews', -⟩
    obtain rfl : w = w' := Except.ok.inj (hnew.symm.trans hnew')
    have htunnels : [webTunnel, socksTunnel] = twoConfig.tunnels :=
      congrArg DomainConfig.tunnels (hviews.symm.trans hviews')
    revert htunnels
    decide +kernel

end App

end TunnelWarden
