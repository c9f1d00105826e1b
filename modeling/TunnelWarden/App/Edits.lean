import TunnelWarden.App.Model.Workspace
import TunnelWarden.Common.Edits
import TunnelWarden.Common.Run
import TunnelWarden.Manager.Bookkeeping
import TunnelWarden.Manager.Beside

/-!
# Edits from several windows

A save replaces the whole configuration by a window's copy with one
change. The copy is refreshed by the window's own saves only, so it is
out of date once another window's save succeeds (`Crossed`). Along every
run, a copy is out of date for no other reason (`current_reached`), and
where no save succeeds on such a copy, no edit is lost
(`noLostEdits_of_inTurn`).
-/

namespace TunnelWarden

/-! ## What a configuration is made of -/

/-- The parts of a configuration that are edited one by one. -/
inductive Item where
  | theme
  | runAtStartup
  | minimizeToTray
  | trafficMonitor
  | host (id : HostId)
  | group (id : GroupId)
  | tunnel (id : TunnelId)
  deriving DecidableEq, Repr

inductive ItemValue where
  | theme (value : ThemePreference)
  | flag (value : Bool)
  | host (value : Option SshHost)
  | group (value : Option TunnelGroup)
  | tunnel (value : Option TunnelConfig)
  deriving DecidableEq, Repr

/-- The value of an item, `none` for what is not there. -/
def DomainConfig.item (config : DomainConfig) : Item → ItemValue
  | .theme => .theme config.app.theme
  | .runAtStartup => .flag config.app.runAtStartup
  | .minimizeToTray => .flag config.app.minimizeToTray
  | .trafficMonitor => .flag config.app.trafficMonitor
  | .host id => .host (config.hosts.find? fun host => host.id = id)
  | .group id => .group (config.groups.find? fun group => group.id = id)
  | .tunnel id => .tunnel (config.tunnels.find? fun tunnel => tunnel.id = id)

namespace App

open Manager

namespace Desktop

/-- A step of the application in a run. -/
abbrev Stage := Step Desktop Input (Option Event)

/-! ## The property and the condition -/

/-- The edits sent in a run, with their windows. -/
def sends (run : List Stage) : List (ℕ × Edited DomainConfig) :=
  run.filterMap fun x => match x.output with
    | some (.sent window base config) => some (window, ⟨base, config⟩)
    | _ => none

/-- How the saves of a run ended. The manager takes them in the order in
which they were sent. -/
def outcomes (run : List Stage) : List Bool :=
  run.filterMap fun x => match x.output with
    | some (.saved _ ok) => some ok
    | _ => none

/-- The edits of a run whose save succeeded. -/
def succeeded (run : List Stage) : List (Edited DomainConfig) :=
  ((sends run).zip (outcomes run)).filterMap fun p => if p.2 then some p.1.2 else none

/-- **No edit is lost**: the configuration has every edit whose save
succeeded, unless a later one changed the same item. -/
def NoLostEdits (run : List Stage) (config : DomainConfig) : Prop :=
  Edited.Keeps DomainConfig.item (succeeded run) config

/-- After the window was opened, a save of another one succeeded. -/
def Crossed (run : List Stage) (window : ℕ) : Prop :=
  ∃ y ∈ run, ∃ other, y.output = some (.saved other true) ∧ other ≠ window ∧
    window < y.before.opened

/-- Where both steps are saves that succeed, for two windows, the window
of the second was opened after the first. -/
def apart (y x : Stage) : Bool :=
  match y.output, x.output with
  | some (.saved other true), some (.saved window true) =>
    other = window || y.before.opened ≤ window
  | _, _ => true

/-- The windows save in turn: a window whose save succeeds was opened
after the last save of another one that did. -/
def InTurn (run : List Stage) : Prop := run.Pairwise fun y x => apart y x = true

instance (run : List Stage) : Decidable (InTurn run) := inferInstanceAs (Decidable (List.Pairwise _ _))

/-! ## The invariant -/

/-- The edits whose save has not ended. -/
def unanswered (run : List Stage) : List (ℕ × Edited DomainConfig) :=
  (sends run).drop (outcomes run).length

/-- The windows with a save in the channel or a reply on its way. -/
def waiting (d : Desktop) : List ℕ :=
  d.commands.map SaveRequest.window ++ d.replies.map SaveReply.window

/-- **The edits so far, and the copies**: the edits that succeeded were
made one on another, and every copy is the published configuration or
was crossed. -/
structure Current (first : DomainConfig) (d : Desktop) (run : List Stage) : Prop where
  serial : Edited.Serial first (succeeded run) d.manager.configViews
  length : (outcomes run).length ≤ (sends run).length
  commands : (unanswered run).map (fun p => (p.1, p.2.result)) =
    d.commands.map fun r => (r.window, r.config)
  base : ∀ p ∈ unanswered run, p.2.base = d.manager.configViews ∨ Crossed run p.1
  replies : ∀ r ∈ d.replies, r.result = .ok () →
    r.config = d.manager.configViews ∨ Crossed run r.window
  nodup : (waiting d).Nodup
  opened : ∀ n ∈ waiting d, n < d.opened
  number : ∀ w, d.window = some w → w.number < d.opened
  idle : ∀ w, d.window = some w → w.saving = false → w.number ∉ waiting d
  copy : ∀ w, d.window = some w → w.startup = d.manager.configViews ∨ Crossed run w.number ∨
    ∃ r ∈ d.replies, r.window = w.number ∧ r.result = .ok ()

variable {first : DomainConfig} {d d' : Desktop} {run : List Stage} {x : Stage}

theorem Crossed.concat {window : ℕ} (h : Crossed run window) : Crossed (run ++ [x]) window := by
  obtain ⟨y, hy, hrest⟩ := h
  exact ⟨y, List.mem_append_left _ hy, hrest⟩

/-- Where windows save in turn, a save succeeds on a copy that was not
crossed. -/
theorem InTurn.not_crossed (h : InTurn (run ++ [x])) {window : ℕ}
    (hout : x.output = some (.saved window true)) : ¬ Crossed run window := by
  rintro ⟨y, hy, other, houty, hne, hlt⟩
  have hapart := (List.pairwise_append.1 h).2.2 y hy x (List.mem_singleton_self x)
  simp only [apart, houty, hout, Bool.or_eq_true, decide_eq_true_eq] at hapart
  rcases hapart with heq | hle
  · exact hne heq
  · exact absurd hlt (Nat.not_lt.2 hle)

/-- A step that neither sends nor ends a save leaves the lists of the run
as they are. -/
theorem lists_concat (run : List Stage) (hout : x.output = none) :
    sends (run ++ [x]) = sends run ∧ outcomes (run ++ [x]) = outcomes run := by
  simp [sends, outcomes, hout]

/-- A step that ends a save ends the first that is unanswered. -/
theorem lists_saved {window : ℕ} {ok : Bool} {p : ℕ × Edited DomainConfig}
    {rest : List (ℕ × Edited DomainConfig)} (hout : x.output = some (.saved window ok))
    (hp : unanswered run = p :: rest) :
    (outcomes (run ++ [x])).length ≤ (sends (run ++ [x])).length ∧
      unanswered (run ++ [x]) = rest ∧
      succeeded (run ++ [x]) = succeeded run ++ if ok then [p.2] else [] := by
  have hsends : sends (run ++ [x]) = sends run := by simp [sends, hout]
  have houtcomes : outcomes (run ++ [x]) = outcomes run ++ [ok] := by simp [outcomes, hout]
  have hlen : (outcomes run).length < (sends run).length := by
    have hpos : 0 < ((sends run).drop (outcomes run).length).length := by
      rw [← unanswered, hp]
      exact Nat.succ_pos _
    rw [List.length_drop] at hpos
    omega
  refine ⟨?_, ?_, ?_⟩
  · rw [hsends, houtcomes, List.length_append, List.length_singleton]
    exact hlen
  · rw [unanswered, hsends, houtcomes, List.length_append, List.length_singleton,
      ← List.drop_drop, ← unanswered, hp]
    rfl
  · rw [succeeded, hsends, houtcomes, zip_answer hp, List.filterMap_append, ← succeeded]
    cases ok with
    | true => rfl
    | false => rfl

/-- **What reaches the manager beside the windows** leaves the published
configuration and everything between the two. -/
theorem manage_cases (home : Option PathBuf) (codec : Codec) (d : Desktop)
    (input : Manager.Input) :
    d.step home codec (.manage input) = (none, d) ∨
      ∃ manager, manager.configViews = d.manager.configViews ∧
        d.step home codec (.manage input) = (none, { d with manager }) := by
  by_cases hsave : ∃ directory config secret env,
      input = .command (.saveConfig directory config secret) env
  · obtain ⟨directory, config, secret, env, rfl⟩ := hsave
    exact .inl rfl
  · refine .inr ⟨(d.manager.step home codec input).2, ?_, ?_⟩
    · exact World.step_configViews home codec d.manager fun directory config secret env heq =>
        hsave ⟨directory, config, secret, env, heq⟩
    · cases input with
      | command command env =>
          cases command with
          | saveConfig directory config secret =>
              exact absurd ⟨directory, config, secret, env, rfl⟩ hsave
          | _ => rfl
      | _ => rfl

namespace Current

/-- **A step that neither sends nor ends a save**, if it leaves the window
in order. -/
theorem quiet (h : Current first d run) (hout : x.output = none)
    (hviews : d'.manager.configViews = d.manager.configViews)
    (hcommands : d'.commands = d.commands) (hreplies : d'.replies.Sublist d.replies)
    (hopened : d.opened ≤ d'.opened)
    (hwindow : ∀ w, d'.window = some w → w.number < d'.opened ∧
      (w.saving = false → w.number ∉ waiting d') ∧
      (w.startup = d.manager.configViews ∨ Crossed run w.number ∨
        ∃ r ∈ d'.replies, r.window = w.number ∧ r.result = .ok ())) :
    Current first d' (run ++ [x]) := by
  obtain ⟨hsends, houtcomes⟩ := lists_concat run hout
  have hunanswered : unanswered (run ++ [x]) = unanswered run := by
    rw [unanswered, hsends, houtcomes, unanswered]
  have hsub : (waiting d').Sublist (waiting d) := by
    rw [waiting, waiting, hcommands]
    exact (List.Sublist.refl _).append (hreplies.map _)
  refine { serial := ?_, length := ?_, commands := ?_, base := ?_, replies := ?_, nodup := ?_,
           opened := ?_, number := ?_, idle := ?_, copy := ?_ }
  · rw [succeeded, hsends, houtcomes, hviews]
    exact h.serial
  · rw [hsends, houtcomes]
    exact h.length
  · rw [hunanswered, hcommands]
    exact h.commands
  · rw [hunanswered, hviews]
    exact fun p hp => (h.base p hp).imp_right Crossed.concat
  · rw [hviews]
    exact fun r hr hok => (h.replies r (hreplies.subset hr) hok).imp_right Crossed.concat
  · exact h.nodup.sublist hsub
  · exact fun n hn => Nat.lt_of_lt_of_le (h.opened n (hsub.subset hn)) hopened
  · exact fun w hw => (hwindow w hw).1
  · exact fun w hw => (hwindow w hw).2.1
  · rw [hviews]
    exact fun w hw => (hwindow w hw).2.2.imp_right (Or.imp_left Crossed.concat)

/-- What concerns the open window, as it is. -/
theorem window_kept (h : Current first d run) {w : Workspace} (hw : d.window = some w) :
    w.number < d.opened ∧ (w.saving = false → w.number ∉ waiting d) ∧
      (w.startup = d.manager.configViews ∨ Crossed run w.number ∨
        ∃ r ∈ d.replies, r.window = w.number ∧ r.result = .ok ()) :=
  ⟨h.number w hw, h.idle w hw, h.copy w hw⟩

/-- A step that does nothing. -/
theorem unchanged (h : Current first d run) (hout : x.output = none) :
    Current first d (run ++ [x]) :=
  h.quiet hout rfl rfl (List.Sublist.refl _) (Nat.le_refl _) fun _ hw => h.window_kept hw

theorem openWindow (h : Current first d run) (hout : x.output = none) :
    Current first d.openWindow (run ++ [x]) := by
  unfold Desktop.openWindow
  split
  · exact h.unchanged hout
  · refine h.quiet hout rfl rfl (List.Sublist.refl _) (Nat.le_succ _) fun w hw => ?_
    obtain rfl := Option.some.inj hw
    -- nothing is on its way for a window that was not there
    refine ⟨Nat.lt_succ_self _, fun _ hn => ?_, .inl rfl⟩
    exact Nat.lt_irrefl _ (h.opened _ hn)

theorem closeWindow (h : Current first d run) (hout : x.output = none) :
    Current first d.closeWindow (run ++ [x]) := by
  unfold Desktop.closeWindow
  split
  · exact h.quiet hout rfl rfl (List.Sublist.refl _) (Nat.le_refl _) fun w hw => by simp at hw
  · exact h.unchanged hout

/-- No other reply, and no save, is on its way for the window of the next
reply. -/
theorem reply_only (h : Current first d run) {reply : SaveReply} {rest : List SaveReply}
    (hreplies : d.replies = reply :: rest) :
    reply.window ∉ d.commands.map SaveRequest.window ++ rest.map SaveReply.window := by
  have hnodup := h.nodup
  rw [waiting, hreplies, List.map_cons] at hnodup
  exact (List.nodup_cons.1 (List.nodup_middle.1 hnodup)).1

/-- A reply for another window leaves the copy as it is. -/
theorem window_passed (h : Current first d run) {reply : SaveReply} {rest : List SaveReply}
    (hreplies : d.replies = reply :: rest) {w : Workspace} (hwindow : d.window = some w)
    (hnumber : w.number ≠ reply.window) :
    (w.saving = false → w.number ∉ d.commands.map SaveRequest.window ++ rest.map SaveReply.window) ∧
      (w.startup = d.manager.configViews ∨ Crossed run w.number ∨
        ∃ r ∈ rest, r.window = w.number ∧ r.result = .ok ()) := by
  refine ⟨fun hidle hn => h.idle w hwindow hidle ?_, ?_⟩
  · rw [waiting, hreplies]
    rcases List.mem_append.1 hn with hn | hn
    · exact List.mem_append_left _ hn
    · exact List.mem_append_right _ (List.mem_cons_of_mem _ hn)
  · refine (h.copy w hwindow).imp_right (Or.imp_right ?_)
    rintro ⟨r, hr, hrw, hok⟩
    rw [hreplies] at hr
    rcases List.mem_cons.1 hr with rfl | hr
    · exact absurd hrw.symm hnumber
    · exact ⟨r, hr, hrw, hok⟩

/-- After an error the copy is what it was before the save. -/
theorem copy_of_error (h : Current first d run) {reply : SaveReply} {rest : List SaveReply}
    (hreplies : d.replies = reply :: rest) {w : Workspace} (hwindow : d.window = some w)
    (hnumber : w.number = reply.window) {error : String} (hresult : reply.result = .error error) :
    w.startup = d.manager.configViews ∨ Crossed run w.number := by
  rcases h.copy w hwindow with heq | hcrossed | ⟨r, hr, hrw, hok⟩
  · exact .inl heq
  · exact .inr hcrossed
  · -- there is no second reply that could have succeeded
    rw [hreplies] at hr
    rcases List.mem_cons.1 hr with rfl | hr
    · rw [hresult] at hok
      simp at hok
    · have hrest : reply.window ∈ rest.map SaveReply.window :=
        List.mem_map.2 ⟨r, hr, hrw.trans hnumber⟩
      exact absurd (List.mem_append_right _ hrest) (h.reply_only hreplies)

/-- **A reply that arrives** makes the saved configuration the copy, or
leaves the copy as it is. -/
theorem deliverNext (h : Current first d run) (hout : x.output = none) :
    Current first d.deliverNext (run ++ [x]) := by
  unfold Desktop.deliverNext
  cases hreplies : d.replies with
  | nil => exact h.unchanged hout
  | cons reply rest =>
      dsimp only
      have hsub : rest.Sublist d.replies := hreplies ▸ List.sublist_cons_self reply rest
      have hmem : reply ∈ d.replies := hreplies ▸ List.mem_cons_self
      have honly := h.reply_only hreplies
      cases hwindow : d.window with
      | none => exact h.quiet hout rfl rfl hsub (Nat.le_refl _) fun w hw => by simp at hw
      | some w =>
          dsimp only
          split
          · rename_i hnumber
            cases hresult : reply.result with
            | ok u =>
                refine h.quiet hout rfl rfl hsub (Nat.le_refl _) fun w' hw' => ?_
                obtain rfl := Option.some.inj hw'
                refine ⟨h.number w hwindow, fun _ => hnumber ▸ honly, ?_⟩
                rcases h.replies reply hmem hresult with heq | hcrossed
                · exact .inl heq
                · exact .inr (.inl (hnumber ▸ hcrossed))
            | error error =>
                refine h.quiet hout rfl rfl hsub (Nat.le_refl _) fun w' hw' => ?_
                obtain rfl := Option.some.inj hw'
                have hcopy := h.copy_of_error hreplies hwindow hnumber hresult
                exact ⟨h.number w hwindow, fun _ => hnumber ▸ honly, hcopy.imp_right .inl⟩
          · rename_i hnumber
            refine h.quiet hout rfl rfl hsub (Nat.le_refl _) fun w' hw' => ?_
            obtain rfl := Option.some.inj hw'
            exact ⟨h.number w hwindow, h.window_passed hreplies hwindow hnumber⟩

/-- **A window sends an edit**, on its copy. -/
theorem persistConfig (h : Current first d run) {w : Workspace} (hwindow : d.window = some w)
    (hidle : w.saving = false) (config : DomainConfig) (secret : Option SecretUpdate)
    (unsent : Option String) (hx : x.output = (d.persistConfig w config secret unsent).1) :
    Current first (d.persistConfig w config secret unsent).2 (run ++ [x]) := by
  unfold Desktop.persistConfig at hx ⊢
  cases unsent with
  | some error =>
      refine h.quiet hx rfl rfl (List.Sublist.refl _) (Nat.le_refl _) fun w' hw' => ?_
      obtain rfl := Option.some.inj hw'
      exact (h.window_kept hwindow :)
  | none =>
      dsimp only at hx ⊢
      -- a window that does not save has nothing on its way, so its number is a new one there
      have hnew := h.idle w hwindow hidle
      have hsends : sends (run ++ [x]) = sends run ++ [(w.number, ⟨w.startup, config⟩)] := by
        simp [sends, hx]
      have houtcomes : outcomes (run ++ [x]) = outcomes run := by simp [outcomes, hx]
      have hunanswered : unanswered (run ++ [x]) =
          unanswered run ++ [(w.number, ⟨w.startup, config⟩)] := by
        rw [unanswered, hsends, houtcomes, List.drop_append_of_le_length h.length, unanswered]
      -- no reply is on its way for a window that is not saving
      have hcopy : w.startup = d.manager.configViews ∨ Crossed run w.number := by
        rcases h.copy w hwindow with heq | hcrossed | ⟨r, hr, hrw, -⟩
        · exact .inl heq
        · exact .inr hcrossed
        · exact absurd (List.mem_append_right _ (List.mem_map.2 ⟨r, hr, hrw⟩)) hnew
      have hperm : (waiting { d with
          commands := d.commands ++ [⟨w.number, config, secret⟩]
          window := some { w with saving := true, commandError := none } }).Perm
          (w.number :: waiting d) := by
        simp only [waiting, List.map_append, List.map_cons, List.map_nil, List.append_assoc]
        exact List.perm_middle
      refine { serial := ?_, length := ?_, commands := ?_, base := ?_, replies := ?_, nodup := ?_,
               opened := ?_, number := ?_, idle := ?_, copy := ?_ }
      · rw [succeeded, hsends, houtcomes, zip_request h.length]
        exact h.serial
      · rw [hsends, houtcomes]
        exact h.length.trans (by simp)
      · rw [hunanswered, List.map_append, h.commands]
        simp
      · rw [hunanswered]
        intro p hp
        rcases List.mem_append.1 hp with hp | hp
        · exact (h.base p hp).imp_right Crossed.concat
        · rw [List.mem_singleton.1 hp]
          exact hcopy.imp_right Crossed.concat
      · exact fun r hr hok => (h.replies r hr hok).imp_right Crossed.concat
      · exact hperm.nodup_iff.2 (List.nodup_cons.2 ⟨hnew, h.nodup⟩)
      · intro n hn
        rcases List.mem_cons.1 (hperm.subset hn) with rfl | hn
        · exact h.number w hwindow
        · exact h.opened n hn
      · intro w' hw'
        obtain rfl := Option.some.inj hw'
        exact h.number w hwindow
      · intro w' hw' hsaving
        obtain rfl := Option.some.inj hw'
        simp at hsaving
      · intro w' hw'
        obtain rfl := Option.some.inj hw'
        exact hcopy.imp_right fun hc => .inl hc.concat

theorem editConfig (h : Current first d run) (home : Option PathBuf) (edit : Edit)
    (unsent : Option String) (hx : x.output = (d.editConfig home edit unsent).1) :
    Current first (d.editConfig home edit unsent).2 (run ++ [x]) := by
  unfold Desktop.editConfig at hx ⊢
  cases hwindow : d.window with
  | none =>
      rw [hwindow] at hx
      exact h.unchanged hx
  | some w =>
      rw [hwindow] at hx
      dsimp only at hx ⊢
      by_cases hsaving : w.saving = true
      · rw [if_pos hsaving] at hx ⊢
        exact h.unchanged hx
      · rw [if_neg hsaving] at hx ⊢
        cases hedit : applyEdit home w.startup edit with
        | error refusal =>
            rw [hedit] at hx
            refine h.quiet hx rfl rfl (List.Sublist.refl _) (Nat.le_refl _) fun w' hw' => ?_
            obtain rfl := Option.some.inj hw'
            exact (h.window_kept hwindow :)
        | ok config =>
            rw [hedit] at hx
            exact h.persistConfig hwindow (by simpa using hsaving) config _ unsent hx

/-- The edit behind the next command. -/
theorem exists_unanswered (h : Current first d run) {r : SaveRequest} {rest : List SaveRequest}
    (hcommands : d.commands = r :: rest) :
    ∃ base tail, unanswered run = (r.window, ⟨base, r.config⟩) :: tail ∧
      tail.map (fun p => (p.1, p.2.result)) = rest.map fun r => (r.window, r.config) := by
  have hmap := h.commands
  rw [hcommands] at hmap
  cases hun : unanswered run with
  | nil => simp [hun] at hmap
  | cons p tail =>
      rw [hun] at hmap
      obtain ⟨hhead, htail⟩ := List.cons.inj hmap
      obtain ⟨hwindow, hresult⟩ := Prod.mk.inj hhead
      obtain ⟨n, base, result⟩ := p
      dsimp only at hwindow hresult
      subst hwindow hresult
      exact ⟨base, tail, rfl, htail⟩

/-- A save that ends may leave a reply for the same window. -/
theorem waiting_next {r : SaveRequest} {rest : List SaveRequest}
    (hcommands : d.commands = r :: rest) (hnext : d'.commands = rest)
    (hreplies : d'.replies = d.replies ∨
      ∃ result, d'.replies = d.replies ++ [⟨r.window, r.config, result⟩]) :
    (waiting d').Subperm (waiting d) := by
  rw [waiting, waiting, hcommands, hnext, List.map_cons]
  rcases hreplies with heq | ⟨result, heq⟩
  · rw [heq]
    exact (List.sublist_cons_self _ _).subperm
  · rw [heq, List.map_append, ← List.append_assoc]
    exact (List.perm_append_singleton _ _).subperm

/-- What concerns who is waiting, once fewer are. -/
theorem waiting_fewer (h : Current first d run) {still : List ℕ} (hsub : still.Subperm (waiting d)) :
    still.Nodup ∧ (∀ n ∈ still, n < d.opened) ∧
      ∀ w, d.window = some w → w.saving = false → w.number ∉ still := by
  obtain ⟨kept, hperm, hkept⟩ := hsub
  have hmem {n : ℕ} (hn : n ∈ still) : n ∈ waiting d := hkept.subset (hperm.symm.subset hn)
  refine ⟨hperm.nodup_iff.1 (h.nodup.sublist hkept), fun n hn => h.opened n (hmem hn), ?_⟩
  exact fun w hw hidle hn => h.idle w hw hidle (hmem hn)

/-- **A save that fails** leaves the configuration as it is. -/
theorem failed (h : Current first d run) {r : SaveRequest} {rest : List SaveRequest}
    (hcommands : d.commands = r :: rest) (hout : x.output = some (.saved r.window false))
    {replies : List SaveReply} {manager : World}
    (hreplies : replies = d.replies ∨
      ∃ error, replies = d.replies ++ [⟨r.window, r.config, .error error⟩])
    (hviews : manager.configViews = d.manager.configViews) :
    Current first { d with manager, commands := rest, replies } (run ++ [x]) := by
  obtain ⟨base, tail, hun, htail⟩ := h.exists_unanswered hcommands
  obtain ⟨hlength, hunanswered, hsucceeded⟩ := lists_saved hout hun
  -- the replies that count are those there were
  have hok {r' : SaveReply} (hresult : r'.result = .ok ()) : r' ∈ replies ↔ r' ∈ d.replies := by
    rcases hreplies with rfl | ⟨error, rfl⟩
    · exact Iff.rfl
    · refine ⟨fun hr => ?_, List.mem_append_left _⟩
      rcases List.mem_append.1 hr with hr | hr
      · exact hr
      · rw [List.mem_singleton.1 hr] at hresult
        simp at hresult
  have hsub : (waiting { d with manager, commands := rest, replies }).Subperm (waiting d) :=
    waiting_next hcommands rfl (hreplies.imp_right fun ⟨error, heq⟩ => ⟨_, heq⟩)
  obtain ⟨hnodup, hopened, hidle⟩ := h.waiting_fewer hsub
  refine { serial := ?_, length := hlength, commands := ?_, base := ?_, replies := ?_,
           nodup := hnodup, opened := hopened, number := h.number, idle := hidle, copy := ?_ }
  · rw [hsucceeded, hviews]
    simpa using h.serial
  · rw [hunanswered]
    exact htail
  · rw [hunanswered, hviews]
    exact fun p hp => (h.base p (hun ▸ List.mem_cons_of_mem _ hp)).imp_right Crossed.concat
  · rw [hviews]
    exact fun r' hr hresult =>
      (h.replies r' ((hok hresult).1 hr) hresult).imp_right Crossed.concat
  · rw [hviews]
    intro w hw
    refine (h.copy w hw).imp_right (Or.imp Crossed.concat ?_)
    rintro ⟨r', hr, hrw, hresult⟩
    exact ⟨r', (hok hresult).2 hr, hrw, hresult⟩

/-- **A save that succeeds** publishes the copy with its change, which was
made on the configuration that was published. -/
theorem published (h : Current first d run) {r : SaveRequest} {rest : List SaveRequest}
    (hcommands : d.commands = r :: rest) (hbefore : x.before = d)
    (hout : x.output = some (.saved r.window true)) (hturn : InTurn (run ++ [x]))
    {manager : World} (hviews : manager.configViews = r.config) :
    Current first
      { d with manager, commands := rest, replies := d.replies ++ [⟨r.window, r.config, .ok ()⟩] }
      (run ++ [x]) := by
  obtain ⟨base, tail, hun, htail⟩ := h.exists_unanswered hcommands
  obtain ⟨hlength, hunanswered, hsucceeded⟩ := lists_saved hout hun
  have hbase : base = d.manager.configViews := by
    rcases h.base (r.window, ⟨base, r.config⟩) (hun ▸ List.mem_cons_self) with heq | hcrossed
    · exact heq
    · exact absurd hcrossed (hturn.not_crossed hout)
  -- the copies of all other windows are out of date now
  have hcrossed {n : ℕ} (hn : n ≠ r.window) (hlt : n < d.opened) : Crossed (run ++ [x]) n :=
    ⟨x, List.mem_append_right _ (List.mem_singleton_self x), r.window, hout, Ne.symm hn,
      by rw [hbefore]; exact hlt⟩
  have hnodup := h.nodup
  rw [waiting, hcommands, List.map_cons, List.cons_append, List.nodup_cons] at hnodup
  have hother {n : ℕ} (hn : n ∈ rest.map SaveRequest.window ++ d.replies.map SaveReply.window) :
      n ≠ r.window ∧ n < d.opened := by
    refine ⟨fun heq => hnodup.1 (heq ▸ hn), h.opened n ?_⟩
    rw [waiting, hcommands]
    exact List.mem_cons_of_mem _ hn
  have hsub : (waiting { d with
      manager, commands := rest, replies := d.replies ++ [⟨r.window, r.config, .ok ()⟩] }).Subperm
      (waiting d) := waiting_next hcommands rfl (.inr ⟨_, rfl⟩)
  obtain ⟨hstill, hopened, hidle⟩ := h.waiting_fewer hsub
  refine { serial := ?_, length := hlength, commands := ?_, base := ?_, replies := ?_,
           nodup := hstill, opened := hopened, number := h.number, idle := hidle, copy := ?_ }
  · rw [hsucceeded, hviews]
    exact h.serial.concat hbase
  · rw [hunanswered]
    exact htail
  · rw [hunanswered]
    intro p hp
    have hwindow : p.1 ∈ rest.map SaveRequest.window := by
      have hmem := List.mem_map_of_mem (f := fun p : ℕ × Edited DomainConfig => (p.1, p.2.result)) hp
      rw [htail] at hmem
      obtain ⟨r', hr', heq⟩ := List.mem_map.1 hmem
      exact List.mem_map.2 ⟨r', hr', (Prod.mk.inj heq).1⟩
    obtain ⟨hne, hlt⟩ := hother (List.mem_append_left _ hwindow)
    exact .inr (hcrossed hne hlt)
  · intro r' hr hresult
    rcases List.mem_append.1 hr with hr | hr
    · obtain ⟨hne, hlt⟩ := hother (List.mem_append_right _ (List.mem_map_of_mem hr))
      exact .inr (hcrossed hne hlt)
    · rw [List.mem_singleton.1 hr]
      exact .inl hviews.symm
  · intro w hw
    by_cases heq : w.number = r.window
    · exact .inr (.inr ⟨_, List.mem_append_right _ (List.mem_singleton_self _), heq.symm, rfl⟩)
    · exact .inr (.inl (hcrossed heq (h.number w hw)))

/-- **The manager takes the next save.** -/
theorem saveNext (h : Current first d run) (home : Option PathBuf) (codec : Codec) (env : Env)
    (hbefore : x.before = d) (hx : x.output = (d.saveNext home codec env).1)
    (hturn : InTurn (run ++ [x])) :
    Current first (d.saveNext home codec env).2 (run ++ [x]) := by
  unfold Desktop.saveNext at hx ⊢
  cases hcommands : d.commands with
  | nil =>
      rw [hcommands] at hx
      exact h.unchanged hx
  | cons r rest =>
      rw [hcommands] at hx
      dsimp only at hx ⊢
      by_cases hrun : (!d.manager.running) = true
      · rw [if_pos hrun] at hx ⊢
        exact h.failed hcommands hx (.inr ⟨_, rfl⟩) rfl
      · rw [if_neg hrun] at hx ⊢
        have hcases := World.saveConfig_cases home codec env d.directory r.config r.secret d.manager
        rcases hsave : d.manager.saveConfig home codec env d.directory r.config r.secret with
          ⟨result, manager⟩
        rw [hsave] at hx hcases
        obtain ⟨stores, ⟨hvalue, hmanager⟩ | ⟨hvalue, hmanager⟩⟩ := hcases
        · dsimp only at hvalue hmanager
          subst hvalue hmanager
          have hviews := (World.replaceConfig_installs env r.config
            { d.manager with stores }).2.2.2.1
          exact h.published hcommands hbefore hx hturn hviews
        · dsimp only at hvalue hmanager
          subst hmanager
          cases result with
          | value u => exact absurd rfl hvalue
          | error error => exact h.failed hcommands hx (.inr ⟨error, rfl⟩) rfl
          | cut => exact h.failed hcommands hx (.inl rfl) rfl

theorem manage (h : Current first d run) (home : Option PathBuf) (codec : Codec)
    (input : Manager.Input) (hx : x.output = (d.step home codec (.manage input)).1) :
    Current first (d.step home codec (.manage input)).2 (run ++ [x]) := by
  rcases manage_cases home codec d input with heq | ⟨manager, hviews, heq⟩
  · rw [heq] at hx ⊢
    exact h.unchanged hx
  · rw [heq] at hx ⊢
    exact h.quiet hx hviews rfl (List.Sublist.refl _) (Nat.le_refl _) fun _ hw => h.window_kept hw

/-- **Every input keeps the invariant**, as long as the windows save in
turn. -/
theorem step (h : Current first d run) (home : Option PathBuf) (codec : Codec) (input : Input)
    (hturn : InTurn (run ++
      [⟨d, input, (d.step home codec input).1, (d.step home codec input).2⟩])) :
    Current first (d.step home codec input).2 (run ++
      [⟨d, input, (d.step home codec input).1, (d.step home codec input).2⟩]) := by
  cases input with
  | «open» => exact h.openWindow rfl
  | edit edit unsent => exact h.editConfig home edit unsent rfl
  | save env => exact h.saveNext home codec env rfl rfl hturn
  | deliver => exact h.deliverNext rfl
  | close => exact h.closeWindow rfl
  | manage input => exact h.manage home codec input rfl

end Current

/-- **In every run** in which the windows save in turn. -/
theorem current_reached (home : Option PathBuf) (codec : Codec) (w : World) (directory : PathBuf)
    (is : List Input) (hturn : InTurn (trace (step home codec) { manager := w, directory } is)) :
    Current w.configViews (runState (step home codec) { manager := w, directory } is)
      (trace (step home codec) { manager := w, directory } is) := by
  refine trace_invariant (I := fun d run => InTurn run → Current w.configViews d run) (fun _ => ?_)
    (fun js i ih hturn => ?_) is hturn
  · exact { serial := rfl, length := Nat.le_refl _, commands := rfl,
            base := by simp [unanswered, sends], replies := by simp, nodup := by simp [waiting],
            opened := by simp [waiting], number := by simp, idle := by simp, copy := by simp }
  · exact (ih (List.pairwise_append.1 hturn).1).step home codec i hturn

/-- **No edit is lost where the windows save in turn**: in every run, the
published configuration has every edit whose save succeeded, up to later
edits of the same item. -/
theorem noLostEdits_of_inTurn (home : Option PathBuf) (codec : Codec) (w : World)
    (directory : PathBuf) (is : List Input)
    (hturn : InTurn (trace (step home codec) { manager := w, directory } is)) :
    NoLostEdits (trace (step home codec) { manager := w, directory } is)
      (runState (step home codec) { manager := w, directory } is).manager.configViews :=
  (current_reached home codec w directory is hturn).serial.keeps

/-! ## Two windows -/

/-- The manager of an empty configuration. -/
def freshWorld : World where
  hosts := []
  groups := []
  tunnels := ∅
  current := ∅
  snapshots := ∅
  configViews := {}

def officeDocument : ConfigDocument where
  groups := [⟨"office", "Office", 1⟩]

def homeDocument : ConfigDocument where
  groups := [⟨"home", "Home", 1⟩]

def bothDocument : ConfigDocument where
  groups := [⟨"office", "Office", 1⟩, ⟨"home", "Home", 2⟩]

/-- A document with these groups, as a text. -/
def groupsText (document : ConfigDocument) : String :=
  "schema_version = 1\nhosts = []\ntunnels = []\n\n[app]\ntheme = \"system\"\n" ++
  "run_at_startup = false\nminimize_to_tray = true\ntraffic_monitor = false\n" ++
  String.join (document.groups.map fun group =>
    "\n[[groups]]\nid = \"" ++ group.id ++ "\"\nname = \"" ++ group.name ++
    "\"\nsort_order = " ++ digits 10 group.sortOrder ++ "\n")

/-- `toml` on the three documents. -/
def groupsCodec : Codec where
  toStringPretty document :=
    if document ∈ [officeDocument, homeDocument, bothDocument] then .ok (groupsText document)
    else .error "unsupported"
  fromStr text :=
    match [officeDocument, homeDocument, bothDocument].find? fun document =>
        groupsText document = text with
    | some document => .ok document
    | none => .error "unsupported"

def addOffice : Input := .edit (.group ⟨"office"⟩ "Office") none

def addHome : Input := .edit (.group ⟨"home"⟩ "Home") none

/-- The second window is opened after the first one's save. -/
def inTurnInputs : List Input :=
  [.open, addOffice, .close, .save calm, .open, addHome, .save calm, .deliver, .deliver]

/-- It is opened while that save is in the channel. -/
def overtakingInputs : List Input :=
  [.open, addOffice, .close, .open, addHome, .save calm, .save calm, .deliver, .deliver]

/-- Both groups are there in the end. -/
theorem noLostEdits_inTurn :
    (succeeded (trace (step none groupsCodec) { manager := freshWorld, directory := appDirectory }
      inTurnInputs)).length = 2 ∧
    NoLostEdits
      (trace (step none groupsCodec) { manager := freshWorld, directory := appDirectory } inTurnInputs)
      (runState (step none groupsCodec) { manager := freshWorld, directory := appDirectory }
        inTurnInputs).manager.configViews :=
  ⟨by decide +kernel, noLostEdits_of_inTurn none groupsCodec freshWorld appDirectory inTurnInputs
    (by decide +kernel)⟩

/-- **An edit is lost**: both saves succeed, and the group that was added
first is gone. -/
theorem not_noLostEdits_overtaking :
    ¬ NoLostEdits
      (trace (step none groupsCodec) { manager := freshWorld, directory := appDirectory }
        overtakingInputs)
      (runState (step none groupsCodec) { manager := freshWorld, directory := appDirectory }
        overtakingInputs).manager.configViews := by
  intro h
  have hsucceeded : succeeded (trace (step none groupsCodec)
      { manager := freshWorld, directory := appDirectory } overtakingInputs) =
      [⟨{}, { groups := [⟨⟨"office"⟩, "Office", 1⟩] }⟩,
        ⟨{}, { groups := [⟨⟨"home"⟩, "Home", 1⟩] }⟩] := by
    decide +kernel
  have hoffice := h [] _ _ hsucceeded (.group ⟨"office"⟩) (by decide) (by decide)
  revert hoffice
  decide +kernel

end Desktop

end App

end TunnelWarden
