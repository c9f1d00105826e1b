import TunnelWarden.Common.Run
import TunnelWarden.Manager.Desk

/-!
# What a handshake can do

The step of a handshake, inverted once (`Turn`), and what each input of
the system does to the handshakes and to the lines of the files.
-/

namespace TunnelWarden

namespace Manager

open Ssh

namespace System

variable {known : KnownHosts} {home : Option PathBuf} {codec : Codec}
variable {s : System} {k j : ℕ} {h : Handshake} {look : Look} {control : Control}

/-- A step of the system in a run. -/
abbrev Stage := Step System Input (Option Event)

/-- The lines at a path. -/
def lines (s : System) (path : PathBuf) : List String := (s.files.lookup path).getD []

@[simp] theorem length_setControl :
    (s.setControl k control).handshakes.length = s.handshakes.length := by
  simp [setControl]

theorem setControl_handshake (h' : Handshake)
    (hj : (s.setControl k control).handshakes[j]? = some h') :
    ∃ h, s.handshakes[j]? = some h ∧ h'.verifier = h.verifier ∧ h'.serverKey = h.serverKey ∧
      h'.control = if k = j then control else h.control := by
  rw [setControl, List.getElem?_modify] at hj
  obtain ⟨h, hh, rfl⟩ := Option.map_eq_some_iff.1 hj
  refine ⟨h, hh, ?_⟩
  split
  · exact ⟨rfl, rfl, rfl⟩
  · exact ⟨rfl, rfl, rfl⟩

/-- A handshake whose place was set is the same but for it. -/
theorem eq_of_setControl {t : System} {h' : Handshake} (ht : t.handshakes = s.handshakes)
    (hk : s.handshakes[k]? = some h)
    (hk' : (t.setControl k control).handshakes[k]? = some h') : h' = { h with control } := by
  simpa [setControl, List.getElem?_modify, ht, hk, eq_comm] using hk'

theorem lines_of_files {t : System} (ht : t.files = s.files) (path : PathBuf) :
    t.lines path = s.lines path := by
  rw [lines, ht, lines]

theorem lines_appendLine (path path' : PathBuf) (line : String) :
    (s.appendLine path line).lines path' =
      if path' = path then s.lines path' ++ [line] else s.lines path' := by
  unfold lines appendLine
  dsimp only
  rw [Map.lookup_insert_eq]
  split
  · rename_i heq
    rw [heq]; rfl
  · rfl

/-- The save lock is all that `unlock` is about. -/
theorem of_unlock {t : System} (ht : t = s ∨ t = s.unlock) :
    t.handshakes = s.handshakes ∧ t.files = s.files ∧ t.prompts = s.prompts ∧
      t.manager = s.manager := by
  rcases ht with rfl | rfl
  · exact ⟨rfl, rfl, rfl, rfl⟩
  · exact ⟨rfl, rfl, rfl, rfl⟩

/-! ## One step of a handshake -/

/-- **What a handshake does when it goes on.** -/
inductive Turn (known : KnownHosts) (s : System) (k : ℕ) (h : Handshake) (look : Look) :
    Option Event → System → Prop where
  /-- It has to wait, or it is over. -/
  | idle (hc : (∃ approval, h.control = .waiting approval) ∨
        (∃ approval decision, h.control = .answered approval decision) ∨
        (∃ result, h.control = .done result) ∨ h.control = .dropped) :
      Turn known s k h look none s
  | read {path : PathBuf} {rest : List PathBuf} {found matched : Bool}
      (hc : h.control = .checking (path :: rest) found)
      (hok : h.verifier.checkPath known h.key path (s.files.lookup path) look = .ok matched) :
      Turn known s k h look none (s.setControl k (.checking rest (found || matched)))
  | reject {t : System} (error : HostKeyError) (ht : t = s ∨ t = s.unlock) :
      Turn known s k h look (some (.ended k (.error error)))
        (t.setControl k (.done (.error error)))
  | accept {t : System} (ht : t = s ∨ t = s.unlock)
      (hc : h.control = .checking [] true ∨ (∃ approval, h.control = .answered approval .trustOnce) ∨
        h.control = .saved (.ok ())) :
      Turn known s k h look (some (.ended k (.ok true))) (t.setControl k (.done (.ok true)))
  | ask (approval : HostKeyApproval) (hc : h.control = .checking [] false) :
      Turn known s k h look (some (.asked k))
        ({ s with prompts := s.prompts ++ [h.prompt k] }.setControl k (.waiting approval))
  | hear {approval : HostKeyApproval} {decision : HostKeyDecision}
      (hc : h.control = .waiting approval)
      (hd : (k, decision) ∈ s.manager.decisions ∨ decision = .cancel) :
      Turn known s k h look (some (.heard k decision))
        (s.setControl k (.answered approval decision))
  | lock {approval : HostKeyApproval} (hc : h.control = .answered approval .trustAndSave) :
      Turn known s k h look none ({ s with saveLock := some k }.setControl k
        (.rechecking approval.savePath h.verifier.paths true))
  | reread {path savePath : PathBuf} {rest : List PathBuf} {attached : Bool}
      (hc : h.control = .rechecking savePath (path :: rest) attached)
      (hok : h.verifier.recheckPath known h.key path (s.files.lookup path) look = .ok false) :
      Turn known s k h look none (s.setControl k (.rechecking savePath rest attached))
  /-- The early end of the second loop: the key is in a file. -/
  | found {path savePath : PathBuf} {rest : List PathBuf} {attached : Bool}
      (hc : h.control = .rechecking savePath (path :: rest) attached)
      (hok : h.verifier.recheckPath known h.key path (s.files.lookup path) look = .ok true) :
      Turn known s k h look none
        (s.setControl k (if attached then .saved (.ok ()) else .dropped))
  | fail {savePath : PathBuf} {rest : List PathBuf} {attached : Bool} (error : HostKeyError)
      (hc : h.control = .rechecking savePath rest attached) :
      Turn known s k h look none
        (s.setControl k (if attached then .saved (.error error) else .dropped))
  | learn {savePath : PathBuf} {attached : Bool}
      (hc : h.control = .rechecking savePath [] attached) :
      Turn known s k h look none
        ((s.appendLine savePath (known.entry h.verifier.host h.verifier.port h.key)).setControl k
          (if attached then .saved (.ok ()) else .dropped))

theorem ask_turn (approval : HostKeyApproval) (hc : h.control = .checking [] false) :
    Turn known s k h look (s.ask k h approval).1 (s.ask k h approval).2 := by
  unfold ask
  split
  · exact .reject _ (.inl rfl)
  · exact .ask approval hc

theorem hear_turn {approval : HostKeyApproval} (hc : h.control = .waiting approval) :
    Turn known s k h look (s.hear k approval).1 (s.hear k approval).2 := by
  unfold hear
  cases hfind : s.manager.decisions.find? fun d => d.1 = k with
  | none =>
      dsimp only
      split
      · exact .idle (.inl ⟨approval, hc⟩)
      · exact .hear hc (.inr rfl)
  | some d =>
      have hmem := List.mem_of_find?_eq_some hfind
      have hk : d.1 = k := by simpa using List.find?_some hfind
      exact .hear hc (.inl (hk ▸ hmem))

/-- **Every step of a handshake is a turn.** -/
theorem advance_turn (known : KnownHosts) (look : Look) (hh : s.handshakes[k]? = some h) :
    Turn known s k h look (s.advance known k look).1 (s.advance known k look).2 := by
  unfold advance
  rw [hh]
  dsimp only
  cases hc : h.control with
  | checking rest found =>
      cases rest with
      | nil =>
          cases found with
          | true => exact .accept (.inl rfl) (.inl hc)
          | false =>
              dsimp only
              split
              · exact .reject _ (.inl rfl)
              · exact ask_turn _ hc
      | cons path rest =>
          dsimp only
          cases hcheck : h.verifier.checkPath known h.key path (s.files.lookup path) look with
          | error error => exact .reject error (.inl rfl)
          | ok matched => exact .read hc hcheck
  | waiting approval => exact hear_turn hc
  | answered approval decision =>
      cases decision with
      | trustOnce => exact .accept (.inl rfl) (.inr (.inl ⟨approval, hc⟩))
      | trustAndSave =>
          dsimp only
          split
          · exact .idle (.inr (.inl ⟨approval, _, hc⟩))
          · exact .lock hc
      | cancel => exact .reject _ (.inl rfl)
  | rechecking savePath rest attached =>
      cases rest with
      | nil =>
          dsimp only
          split
          · exact .fail _ hc
          · exact .learn hc
      | cons path rest =>
          dsimp only
          cases hcheck : h.verifier.recheckPath known h.key path (s.files.lookup path) look with
          | error error => exact .fail error hc
          | ok matched =>
              cases matched with
              | true => exact .found hc hcheck
              | false => exact .reread hc hcheck
  | saved result =>
      cases result with
      | error error => exact .reject error (.inr rfl)
      | ok u => exact .accept (.inr rfl) (.inr (.inr hc))
  | done result => exact .idle (.inr (.inr (.inl ⟨result, hc⟩)))
  | dropped => exact .idle (.inr (.inr (.inr hc)))

/-- A handshake that is not there does not go on. -/
theorem advance_none (hh : s.handshakes[k]? = none) : s.advance known k look = (none, s) := by
  unfold advance
  rw [hh]

namespace Turn

variable {event : Option Event} {t : System}

/-- Of the handshakes, a turn changes its own place at most. -/
theorem handshakes_eq (ht : Turn known s k h look event t) : t.handshakes = s.handshakes ∨
    ∃ u control, u.handshakes = s.handshakes ∧ t = setControl k control u := by
  cases ht with
  | idle hc => exact .inl rfl
  | reject error ht => exact .inr ⟨_, _, (of_unlock ht).1, rfl⟩
  | accept ht hc => exact .inr ⟨_, _, (of_unlock ht).1, rfl⟩
  | ask approval hc => exact .inr ⟨{ s with prompts := s.prompts ++ [h.prompt k] }, _, rfl, rfl⟩
  | lock hc => exact .inr ⟨{ s with saveLock := some k }, _, rfl, rfl⟩
  | learn hc => exact .inr ⟨s.appendLine _ _, _, rfl, rfl⟩
  | _ => exact .inr ⟨s, _, rfl, rfl⟩

theorem handshake (ht : Turn known s k h look event t) {h' : Handshake}
    (hj : t.handshakes[j]? = some h') :
    ∃ h, s.handshakes[j]? = some h ∧ h'.verifier = h.verifier ∧ h'.serverKey = h.serverKey ∧
      (j ≠ k → h'.control = h.control) := by
  rcases ht.handshakes_eq with heq | ⟨u, control, hu, rfl⟩
  · rw [heq] at hj
    exact ⟨h', hj, rfl, rfl, fun _ => rfl⟩
  · obtain ⟨h, hh, hv, hkey, hc⟩ := setControl_handshake h' hj
    rw [hu] at hh
    exact ⟨h, hh, hv, hkey, fun hne => by rw [hc, if_neg (Ne.symm hne)]⟩

/-- What a handshake does to the files: it adds one line, if any. -/
theorem lines (ht : Turn known s k h look event t) (path : PathBuf) :
    t.lines path = s.lines path ∨ ∃ line, t.lines path = s.lines path ++ [line] := by
  have hsame {u : System} {control : Control} (hu : u.files = s.files) :
      (u.setControl k control).lines path = s.lines path := lines_of_files hu path
  cases ht with
  | reject error ht => exact .inl (hsame (of_unlock ht).2.1)
  | accept ht hc => exact .inl (hsame (of_unlock ht).2.1)
  | @learn savePath attached hc =>
      have happend := lines_appendLine (s := s) savePath path
        (known.entry h.verifier.host h.verifier.port h.key)
      split at happend
      · exact .inr ⟨_, happend⟩
      · exact .inl happend
  | _ => exact .inl rfl

/-- Where a turn accepts, nothing is left to be read, and nothing is
written. -/
theorem accepts (hturn : Turn known s k h look event t)
    (hevent : event = some (.ended j (.ok true))) :
    k = j ∧ t.files = s.files ∧
      (h.control = .checking [] true ∨ (∃ approval, h.control = .answered approval .trustOnce) ∨
        h.control = .saved (.ok ())) := by
  cases hturn with
  | accept ht hc =>
      simp only [Option.some.injEq, Event.ended.injEq, and_true] at hevent
      exact ⟨hevent, (of_unlock ht).2.1, hc⟩
  | reject error ht => simp at hevent
  | _ => simp at hevent

theorem heard {decision : HostKeyDecision} (hturn : Turn known s k h look event t)
    (hevent : event = some (.heard j decision)) :
    k = j ∧ ∃ approval, h.control = .waiting approval ∧
      ((k, decision) ∈ s.manager.decisions ∨ decision = .cancel) ∧
      t = s.setControl k (.answered approval decision) := by
  cases hturn with
  | @hear approval decision' hc hd =>
      simp only [Option.some.injEq, Event.heard.injEq] at hevent
      obtain ⟨rfl, rfl⟩ := hevent
      exact ⟨rfl, approval, hc, hd, rfl⟩
  | reject error ht => simp at hevent
  | accept ht hc => simp at hevent
  | _ => simp at hevent

end Turn

/-! ## One input of the system -/

/-- A place that is the same, up to a future that was dropped. The save
it waited for goes on. -/
def Stays (control control' : Control) : Prop :=
  control' = control ∨ control' = .dropped ∨ ∃ savePath rest,
    control = .rechecking savePath rest true ∧ control' = .rechecking savePath rest false

/-- What becomes of the place of a handshake whose future is dropped. -/
theorem drop_handshake {h' : Handshake} (hj : (s.drop home codec k).handshakes[j]? = some h') :
    ∃ h, s.handshakes[j]? = some h ∧ h'.verifier = h.verifier ∧ h'.serverKey = h.serverKey ∧
      Stays h.control h'.control := by
  unfold drop at hj
  cases hk : s.handshakes[k]? with
  | none =>
      rw [hk] at hj
      exact ⟨h', hj, rfl, rfl, .inl rfl⟩
  | some hs =>
      rw [hk] at hj
      dsimp only at hj
      -- a place is set in all cases but those in which nothing is left to drop
      have hset {u : System} {control : Control} (hu : u.handshakes = s.handshakes)
          (hstays : Stays hs.control control)
          (hj : (u.setControl k control).handshakes[j]? = some h') :
          ∃ h, s.handshakes[j]? = some h ∧ h'.verifier = h.verifier ∧
            h'.serverKey = h.serverKey ∧ Stays h.control h'.control := by
        obtain ⟨h, hh, hv, hkey, hc⟩ := setControl_handshake h' hj
        rw [hu] at hh
        refine ⟨h, hh, hv, hkey, ?_⟩
        split at hc
        · rename_i hkj
          rw [← hkj, hk] at hh
          rw [hc, ← Option.some.inj hh]
          exact hstays
        · exact .inl hc
      split at hj
      · exact hset rfl (.inr (.inl rfl)) hj
      · exact hset rfl (.inr (.inl rfl)) hj
      · exact hset rfl (.inr (.inl rfl)) hj
      · rename_i savePath rest hcontrol
        exact hset rfl (.inr (.inr ⟨savePath, rest, hcontrol, rfl⟩)) hj
      · exact hset rfl (.inr (.inl rfl)) hj
      all_goals exact ⟨h', hj, rfl, rfl, .inl rfl⟩

theorem drop_files : (s.drop home codec k).files = s.files := by
  unfold drop
  repeat' split
  all_goals rfl

theorem drop_prompts : (s.drop home codec k).prompts = s.prompts := by
  unfold drop
  repeat' split
  all_goals rfl

theorem drop_desk : (s.drop home codec k).manager.desk = s.manager.desk := by
  unfold drop
  repeat' split
  all_goals first | rfl | exact World.giveUp_desk home codec s.manager k

theorem drop_length : (s.drop home codec k).handshakes.length = s.handshakes.length := by
  unfold drop
  repeat' split
  all_goals simp [unlock]

/-- The inputs that leave the handshakes and the files alone. -/
def Input.Aside : Input → Prop
  | .receive | .manage _ | .close => True
  | _ => False

theorem step_aside (input : Input) (hin : input.Aside) :
    (s.step known home codec input).1 = none ∧
      (s.step known home codec input).2.handshakes = s.handshakes ∧
      (s.step known home codec input).2.files = s.files := by
  cases input with
  | receive =>
      dsimp only [step]
      split
      · exact ⟨rfl, rfl, rfl⟩
      · split
        · exact ⟨rfl, rfl, rfl⟩
        · exact ⟨rfl, rfl, rfl⟩
  | manage input => cases input <;> exact ⟨rfl, rfl, rfl⟩
  | close =>
      dsimp only [step]
      split
      · exact ⟨rfl, rfl, rfl⟩
      · exact ⟨rfl, rfl, rfl⟩
  | _ => exact hin.elim

/-- What an input does to the files: one of them gets a line, if any. -/
theorem step_lines (input : Input) (path : PathBuf) :
    (s.step known home codec input).2.lines path = s.lines path ∨
      ∃ line, (s.step known home codec input).2.lines path = s.lines path ++ [line] := by
  cases input with
  | connect verifier serverKey =>
      refine .inl (lines_of_files ?_ path)
      dsimp only [step, connect]
      split
      · rfl
      · cases serverKey <;> rfl
  | advance k look =>
      cases hk : s.handshakes[k]? with
      | none => exact .inl (congrArg (fun r : Option Event × System => r.2.lines path) (advance_none hk))
      | some h => exact (advance_turn known look hk).lines path
  | drop k => exact .inl (lines_of_files drop_files path)
  | append path' line =>
      have happend := lines_appendLine (s := s) path' path line
      split at happend
      · exact .inr ⟨line, happend⟩
      · exact .inl happend
  | receive => exact .inl (lines_of_files (step_aside .receive trivial).2.2 path)
  | manage input => exact .inl (lines_of_files (step_aside (.manage input) trivial).2.2 path)
  | close => exact .inl (lines_of_files (step_aside .close trivial).2.2 path)

/-- **What an input makes of a handshake**: it is a new one, its own
turn, or its place is the same up to a dropped future. -/
theorem step_handshake {input : Input} {h' : Handshake}
    (hj : (s.step known home codec input).2.handshakes[j]? = some h') :
    (j = s.handshakes.length ∧ input = .connect h'.verifier h'.serverKey ∧
      (h'.control = .checking h'.verifier.paths false ∨ ∃ result, h'.control = .done result)) ∨
    ∃ h, s.handshakes[j]? = some h ∧ h'.verifier = h.verifier ∧ h'.serverKey = h.serverKey ∧
      ((∃ look, input = .advance j look) ∨ Stays h.control h'.control) := by
  have hsame (h : s.handshakes[j]? = some h') : ∃ h, s.handshakes[j]? = some h ∧
      h'.verifier = h.verifier ∧ h'.serverKey = h.serverKey ∧
      ((∃ look, input = .advance j look) ∨ Stays h.control h'.control) :=
    ⟨h', h, rfl, rfl, .inr (.inl rfl)⟩
  cases input with
  | connect verifier serverKey =>
      have hnew {control : Control}
          (hj : (s.handshakes ++ [(⟨verifier, serverKey, control⟩ : Handshake)])[j]? = some h')
          (hc : control = .checking verifier.paths false ∨ ∃ result, control = .done result) :
          (j = s.handshakes.length ∧
            Input.connect verifier serverKey = .connect h'.verifier h'.serverKey ∧
            (h'.control = .checking h'.verifier.paths false ∨
              ∃ result, h'.control = .done result)) ∨ s.handshakes[j]? = some h' := by
        -- the new handshake is the last one
        rcases Nat.lt_trichotomy j s.handshakes.length with hlt | rfl | hgt
        · rw [List.getElem?_append_left hlt] at hj
          exact .inr hj
        · simp only [List.getElem?_append_right (Nat.le_refl _), Nat.sub_self,
            List.getElem?_cons_zero, Option.some.injEq] at hj
          subst hj
          exact .inl ⟨rfl, rfl, hc⟩
        · rw [List.getElem?_eq_none (by simp; omega)] at hj
          simp at hj
      simp only [step, connect] at hj
      split at hj
      · exact (hnew hj (.inr ⟨_, rfl⟩)).imp_right hsame
      · cases serverKey with
        | publicKey key => exact (hnew hj (.inl rfl)).imp_right hsame
        | certificate key => exact (hnew hj (.inr ⟨_, rfl⟩)).imp_right hsame
  | advance k look =>
      refine .inr ?_
      change (s.advance known k look).2.handshakes[j]? = some h' at hj
      cases hk : s.handshakes[k]? with
      | none =>
          rw [advance_none hk] at hj
          exact hsame hj
      | some hs =>
          obtain ⟨h, hh, hv, hkey, hc⟩ := (advance_turn known look hk).handshake hj
          by_cases hjk : j = k
          · exact ⟨h, hh, hv, hkey, .inl ⟨look, by rw [hjk]⟩⟩
          · exact ⟨h, hh, hv, hkey, .inr (.inl (hc hjk))⟩
  | drop k =>
      obtain ⟨h, hh, hv, hkey, hc⟩ := drop_handshake hj
      exact .inr ⟨h, hh, hv, hkey, .inr hc⟩
  | append path line => exact .inr (hsame hj)
  | receive =>
      rw [(step_aside .receive trivial).2.1] at hj
      exact .inr (hsame hj)
  | manage input =>
      rw [(step_aside (.manage input) trivial).2.1] at hj
      exact .inr (hsame hj)
  | close =>
      rw [(step_aside .close trivial).2.1] at hj
      exact .inr (hsame hj)

/-- No handshake is forgotten. -/
theorem length_le_step (known : KnownHosts) (home : Option PathBuf) (codec : Codec) (input : Input) :
    s.handshakes.length ≤ (s.step known home codec input).2.handshakes.length := by
  cases input with
  | connect verifier serverKey =>
      dsimp only [step, connect]
      split
      · simp
      · cases serverKey <;> simp
  | advance k look =>
      cases hk : s.handshakes[k]? with
      | none => rw [step, advance_none hk]
      | some h =>
          rcases (advance_turn known look hk).handshakes_eq with
            heq | ⟨u, control, hu, heq⟩
          · exact (congrArg List.length heq).ge
          · rw [step, heq, length_setControl, hu]
  | drop k => exact drop_length.ge
  | append path line => exact Nat.le_refl _
  | receive => rw [(step_aside .receive trivial).2.1]
  | manage input => rw [(step_aside (.manage input) trivial).2.1]
  | close => rw [(step_aside .close trivial).2.1]

/-- **What is seen of an input** is the end of a handshake that has only
begun, or the turn of one. -/
theorem step_event {input : Input} {event : Event}
    (houtput : (s.step known home codec input).1 = some event) :
    (∃ verifier serverKey result, input = .connect verifier serverKey ∧
      event = .ended s.handshakes.length result ∧
      (result = .ok true → verifier.policy = .bypass)) ∨
    ∃ k look h, input = .advance k look ∧ s.handshakes[k]? = some h ∧
      Turn known s k h look (some event) (s.step known home codec input).2 := by
  cases input with
  | connect verifier serverKey =>
      simp only [step, connect] at houtput
      split at houtput
      · rename_i hbypass
        exact .inl ⟨verifier, serverKey, _, rfl, (Option.some.inj houtput).symm, fun _ => hbypass⟩
      · cases serverKey with
        | publicKey key => simp at houtput
        | certificate key =>
            exact .inl ⟨verifier, _, _, rfl, (Option.some.inj houtput).symm, nofun⟩
  | advance k look =>
      cases hk : s.handshakes[k]? with
      | none =>
          rw [step, advance_none hk] at houtput
          simp at houtput
      | some h =>
          have hturn := advance_turn known look hk
          rw [show (s.advance known k look).1 = some event from houtput] at hturn
          exact .inr ⟨k, look, h, rfl, hk, hturn⟩
  | drop k => simp [step] at houtput
  | append path line => simp [step] at houtput
  | receive =>
      rw [(step_aside .receive trivial).1] at houtput
      simp at houtput
  | manage input =>
      rw [(step_aside (.manage input) trivial).1] at houtput
      simp at houtput
  | close =>
      rw [(step_aside .close trivial).1] at houtput
      simp at houtput

/-- **Who accepts**: a handshake that checks nothing, at once, and one
that found the key in a file or was told to trust it. No file is written
then. -/
theorem step_accepts {input : Input}
    (houtput : (s.step known home codec input).1 = some (.ended k (.ok true))) :
    (∃ verifier serverKey, input = .connect verifier serverKey ∧ verifier.policy = .bypass ∧
      k = s.handshakes.length) ∨
    ∃ h, s.handshakes[k]? = some h ∧ (s.step known home codec input).2.files = s.files ∧
      (h.control = .checking [] true ∨ (∃ approval, h.control = .answered approval .trustOnce) ∨
        h.control = .saved (.ok ())) := by
  rcases step_event houtput with ⟨verifier, serverKey, result, hin, hevent, hbypass⟩ |
    ⟨j, look, h, -, hj, hturn⟩
  · obtain ⟨rfl, rfl⟩ := Event.ended.inj hevent
    exact .inl ⟨verifier, serverKey, hin, hbypass rfl, rfl⟩
  · obtain ⟨rfl, hfiles, hc⟩ := hturn.accepts rfl
    exact .inr ⟨h, hj, hfiles, hc⟩

/-- **Who hears an answer**: a handshake that waits for one. -/
theorem step_heard {input : Input} {decision : HostKeyDecision}
    (houtput : (s.step known home codec input).1 = some (.heard k decision)) :
    ∃ h approval, s.handshakes[k]? = some h ∧ h.control = .waiting approval ∧
      ((k, decision) ∈ s.manager.decisions ∨ decision = .cancel) ∧
      (s.step known home codec input).2 = s.setControl k (.answered approval decision) := by
  rcases step_event houtput with ⟨_, _, _, -, hevent, -⟩ | ⟨j, look, h, -, hj, hturn⟩
  · simp at hevent
  · obtain ⟨rfl, approval, hc, hd, ht⟩ := hturn.heard rfl
    exact ⟨h, approval, hj, hc, hd, ht⟩

end System

end Manager

end TunnelWarden
