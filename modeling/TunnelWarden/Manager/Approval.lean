import TunnelWarden.Manager.Bookkeeping
import TunnelWarden.Manager.Handshakes

/-!
# The prompt the user answered

A prompt goes from the handshake through the channel to the manager,
which files it under an id and publishes it, and the answer goes back to
the handshake. `Passage` says what one input does to the prompts on
their way. From it, three invariants of every run: the ids are those of
the prompts in the order in which they were filed (`Numbered`), every
handshake has at most one prompt or answer on its way (`Addressed`), and
trust goes back to the user's answer to the prompt of that handshake
(`Attributed`).
-/

namespace TunnelWarden

namespace Manager

open Ssh

namespace System

variable {known : KnownHosts} {home : Option PathBuf} {codec : Codec}
variable {s t : System} {k : ℕ} {h h' : Handshake}

/-! ## How far a handshake is -/

/-- Before it asks, while it waits, and after. -/
def rank : Control → ℕ
  | .checking .. => 0
  | .waiting _ => 1
  | _ => 2

theorem rank_le_two (control : Control) : rank control ≤ 2 := by
  cases control <;> simp [rank]

/-- A turn does not lead back. -/
theorem Turn.rank_le {look : Look} {event : Option Event} (hturn : Turn known s k h look event t)
    (hh : s.handshakes[k]? = some h) (hh' : t.handshakes[k]? = some h') :
    rank h.control ≤ rank h'.control := by
  -- each turn sets the place once, so the place after it is known
  have hset {u : System} {control : Control} (hu : u.handshakes = s.handshakes)
      (hh' : (u.setControl k control).handshakes[k]? = some h')
      (hrank : rank h.control ≤ rank control) : rank h.control ≤ rank h'.control := by
    rw [eq_of_setControl hu hh hh']
    exact hrank
  have hover {u : System} {control : Control} (hu : u.handshakes = s.handshakes)
      (hh' : (u.setControl k control).handshakes[k]? = some h') (hrank : rank control = 2) :
      rank h.control ≤ rank h'.control :=
    hset hu hh' (hrank ▸ rank_le_two h.control)
  cases hturn with
  | idle hc => rw [Option.some.inj (hh.symm.trans hh')]
  | read hc hok => exact hset rfl hh' (by simp [hc, rank])
  | reject error ht => exact hover (of_unlock ht).1 hh' rfl
  | accept ht hc => exact hover (of_unlock ht).1 hh' rfl
  | ask approval hc => exact hset rfl hh' (by simp [hc, rank])
  | hear hc hd => exact hover rfl hh' rfl
  | lock hc => exact hover rfl hh' rfl
  | reread hc hok => exact hover rfl hh' rfl
  | found hc hok => exact hover rfl hh' (by split <;> rfl)
  | fail error hc => exact hover rfl hh' (by split <;> rfl)
  | learn hc => exact hover rfl hh' (by split <;> rfl)

/-- A handshake that asks has asked. -/
theorem Turn.asked {look : Look} {event : Option Event} (hturn : Turn known s k h look event t)
    (hh : s.handshakes[k]? = some h) (hh' : t.handshakes[k]? = some h')
    (hevent : event = some (.asked k)) : 0 < rank h'.control := by
  cases hturn with
  | ask approval hc =>
      rw [eq_of_setControl rfl hh hh']
      exact Nat.one_pos
  | reject error ht => simp at hevent
  | accept ht hc => simp at hevent
  | _ => simp at hevent

/-- **A handshake after one input**: it is still there, for the same
server, and no less far. -/
theorem step_later (known : KnownHosts) (home : Option PathBuf) (codec : Codec) (input : Input)
    (hh : s.handshakes[k]? = some h) :
    ∃ h', (s.step known home codec input).2.handshakes[k]? = some h' ∧
      h'.verifier = h.verifier ∧ h'.serverKey = h.serverKey ∧
      rank h.control ≤ rank h'.control := by
  have hk : k < s.handshakes.length := (List.getElem?_eq_some_iff.1 hh).1
  have hk' := Nat.lt_of_lt_of_le hk (length_le_step known home codec input)
  refine ⟨_, List.getElem?_eq_getElem hk', ?_⟩
  rcases step_handshake (List.getElem?_eq_getElem hk') with ⟨hnew, -⟩ | ⟨g, hg, hv, hkey, hc⟩
  · omega
  · obtain rfl := Option.some.inj (hh.symm.trans hg)
    refine ⟨hv, hkey, ?_⟩
    rcases hc with ⟨look, rfl⟩ | hc | hc | ⟨savePath, rest, hc, hc'⟩
    · exact (advance_turn known _ hh).rank_le hh (List.getElem?_eq_getElem hk')
    · rw [hc]
    · rw [hc]; exact rank_le_two _
    · rw [hc']; exact rank_le_two _

/-! ## One input and the prompts -/

/-- **What an input does to the prompts on their way.** -/
inductive Passage (s t : System) : Input → Option Event → Prop where
  /-- Nothing, but that the channel may be dropped. -/
  | pass {input : Input} {event : Option Event} (hevent : ∀ k, event ≠ some (.asked k))
      (hprompts : t.prompts.Sublist s.prompts) (hdesk : t.manager.desk = s.manager.desk) :
      Passage s t input event
  | ask {k : ℕ} {look : Look} {h : Handshake} (hh : s.handshakes[k]? = some h)
      (hc : rank h.control = 0) (hprompts : t.prompts = s.prompts ++ [h.prompt k])
      (hdesk : t.manager.desk = s.manager.desk) : Passage s t (.advance k look) (some (.asked k))
  | refuse {q : HostKeyPrompt} (hprompts : s.prompts = q :: t.prompts)
      (hdesk : t.manager.desk = { s.manager.desk with
        decisions := s.manager.decisions ++ [(q.reply, .cancel)] }) : Passage s t .receive none
  | queue {q : HostKeyPrompt} (hprompts : s.prompts = q :: t.prompts)
      (hroom : s.manager.pendingHostKeys.length < maxHostKeyPrompts)
      (hdesk : t.manager.desk = { s.manager.desk.withPrompts
        (s.manager.pendingHostKeys ++ [s.manager.desk.filed q]) with
          next := max ((s.manager.nextHostKeyId + 1) % 2 ^ 64) 1 }) : Passage s t .receive none
  | resolve {pre post : List PendingHostKey} {p : PendingHostKey} {decision : HostKeyDecision}
      {env : Env} (hrun : s.manager.running = true)
      (hpending : s.manager.pendingHostKeys = pre ++ p :: post) (hprompts : t.prompts = s.prompts)
      (hdesk : t.manager.desk = { s.manager.desk.withPrompts (pre ++ post) with
        decisions := s.manager.decisions ++ [(p.reply, decision)] }) :
      Passage s t (.manage (.command (.resolveHostKey p.view.id decision) env)) none
  | prune {input : Input} {kept : List PendingHostKey}
      (hkept : kept.Sublist s.manager.pendingHostKeys) (hprompts : t.prompts = s.prompts)
      (hdesk : t.manager.desk = s.manager.desk.withPrompts kept) : Passage s t input none
  | shut {input : Input} (hprompts : t.prompts = s.prompts)
      (hdesk : t.manager.desk = { s.manager.desk with pending := [], running := false }) :
      Passage s t input none

theorem advance_passage (look : Look) (hh : s.handshakes[k]? = some h)
    {event : Option Event} (hturn : Turn known s k h look event t) :
    Passage s t (.advance k look) event := by
  have hpass {u : System} {control : Control} {event : Option Event}
      (hevent : ∀ j, event ≠ some (.asked j))
      (hu : u.handshakes = s.handshakes ∧ u.files = s.files ∧ u.prompts = s.prompts ∧
        u.manager = s.manager) : Passage s (u.setControl k control) (.advance k look) event :=
    .pass hevent (hu.2.2.1 ▸ List.Sublist.refl u.prompts) (congrArg World.desk hu.2.2.2)
  cases hturn with
  | reject error ht => exact hpass (by simp) (of_unlock ht)
  | accept ht hc => exact hpass (by simp) (of_unlock ht)
  | ask approval hc => exact .ask hh (by simp [hc, rank]) rfl rfl
  | _ => exact .pass (by simp) (List.Sublist.refl _) rfl

/-- What the manager does with the prompts when anything but a prompt
reaches it. -/
theorem manage_passage {input : Manager.Input} (hprompt : ∀ q, input ≠ .prompt q)
    (hprompts : t.prompts = s.prompts)
    (hmove : Desk.Move input s.manager.desk t.manager.desk) : Passage s t (.manage input) none := by
  generalize hd : s.manager.desk = d at hmove
  generalize hd' : t.manager.desk = d' at hmove
  cases hmove with
  | stay => exact .pass (by simp) (hprompts ▸ List.Sublist.refl _) (hd'.trans hd.symm)
  | refuse prompt hrun hfull => exact absurd rfl (hprompt prompt)
  | queue prompt hrun hroom => exact absurd rfl (hprompt prompt)
  | resolve decision env hrun hpending =>
      subst hd
      exact .resolve hrun hpending hprompts hd'
  | prune env hkept =>
      subst hd
      exact .prune hkept hprompts hd'
  | shut env =>
      subst hd
      exact .shut hprompts hd'

theorem receive_passage {q : HostKeyPrompt} (hprompts : s.prompts = q :: t.prompts)
    (hmove : Desk.Move (.prompt q) s.manager.desk t.manager.desk) : Passage s t .receive none := by
  generalize hd : s.manager.desk = d at hmove
  generalize hd' : t.manager.desk = d' at hmove
  cases hmove with
  | stay =>
      exact .pass (by simp) (hprompts ▸ List.sublist_cons_self _ _) (hd'.trans hd.symm)
  | refuse _ hrun hfull =>
      subst hd
      exact .refuse hprompts hd'
  | queue _ hrun hroom =>
      subst hd
      exact .queue hprompts hroom hd'

/-- **Every input is a passage.** -/
theorem step_passage (known : KnownHosts) (home : Option PathBuf) (codec : Codec) (s : System)
    (input : Input) :
    Passage s (s.step known home codec input).2 input (s.step known home codec input).1 := by
  cases input with
  | connect verifier serverKey =>
      dsimp only [step, connect]
      split
      · exact .pass (by simp) (List.Sublist.refl _) rfl
      · cases serverKey <;> exact .pass (by simp) (List.Sublist.refl _) rfl
  | advance k look =>
      cases hk : s.handshakes[k]? with
      | none =>
          rw [step, advance_none hk]
          exact .pass (by simp) (List.Sublist.refl _) rfl
      | some h => exact advance_passage look hk (advance_turn known look hk)
  | drop k =>
      have hprompts : (s.drop home codec k).prompts.Sublist s.prompts := by rw [drop_prompts]
      exact .pass (by simp [step]) hprompts drop_desk
  | receive =>
      dsimp only [step]
      split
      · exact .pass (by simp) (List.Sublist.refl _) rfl
      · rename_i q rest hprompts
        split
        · exact receive_passage hprompts (World.step_move home codec s.manager (.prompt q))
        · exact .pass (by simp) (List.Sublist.refl _) rfl
  | manage input =>
      have hmove := World.step_move home codec s.manager input
      cases input with
      | prompt q => exact .pass (by simp [step]) (List.Sublist.refl _) rfl
      | giveUp reply => exact .pass (by simp [step]) (List.Sublist.refl _) rfl
      | command command env => exact manage_passage (by simp) rfl hmove
      | tick env => exact manage_passage (by simp) rfl hmove
      | report task state => exact manage_passage (by simp) rfl hmove
      | exit task result => exact manage_passage (by simp) rfl hmove
      | shutdown env => exact manage_passage (by simp) rfl hmove
  | close =>
      dsimp only [step]
      split
      · exact .pass (by simp) (List.Sublist.refl _) rfl
      · exact .pass (by simp) (List.nil_sublist _) rfl
  | append path line => exact .pass (by simp [step]) (List.Sublist.refl _) rfl

/-! ## The ids -/

/-- The step sends a prompt. -/
def isAsk (x : Stage) : Bool :=
  match x.output with
  | some (.asked _) => true
  | _ => false

/-- How many prompts were sent in a run. -/
def promptCount (run : List Stage) : ℕ := run.countP isAsk

/-- **The ids are those of the prompts in the order in which they were
filed.** `filed` are the prompts of the run that were given an id, and
`waiting` is how many are in the channel. -/
structure Numbered (d : Desk) (waiting : ℕ) (run : List Stage) (filed : List PendingHostKey) :
    Prop where
  ids : ∀ i p, filed[i]? = some p → p.view.id = i + 1
  next : d.next = max ((filed.length + 1) % 2 ^ 64) 1
  count : filed.length + waiting ≤ promptCount run
  pending : d.pending.Sublist filed
  past : ∀ x ∈ run, ∀ p ∈ x.before.manager.pendingHostKeys, p ∈ filed
  bounded : d.pending.length ≤ maxHostKeyPrompts
  published : d.running = true → d.views = d.pending.map PendingHostKey.view

namespace Numbered

variable {d : Desk} {waiting : ℕ} {run : List Stage} {filed : List PendingHostKey}

/-- An id is given once. -/
theorem eq_of_id (hn : Numbered d waiting run filed) {p q : PendingHostKey} (hp : p ∈ filed)
    (hq : q ∈ filed) (hid : p.view.id = q.view.id) : p = q := by
  obtain ⟨i, hi⟩ := List.mem_iff_getElem?.1 hp
  obtain ⟨j, hj⟩ := List.mem_iff_getElem?.1 hq
  have hpi := hn.ids i p hi
  have hqj := hn.ids j q hj
  have hij : i = j := by omega
  rw [hij, hj] at hi
  exact (Option.some.inj hi).symm

theorem nodup_ids (hn : Numbered d waiting run filed) :
    (d.pending.map fun p => p.view.id).Nodup := by
  have hfiled : (filed.map fun p => p.view.id).Nodup := by
    refine List.pairwise_map.2 (List.pairwise_iff_getElem.2 fun i j hi hj hij => ?_)
    have hpi := hn.ids i _ (List.getElem?_eq_getElem hi)
    have hpj := hn.ids j _ (List.getElem?_eq_getElem hj)
    omega
  exact hfiled.sublist (hn.pending.map _)

/-- The steps of the run so far, and the next one. -/
theorem past_concat {x : Stage} (hn : Numbered x.before.manager.desk waiting run filed)
    {filed' : List PendingHostKey} (hfiled : ∀ p ∈ filed, p ∈ filed') :
    ∀ y ∈ run ++ [x], ∀ p ∈ y.before.manager.pendingHostKeys, p ∈ filed' := by
  intro y hy p hp
  rcases List.mem_append.1 hy with hy | hy
  · exact hfiled p (hn.past y hy p hp)
  · rw [List.mem_singleton.1 hy] at hp
    exact hfiled p (hn.pending.subset hp)

/-- The number of a prompt that is filed now. -/
theorem file {x : Stage} {q : HostKeyPrompt}
    (hn : Numbered x.before.manager.desk (waiting + 1) run filed)
    (hfew : promptCount (run ++ [x]) < 2 ^ 64) (hle : promptCount run ≤ promptCount (run ++ [x]))
    (hroom : x.before.manager.pendingHostKeys.length < maxHostKeyPrompts) :
    Numbered { x.before.manager.desk.withPrompts
        (x.before.manager.pendingHostKeys ++ [x.before.manager.desk.filed q]) with
          next := max ((x.before.manager.nextHostKeyId + 1) % 2 ^ 64) 1 }
      waiting (run ++ [x]) (filed ++ [x.before.manager.desk.filed q]) := by
  have hcount := hn.count
  -- the counter has not wrapped yet, so the id is the place in the list
  have hnext : x.before.manager.nextHostKeyId = filed.length + 1 := by
    have hnext := hn.next
    rw [Nat.mod_eq_of_lt (by omega)] at hnext
    exact hnext.trans (by omega)
  refine { ids := ?_, next := ?_, count := ?_, pending := ?_, past := ?_, bounded := ?_,
           published := fun _ => rfl }
  · intro i p hp
    rcases Nat.lt_trichotomy i filed.length with hi | rfl | hi
    · rw [List.getElem?_append_left hi] at hp
      exact hn.ids i p hp
    · simp only [List.getElem?_append_right (Nat.le_refl _), Nat.sub_self,
        List.getElem?_cons_zero, Option.some.injEq] at hp
      rw [← hp]
      exact hnext
    · rw [List.getElem?_eq_none (by simp; omega)] at hp
      simp at hp
  · simp [hnext]
  · simp only [List.length_append, List.length_singleton]
    omega
  · exact hn.pending.append (List.Sublist.refl _)
  · exact hn.past_concat fun p hp => List.mem_append_left _ hp
  · show (_ ++ [_] : List _).length ≤ _
    simp only [List.length_append, List.length_singleton]
    omega

/-- **One input keeps the numbers.** -/
theorem step {x : Stage} (hn : Numbered x.before.manager.desk x.before.prompts.length run filed)
    (hfew : promptCount (run ++ [x]) < 2 ^ 64)
    (hpassage : Passage x.before x.after x.input x.output) :
    ∃ filed', Numbered x.after.manager.desk x.after.prompts.length (run ++ [x]) filed' := by
  have hpast := hn.past_concat fun p hp => hp
  have hcount : promptCount (run ++ [x]) = promptCount run + if isAsk x then 1 else 0 := by
    simp [promptCount, List.countP_append, List.countP_singleton]
  have hle : promptCount run ≤ promptCount (run ++ [x]) := by omega
  have hbound := hn.count
  generalize hout : x.output = event at hpassage
  generalize hin : x.input = input at hpassage
  cases hpassage with
  | pass hevent hprompts hdesk =>
      have hlen := hprompts.length_le
      rw [hdesk]
      exact ⟨filed, { hn with count := by omega, past := hpast }⟩
  | ask hh hc hprompts hdesk =>
      have hask : isAsk x = true := by simp [isAsk, hout]
      have hlen : x.after.prompts.length = x.before.prompts.length + 1 := by rw [hprompts]; simp
      rw [hask, if_pos rfl] at hcount
      rw [hdesk]
      exact ⟨filed, { hn with count := by omega, past := hpast }⟩
  | refuse hprompts hdesk =>
      have hlen : x.before.prompts.length = x.after.prompts.length + 1 := by rw [hprompts]; simp
      rw [hdesk]
      exact ⟨filed, { hn with count := by omega, past := hpast }⟩
  | @queue q hprompts hroom hdesk =>
      have hlen : x.before.prompts.length = x.after.prompts.length + 1 := by rw [hprompts]; simp
      rw [hdesk]
      rw [hlen] at hn
      exact ⟨_, hn.file hfew hle hroom⟩
  | @resolve pre post p decision env hrun hpending hprompts hdesk =>
      have hsub : (pre ++ post).Sublist x.before.manager.desk.pending := by
        rw [World.desk, hpending]
        exact List.Sublist.append_left (List.sublist_cons_self _ _) _
      rw [hdesk, hprompts]
      exact ⟨filed, { hn with
        count := by omega, past := hpast, pending := hsub.trans hn.pending,
        bounded := hsub.length_le.trans hn.bounded, published := fun _ => rfl }⟩
  | prune hkept hprompts hdesk =>
      rw [hdesk, hprompts]
      exact ⟨filed, { hn with
        count := by omega, past := hpast, pending := hkept.trans hn.pending,
        bounded := hkept.length_le.trans hn.bounded, published := fun _ => rfl }⟩
  | shut hprompts hdesk =>
      rw [hdesk, hprompts]
      exact ⟨filed, { hn with
        count := by omega, past := hpast, pending := List.nil_sublist _,
        bounded := Nat.zero_le _, published := by simp }⟩

end Numbered

/-! ## The handshakes the prompts belong to -/

/-- The handshakes with a prompt or an answer on its way. -/
def replies (s : System) : List ℕ :=
  s.prompts.map HostKeyPrompt.reply ++ s.manager.pendingHostKeys.map PendingHostKey.reply ++
    s.manager.decisions.map Prod.fst

/-- The prompt as it is shown, for its handshake. -/
def Shows (s : System) (p : PendingHostKey) : Prop :=
  ∃ h, s.handshakes[p.reply]? = some h ∧ p.view =
    ⟨p.view.id, h.verifier.host, h.verifier.port, h.key.algorithm, h.key.fingerprint⟩

/-- **Each handshake has one prompt or answer on its way**, once it has
asked, and the prompts are its own. -/
structure Addressed (s : System) : Prop where
  nodup : (replies s).Nodup
  asked : ∀ k ∈ replies s, ∃ h, s.handshakes[k]? = some h ∧ 0 < rank h.control
  prompts : ∀ q ∈ s.prompts, ∃ h, s.handshakes[q.reply]? = some h ∧ q = h.prompt q.reply
  pending : ∀ p ∈ s.manager.pendingHostKeys, Shows s p

/-- **What an input makes of the replies on their way**: some may go, and
the one that comes is of a handshake that asks now. -/
theorem Passage.replies {input : Input} {event : Option Event} (hpassage : Passage s t input event) :
    (replies t).Subperm (replies s) ∨ ∃ k h look, s.handshakes[k]? = some h ∧ rank h.control = 0 ∧
      input = .advance k look ∧ event = some (.asked k) ∧ (replies t).Perm (k :: replies s) := by
  -- the list in terms of the desk; each case then counts one handshake on both sides
  have hparts (d : Desk) (ht : t.manager.desk = d) : System.replies t =
      t.prompts.map HostKeyPrompt.reply ++ d.pending.map PendingHostKey.reply ++
        d.decisions.map Prod.fst := by
    rw [← ht]; rfl
  have hs : System.replies s = s.prompts.map HostKeyPrompt.reply ++
      s.manager.desk.pending.map PendingHostKey.reply ++ s.manager.desk.decisions.map Prod.fst := rfl
  cases hpassage with
  | pass hevent hprompts hdesk =>
      rw [hparts _ hdesk, hs]
      exact .inl (((hprompts.map _).append (List.Sublist.refl _)).append
        (List.Sublist.refl _)).subperm
  | @ask k look h hh hc hprompts hdesk =>
      refine .inr ⟨k, h, look, hh, hc, rfl, rfl, ?_⟩
      rw [hparts _ hdesk, hs, hprompts, List.perm_iff_count]
      intro a
      simp only [Handshake.prompt, List.map_append, List.map_cons, List.map_nil,
        List.count_append, List.count_cons, List.count_nil]
      omega
  | refuse hprompts hdesk =>
      refine .inl (List.Perm.subperm ?_)
      rw [hparts _ hdesk, hs, hprompts, List.perm_iff_count]
      intro a
      simp only [World.desk, List.map_append, List.map_cons, List.map_nil, List.count_append,
        List.count_cons, List.count_nil]
      omega
  | queue hprompts hroom hdesk =>
      refine .inl (List.Perm.subperm ?_)
      rw [hparts _ hdesk, hs, hprompts, List.perm_iff_count]
      intro a
      simp only [World.desk, Desk.withPrompts, Desk.filed, List.map_append, List.map_cons,
        List.map_nil, List.count_append, List.count_cons, List.count_nil]
      omega
  | resolve hrun hpending hprompts hdesk =>
      refine .inl (List.Perm.subperm ?_)
      rw [hparts _ hdesk, hs, hprompts, List.perm_iff_count]
      intro a
      simp only [World.desk, Desk.withPrompts, hpending, List.map_append, List.map_cons,
        List.count_append, List.count_cons, List.map_nil, List.count_nil]
      omega
  | prune hkept hprompts hdesk =>
      rw [hparts _ hdesk, hs, hprompts]
      exact .inl (((List.Sublist.refl _).append (hkept.map _)).append
        (List.Sublist.refl _)).subperm
  | shut hprompts hdesk =>
      rw [hparts _ hdesk, hs, hprompts]
      exact .inl (((List.Sublist.refl _).append (List.nil_sublist _)).append
        (List.Sublist.refl _)).subperm

/-- The prompts in the channel and those shown, after an input. -/
theorem Passage.origin {input : Input} {event : Option Event} (hpassage : Passage s t input event) :
    (∀ q ∈ t.prompts, q ∈ s.prompts ∨
      ∃ (k : ℕ) (h : Handshake), s.handshakes[k]? = some h ∧ q = h.prompt k) ∧
      ∀ p ∈ t.manager.pendingHostKeys, p ∈ s.manager.pendingHostKeys ∨
        ∃ q ∈ s.prompts, p = s.manager.desk.filed q := by
  have hparts (d : Desk) (ht : t.manager.desk = d) : t.manager.pendingHostKeys = d.pending := by
    rw [← ht]; rfl
  cases hpassage with
  | pass hevent hprompts hdesk =>
      rw [hparts _ hdesk]
      exact ⟨fun q hq => .inl (hprompts.subset hq), fun p hp => .inl hp⟩
  | @ask k look h hh hc hprompts hdesk =>
      rw [hparts _ hdesk, hprompts]
      refine ⟨fun q hq => ?_, fun p hp => .inl hp⟩
      rcases List.mem_append.1 hq with hq | hq
      · exact .inl hq
      · exact .inr ⟨k, h, hh, List.mem_singleton.1 hq⟩
  | refuse hprompts hdesk =>
      rw [hparts _ hdesk, hprompts]
      exact ⟨fun q hq => .inl (List.mem_cons_of_mem _ hq), fun p hp => .inl hp⟩
  | @queue q hprompts hroom hdesk =>
      rw [hparts _ hdesk, hprompts]
      refine ⟨fun q hq => .inl (List.mem_cons_of_mem _ hq), fun p hp => ?_⟩
      rcases List.mem_append.1 hp with hp | hp
      · exact .inl hp
      · exact .inr ⟨q, List.mem_cons_self, List.mem_singleton.1 hp⟩
  | resolve hrun hpending hprompts hdesk =>
      rw [hparts _ hdesk, hprompts, hpending]
      refine ⟨fun q hq => .inl hq, fun p hp => .inl ?_⟩
      rcases List.mem_append.1 hp with hp | hp
      · exact List.mem_append_left _ hp
      · exact List.mem_append_right _ (List.mem_cons_of_mem _ hp)
  | prune hkept hprompts hdesk =>
      rw [hparts _ hdesk, hprompts]
      exact ⟨fun q hq => .inl hq, fun p hp => .inl (hkept.subset hp)⟩
  | shut hprompts hdesk =>
      rw [hparts _ hdesk, hprompts]
      exact ⟨fun q hq => .inl hq, fun p hp => by simp at hp⟩

namespace Addressed

variable {input : Input}

/-- A prompt is of the same handshake later on. -/
theorem prompt_later (input : Input) {q : HostKeyPrompt}
    (hq : ∃ h, s.handshakes[q.reply]? = some h ∧ q = h.prompt q.reply) :
    ∃ h, (s.step known home codec input).2.handshakes[q.reply]? = some h ∧
      q = h.prompt q.reply := by
  obtain ⟨h, hh, heq⟩ := hq
  obtain ⟨h', hh', hv, hkey, -⟩ := step_later known home codec input hh
  refine ⟨h', hh', heq.trans ?_⟩
  simp only [Handshake.prompt, Handshake.key, hv, hkey]

theorem shows_later (input : Input) {p : PendingHostKey} (hp : Shows s p) :
    Shows (s.step known home codec input).2 p := by
  obtain ⟨h, hh, heq⟩ := hp
  obtain ⟨h', hh', hv, hkey, -⟩ := step_later known home codec input hh
  exact ⟨h', hh', by rw [hv, Handshake.key, hkey]; exact heq⟩

/-- **One input keeps the addresses.** -/
theorem step (ha : Addressed s) (input : Input) :
    Addressed (s.step known home codec input).2 := by
  have hpassage := step_passage known home codec s input
  have hlater {k : ℕ} (hk : k ∈ replies s) :
      ∃ h, (s.step known home codec input).2.handshakes[k]? = some h ∧ 0 < rank h.control := by
    obtain ⟨h, hh, hrank⟩ := ha.asked k hk
    obtain ⟨h', hh', -, -, hle⟩ := step_later known home codec input hh
    exact ⟨h', hh', by omega⟩
  obtain ⟨hprompts, hpending⟩ := hpassage.origin
  refine { nodup := ?_, asked := ?_, prompts := fun q hq => ?_, pending := fun p hp => ?_ }
  · rcases hpassage.replies with hsub | ⟨k, h, look, hh, hrank, -, -, hperm⟩
    · obtain ⟨kept, hperm, hkept⟩ := hsub
      exact hperm.nodup_iff.1 (ha.nodup.sublist hkept)
    -- who asks now has not asked before
    · refine hperm.nodup_iff.2 (List.nodup_cons.2 ⟨fun hk => ?_, ha.nodup⟩)
      obtain ⟨g, hg, hpos⟩ := ha.asked k hk
      obtain rfl := Option.some.inj (hh.symm.trans hg)
      omega
  · intro k hk
    rcases hpassage.replies with hsub | ⟨j, h, look, hh, hrank, hin, hout, hperm⟩
    · exact hlater (hsub.subset hk)
    · rcases List.mem_cons.1 (hperm.subset hk) with rfl | hk
      · obtain ⟨h', hh', -⟩ := step_later known home codec input hh
        subst hin
        exact ⟨h', hh', (advance_turn known _ hh).asked hh hh' hout⟩
      · exact hlater hk
  · rcases hprompts q hq with hq | ⟨k, h, hh, rfl⟩
    · exact prompt_later input (ha.prompts q hq)
    · exact prompt_later input ⟨h, hh, rfl⟩
  · rcases hpending p hp with hp | ⟨q, hq, rfl⟩
    · exact shows_later input (ha.pending p hp)
    · refine shows_later input ?_
      obtain ⟨h, hh, heq⟩ := ha.prompts q hq
      refine ⟨h, hh, ?_⟩
      rw [heq]
      rfl

end Addressed

/-! ## Where trust comes from -/

/-- The step is the user's answer to the prompt of the handshake: a
`ResolveHostKey` with the id under which that prompt is published. -/
def Answers (x : Stage) (k : ℕ) (decision : HostKeyDecision) : Prop :=
  ∃ env p, x.input = .manage (.command (.resolveHostKey p.view.id decision) env) ∧
    x.before.manager.running = true ∧ p ∈ x.before.manager.pendingHostKeys ∧
    p.view ∈ x.before.manager.hostKeyViews ∧ p.reply = k ∧ Shows x.before p

/-- The decision by which a handshake goes on. -/
def trusts : Control → Option HostKeyDecision
  | .answered _ .trustOnce => some .trustOnce
  | .answered _ .trustAndSave | .rechecking .. | .saved _ => some .trustAndSave
  | .answered _ .cancel | .checking .. | .waiting _ | .done _ | .dropped => none

/-- **Trust goes back to an answer of the user.** -/
structure Attributed (s : System) (run : List Stage) : Prop where
  given : ∀ k d, (k, d) ∈ s.manager.decisions → d ≠ .cancel → ∃ y ∈ run, Answers y k d
  held : ∀ k h d, s.handshakes[k]? = some h → trusts h.control = some d →
    ∃ y ∈ run, Answers y k d

theorem ne_cancel_of_trusts {control : Control} {d : HostKeyDecision}
    (hd : trusts control = some d) : d ≠ .cancel := by
  rintro rfl
  unfold trusts at hd
  split at hd <;> simp at hd

/-- The decisions after an input. -/
theorem Passage.decisions {input : Input} {event : Option Event}
    (hpassage : Passage s t input event) {d : HostKeyDecision}
    (hd : (k, d) ∈ t.manager.decisions) :
    (k, d) ∈ s.manager.decisions ∨ d = .cancel ∨
      ∃ env p, input = .manage (.command (.resolveHostKey p.view.id d) env) ∧
        s.manager.running = true ∧ p ∈ s.manager.pendingHostKeys ∧ p.reply = k := by
  have hparts (desk : Desk) (ht : t.manager.desk = desk) :
      t.manager.decisions = desk.decisions := by rw [← ht]; rfl
  have hsame {desk : Desk} (ht : t.manager.desk = desk)
      (heq : desk.decisions = s.manager.decisions) : (k, d) ∈ s.manager.decisions := by
    rw [← heq, ← hparts desk ht]
    exact hd
  cases hpassage with
  | pass hevent hprompts hdesk => exact .inl (hsame hdesk rfl)
  | ask hh hc hprompts hdesk => exact .inl (hsame hdesk rfl)
  | refuse hprompts hdesk =>
      rw [hparts _ hdesk] at hd
      rcases List.mem_append.1 hd with hd | hd
      · exact .inl hd
      · exact .inr (.inl (Prod.mk.inj (List.mem_singleton.1 hd)).2)
  | queue hprompts hroom hdesk => exact .inl (hsame hdesk rfl)
  | @resolve pre post p decision env hrun hpending hprompts hdesk =>
      rw [hparts _ hdesk] at hd
      rcases List.mem_append.1 hd with hd | hd
      · exact .inl hd
      · obtain ⟨rfl, rfl⟩ := Prod.mk.inj (List.mem_singleton.1 hd)
        exact .inr (.inr ⟨env, p, rfl, hrun, by rw [hpending]; simp, rfl⟩)
  | prune hkept hprompts hdesk => exact .inl (hsame hdesk rfl)
  | shut hprompts hdesk => exact .inl (hsame hdesk rfl)

/-- A handshake comes to trust by a decision that was sent to it. -/
theorem Turn.trusts {look : Look} {event : Option Event} (hturn : Turn known s k h look event t)
    (hh : s.handshakes[k]? = some h) (hh' : t.handshakes[k]? = some h') {d : HostKeyDecision}
    (hd : trusts h'.control = some d) :
    trusts h.control = some d ∨ (k, d) ∈ s.manager.decisions := by
  have hset {u : System} {control : Control} (hu : u.handshakes = s.handshakes)
      (hh' : (u.setControl k control).handshakes[k]? = some h') :
      System.trusts control = some d := by
    rw [eq_of_setControl hu hh hh'] at hd
    exact hd
  cases hturn with
  | idle hc => exact .inl (Option.some.inj (hh.symm.trans hh') ▸ hd)
  | read hc hok =>
      have hnone := hset rfl hh'
      simp [System.trusts] at hnone
  | reject error ht =>
      have hnone := hset (of_unlock ht).1 hh'
      simp [System.trusts] at hnone
  | accept ht hc =>
      have hnone := hset (of_unlock ht).1 hh'
      simp [System.trusts] at hnone
  | ask approval hc =>
      have hnone := hset rfl hh'
      simp [System.trusts] at hnone
  | @hear approval decision hc hmem =>
      have hheard := hset rfl hh'
      cases decision with
      | cancel => simp [System.trusts] at hheard
      | _ =>
          obtain rfl := Option.some.inj hheard
          exact .inr (hmem.resolve_right (by simp))
  | lock hc =>
      have hkept := hset rfl hh'
      exact .inl (by rw [hc]; exact hkept)
  | reread hc hok =>
      have hkept := hset rfl hh'
      exact .inl (by rw [hc]; exact hkept)
  | @found path savePath rest attached hc hok =>
      have hkept := hset rfl hh'
      cases attached with
      | true => exact .inl (by rw [hc]; exact hkept)
      | false => simp [System.trusts] at hkept
  | @fail savePath rest attached error hc =>
      have hkept := hset rfl hh'
      cases attached with
      | true => exact .inl (by rw [hc]; exact hkept)
      | false => simp [System.trusts] at hkept
  | @learn savePath attached hc =>
      have hkept := hset rfl hh'
      cases attached with
      | true => exact .inl (by rw [hc]; exact hkept)
      | false => simp [System.trusts] at hkept

/-- **One input keeps the attribution.** -/
theorem Attributed.step {run : List Stage} (hattr : Attributed s run) (haddr : Addressed s)
    (hpublished : s.manager.running = true →
      s.manager.hostKeyViews = s.manager.pendingHostKeys.map PendingHostKey.view)
    (input : Input) :
    Attributed (s.step known home codec input).2 (run ++
      [⟨s, input, (s.step known home codec input).1, (s.step known home codec input).2⟩]) := by
  have hearlier {k : ℕ} {d : HostKeyDecision} {x : Stage} (hy : ∃ y ∈ run, Answers y k d) :
      ∃ y ∈ run ++ [x], Answers y k d := by
    obtain ⟨y, hy, hans⟩ := hy
    exact ⟨y, List.mem_append_left _ hy, hans⟩
  refine { given := fun k d hd hne => ?_, held := fun k h' d hh' hd => ?_ }
  · rcases (step_passage known home codec s input).decisions hd with
      hd | rfl | ⟨env, p, hin, hrun, hp, hk⟩
    · exact hearlier (hattr.given k d hd hne)
    · exact absurd rfl hne
    · -- this is the answer
      have hview : p.view ∈ s.manager.hostKeyViews := by
        rw [hpublished hrun]
        exact List.mem_map_of_mem hp
      exact ⟨_, List.mem_append_right _ (List.mem_singleton_self _), env, p, hin, hrun, hp, hview,
        hk, haddr.pending p hp⟩
  -- a handshake that has only begun trusts nothing yet
  · rcases step_handshake hh' with ⟨-, -, hc | ⟨result, hc⟩⟩ | ⟨h, hh, -, -, hc⟩
    · simp [hc, trusts] at hd
    · simp [hc, trusts] at hd
    · refine hearlier ?_
      rcases hc with ⟨look, rfl⟩ | hc | hc | ⟨savePath, rest, hc, hc'⟩
      · rcases (advance_turn known _ hh).trusts hh hh' hd with hd | hgiven
        · exact hattr.held k h d hh hd
        · exact hattr.given k d hgiven (ne_cancel_of_trusts hd)
      · exact hattr.held k h d hh (hc ▸ hd)
      · simp [hc, trusts] at hd
      · exact hattr.held k h d hh (by rw [hc]; rw [hc'] at hd; exact hd)

/-! ## One answer -/

/-- In this step the handshake hears an answer. -/
def hears (k : ℕ) (x : Stage) : Bool :=
  match x.output with
  | some (.heard j _) => j = k
  | _ => false

/-- **A handshake hears one answer**, and then waits no more. -/
structure HeardOnce (s : System) (run : List Stage) : Prop where
  once : ∀ k, run.countP (hears k) ≤ 1
  ended : ∀ x ∈ run, ∀ k, hears k x = true → ∃ h, s.handshakes[k]? = some h ∧ rank h.control = 2

theorem exists_heard {x : Stage} (hx : hears k x = true) : ∃ d, x.output = some (.heard k d) := by
  unfold hears at hx
  split at hx
  · rename_i d hout
    exact ⟨d, by rw [hout, of_decide_eq_true hx]⟩
  · simp at hx

theorem HeardOnce.step {run : List Stage} (hheard : HeardOnce s run) (input : Input) :
    HeardOnce (s.step known home codec input).2 (run ++
      [⟨s, input, (s.step known home codec input).1, (s.step known home codec input).2⟩]) := by
  generalize hx : (⟨s, input, (s.step known home codec input).1,
    (s.step known home codec input).2⟩ : Stage) = x
  have hout : x.output = (s.step known home codec input).1 := by rw [← hx]
  refine { once := fun k => ?_, ended := fun y hy k hk => ?_ }
  · rw [List.countP_append, List.countP_singleton]
    by_cases hnow : hears k x = true
    · -- who hears an answer now has heard none before
      obtain ⟨d, hd⟩ := exists_heard hnow
      obtain ⟨h, approval, hh, hc, -⟩ := step_heard (hout.symm.trans hd)
      have hnone : run.countP (hears k) = 0 := by
        refine List.countP_eq_zero.2 fun y hy hk => ?_
        obtain ⟨g, hg, hrank⟩ := hheard.ended y hy k hk
        obtain rfl := Option.some.inj (hh.symm.trans hg)
        rw [hc] at hrank
        simp [rank] at hrank
      rw [hnone, if_pos hnow]
    · rw [if_neg hnow]
      exact hheard.once k
  · rcases List.mem_append.1 hy with hy | hy
    · obtain ⟨h, hh, hrank⟩ := hheard.ended y hy k hk
      obtain ⟨h', hh', -, -, hle⟩ := step_later known home codec input hh
      exact ⟨h', hh', Nat.le_antisymm (rank_le_two _) (hrank ▸ hle)⟩
    · rw [List.mem_singleton.1 hy] at hk
      obtain ⟨d, hd⟩ := exists_heard hk
      obtain ⟨h, approval, hh, hc, -, hafter⟩ := step_heard (hout.symm.trans hd)
      obtain ⟨h', hh', -⟩ := step_later known home codec input hh
      refine ⟨h', hh', ?_⟩
      rw [hafter] at hh'
      rw [eq_of_setControl rfl hh hh']
      rfl

/-! ## Runs -/

/-- The four invariants. -/
structure Routing (s : System) (run : List Stage) : Prop where
  numbered : ∃ filed, Numbered s.manager.desk s.prompts.length run filed
  addressed : Addressed s
  attributed : Attributed s run
  heardOnce : HeardOnce s run

theorem Routing.launch {w : World} (hw : Booted w) (files : Map PathBuf (List String)) :
    Routing (launch files w) [] := by
  have hdesk := World.booted_desk hw
  have hpending : w.pendingHostKeys = [] := congrArg Desk.pending hdesk
  have hdecisions : w.decisions = [] := congrArg Desk.decisions hdesk
  refine { numbered := ⟨[], ?_⟩, addressed := ?_, attributed := ?_, heardOnce := ?_ }
  · show Numbered w.desk 0 [] []
    rw [hdesk]
    exact { ids := by simp, next := rfl, count := Nat.le_refl _, pending := List.Sublist.refl _,
            past := by simp, bounded := Nat.zero_le _, published := fun _ => rfl }
  · exact { nodup := by simp [replies, System.launch, hpending, hdecisions],
            asked := by simp [replies, System.launch, hpending, hdecisions],
            prompts := by simp [System.launch], pending := by simp [System.launch, hpending] }
  · exact { given := by simp [System.launch, hdecisions], held := by simp [System.launch] }
  · exact { once := by simp, ended := by simp }

theorem promptCount_append (run rest : List Stage) :
    promptCount run ≤ promptCount (run ++ rest) := by
  simp [promptCount, List.countP_append]

/-- **In every run** of fewer than 2^64 prompts. -/
theorem routing_reached (known : KnownHosts) (home : Option PathBuf) (codec : Codec) {w : World}
    (hw : Booted w) (files : Map PathBuf (List String))
    (is : List Input)
    (hfew : promptCount (trace (step known home codec) (launch files w) is) < 2 ^ 64) :
    Routing (runState (step known home codec) (launch files w) is)
      (trace (step known home codec) (launch files w) is) := by
  refine trace_invariant (I := fun s run => promptCount run < 2 ^ 64 → Routing s run)
    (fun _ => .launch hw files) (fun js i ih hfew => ?_) is hfew
  have hr := ih (Nat.lt_of_le_of_lt (promptCount_append _ _) hfew)
  obtain ⟨filed, hn⟩ := hr.numbered
  exact { numbered := Numbered.step hn hfew (step_passage known home codec _ i)
          addressed := hr.addressed.step i
          attributed := hr.attributed.step hr.addressed hn.published i
          heardOnce := hr.heardOnce.step i }

/-- What the manager keeps of the prompts between two rounds of its loop. -/
structure Tidy (w : World) : Prop where
  distinct : (w.pendingHostKeys.map fun p => p.view.id).Nodup
  bounded : w.pendingHostKeys.length ≤ maxHostKeyPrompts
  published : w.running = true → w.hostKeyViews = w.pendingHostKeys.map PendingHostKey.view

/-- The handshake accepts without a question: it checks nothing, or the
key is in a file. -/
def Unasked (x : Stage) (k : ℕ) : Prop :=
  (∃ verifier serverKey, x.input = .connect verifier serverKey ∧ verifier.policy = .bypass) ∨
    ∃ h, x.before.handshakes[k]? = some h ∧ h.control = .checking [] true

/-- The question of the handshake cannot be answered with trust any more:
it has to ask and the channel is full or closed, or its prompt is gone
without an answer other than `Cancel`. -/
def Denied (s : System) (k : ℕ) : Prop :=
  ∃ h approval, s.handshakes[k]? = some h ∧
    ((h.control = .checking [] false ∧ h.verifier.approval = some approval ∧
      (s.channelOpen = false ∨ maxHostKeyPrompts ≤ s.prompts.length)) ∨
    (h.control = .waiting approval ∧ s.holdsReply k = false ∧
      ∀ d, (k, d) ∈ s.manager.decisions → d = .cancel))

/-- The handshake's next turns reject the server, after it has heard a
`Cancel` or at once. -/
def Rejects (known : KnownHosts) (home : Option PathBuf) (codec : Codec) (s : System) (k : ℕ) :
    Prop :=
  ∀ look look', ∃ error,
    (s.step known home codec (.advance k look)).1 = some (.ended k (.error error)) ∨
    ((s.step known home codec (.advance k look)).1 = some (.heard k .cancel) ∧
      ((s.step known home codec (.advance k look)).2.step known home codec (.advance k look')).1 =
        some (.ended k (.error error)))

/-- A handshake that is denied is rejected. -/
theorem rejects_of_denied (hd : Denied s k) : Rejects known home codec s k := by
  intro look look'
  obtain ⟨h, approval, hh, ⟨hc, ha, hfull⟩ | ⟨hc, hgone, hcancel⟩⟩ := hd
  · refine ⟨.approvalUnavailable h.verifier.host h.verifier.port, .inl ?_⟩
    have hask : (!s.channelOpen || decide (maxHostKeyPrompts ≤ s.prompts.length)) = true := by
      simpa using hfull
    simp only [step, advance, hh, hc, ha, ask]
    rw [if_pos hask]
    rfl
  · have hheard : s.step known home codec (.advance k look) =
        (some (.heard k .cancel), s.setControl k (.answered approval .cancel)) := by
      simp only [step, advance, hh, hc, hear]
      cases hfind : s.manager.decisions.find? fun d => d.1 = k with
      | none => simp [hgone]
      | some d =>
          have hk : d.1 = k := by simpa using List.find?_some hfind
          have hd : d.2 = .cancel := hcancel d.2 (hk ▸ List.mem_of_find?_eq_some hfind)
          simp only [hd]
    refine ⟨.declined h.verifier.host h.verifier.port, .inr ?_⟩
    rw [hheard]
    refine ⟨rfl, ?_⟩
    have hh' : (s.setControl k (.answered approval .cancel)).handshakes[k]? =
        some { h with control := .answered approval .cancel } := by
      simp [setControl, hh]
    simp only [step, advance, hh']
    rfl

/-- **Approval goes to the prompt the user answered**, in every run with
fewer than 2^64 prompts: the prompts are kept and published in order,
with an id of their own for the whole run; a handshake gets one decision
and hears one; it hears trust only after the user gave it to its own
prompt, it accepts only then or where it need not ask, and it is
rejected where nobody can answer any more. -/
theorem approval_routed (known : KnownHosts) (home : Option PathBuf) (codec : Codec) {w : World}
    (hw : Booted w) (files : Map PathBuf (List String)) (is : List Input)
    (hfew : promptCount (trace (step known home codec) (launch files w) is) < 2 ^ 64) :
    (∀ t ∈ visited (step known home codec) (launch files w) is, Tidy t.manager) ∧
    (∀ t ∈ visited (step known home codec) (launch files w) is,
      ∀ u ∈ visited (step known home codec) (launch files w) is,
      ∀ p ∈ t.manager.pendingHostKeys, ∀ q ∈ u.manager.pendingHostKeys,
        p.view.id = q.view.id → p = q) ∧
    (∀ t ∈ visited (step known home codec) (launch files w) is,
      (t.manager.decisions.map Prod.fst).Nodup) ∧
    (∀ k, (trace (step known home codec) (launch files w) is).countP (hears k) ≤ 1) ∧
    (∀ pre x post, trace (step known home codec) (launch files w) is = pre ++ x :: post →
      ∀ k d, x.output = some (.heard k d) → d ≠ .cancel → ∃ y ∈ pre, Answers y k d) ∧
    (∀ pre x post, trace (step known home codec) (launch files w) is = pre ++ x :: post →
      ∀ k, x.output = some (.ended k (.ok true)) →
        Unasked x k ∨ ∃ y ∈ pre, ∃ d, d ≠ .cancel ∧ Answers y k d) ∧
    ∀ t ∈ visited (step known home codec) (launch files w) is, ∀ k, Denied t k →
      Rejects known home codec t k := by
  have hpart {js ks : List Input} (his : is = js ++ ks) :
      Routing (runState (step known home codec) (launch files w) js)
        (trace (step known home codec) (launch files w) js) := by
    refine routing_reached known home codec hw files js (Nat.lt_of_le_of_lt ?_ hfew)
    rw [his, trace_append]
    exact promptCount_append _ _
  have hvisited {t : System} (ht : t ∈ visited (step known home codec) (launch files w) is) :
      ∃ run, Routing t run := by
    obtain ⟨js, ks, his, rfl⟩ := exists_of_mem_visited ht
    exact ⟨_, hpart his⟩
  obtain ⟨filed, hn⟩ := (routing_reached known home codec hw files is hfew).numbered
  -- what was ever pending is on the list of the whole run
  have hfiled {t : System} (ht : t ∈ visited (step known home codec) (launch files w) is) :
      ∀ p ∈ t.manager.pendingHostKeys, p ∈ filed := by
    obtain ⟨js, ks, rfl, rfl⟩ := exists_of_mem_visited ht
    cases ks with
    | nil =>
        rw [List.append_nil] at hn
        exact fun p hp => hn.pending.subset hp
    | cons i ks =>
        rw [trace_append] at hn
        exact hn.past _ (List.mem_append_right _ List.mem_cons_self)
  have hbefore {pre post : List Stage} {x : Stage}
      (htrace : trace (step known home codec) (launch files w) is = pre ++ x :: post) :
      Routing x.before pre ∧ x.output = (step known home codec x.before x.input).1 := by
    obtain ⟨js, -, rfl, hx, -⟩ := trace_eq_append_cons htrace
    refine ⟨?_, (mem_trace (htrace ▸ List.mem_append_right _ List.mem_cons_self)).1⟩
    rw [hx]
    refine routing_reached known home codec hw files js (Nat.lt_of_le_of_lt ?_ hfew)
    rw [htrace]
    exact promptCount_append _ _
  refine ⟨?_, ?_, ?_, ?_, ?_, ?_, ?_⟩
  · intro t ht
    obtain ⟨run, hr⟩ := hvisited ht
    obtain ⟨filed, hn⟩ := hr.numbered
    exact ⟨hn.nodup_ids, hn.bounded, hn.published⟩
  · intro t ht u hu p hp q hq hid
    exact hn.eq_of_id (hfiled ht p hp) (hfiled hu q hq) hid
  · intro t ht
    obtain ⟨run, hr⟩ := hvisited ht
    exact (List.nodup_append.1 hr.addressed.nodup).2.1
  · exact (routing_reached known home codec hw files is hfew).heardOnce.once
  · intro pre x post htrace k d hd hne
    obtain ⟨hr, hout⟩ := hbefore htrace
    obtain ⟨h, approval, -, -, hgiven | hcancel, -⟩ := step_heard (hout.symm.trans hd)
    · exact hr.attributed.given k d hgiven hne
    · exact absurd hcancel hne
  · intro pre x post htrace k hk
    obtain ⟨hr, hout⟩ := hbefore htrace
    have hheld {h : Handshake} {d : HostKeyDecision} (hh : x.before.handshakes[k]? = some h)
        (hd : trusts h.control = some d) : ∃ y ∈ pre, ∃ d, d ≠ .cancel ∧ Answers y k d := by
      obtain ⟨y, hy, hans⟩ := hr.attributed.held k h d hh hd
      exact ⟨y, hy, d, ne_cancel_of_trusts hd, hans⟩
    rcases step_accepts (hout.symm.trans hk) with ⟨verifier, serverKey, hin, hbypass, -⟩ |
      ⟨h, hh, -, hc | ⟨approval, hc⟩ | hc⟩
    · exact .inl (.inl ⟨verifier, serverKey, hin, hbypass⟩)
    · exact .inl (.inr ⟨h, hh, hc⟩)
    · exact .inr (hheld hh (by rw [hc]; rfl))
    · exact .inr (hheld hh (by rw [hc]; rfl))
  · intro t ht k hd
    exact rejects_of_denied hd

end System

end Manager

/-! ## Two tunnels to one host -/

namespace Ssh

/-- What a plain line names before the key: the host, with its port where
that is not the usual one, and the algorithm. -/
def lineHead (host : String) (port : ℕ) (algorithm : String) : String :=
  (if port = 22 then host else "[" ++ host ++ "]:" ++ digits 10 port) ++ " " ++ algorithm ++ " "

/-- The line names the host and the algorithm with another key. -/
def namesOther (host : String) (port : ℕ) (key : PublicKey) (line : String) : Bool :=
  (lineHead host port key.algorithm).toList.isPrefixOf line.toList &&
    line ≠ lineHead host port key.algorithm ++ key.encoded

/-- `known_hosts` files of plain lines, one name each. -/
def KnownHosts.plain : KnownHosts where
  check host port key lines :=
    match lines.findIdx? (namesOther host port key) with
    | some n => .changed (n + 1)
    | none => .known (lineHead host port key.algorithm ++ key.encoded ∈ lines)
  unreadable _ _ _ _ := .known false
  entry host port key := lineHead host port key.algorithm ++ key.encoded

end Ssh

namespace Manager

open Ssh

namespace System

/-- The keys trusted in the application. -/
def appFile : PathBuf := .ofName "known_hosts"

/-- Two keys shown under one name. -/
def firstKey : PublicKey := ⟨"ssh-ed25519", "SHA256:first", "AAAAfirst"⟩
def secondKey : PublicKey := ⟨"ssh-ed25519", "SHA256:second", "AAAAsecond"⟩

def labVerifier : HostKeyVerifier where
  host := "lab.example"
  port := 22
  paths := [.ofName "home", appFile]
  policy := .strict
  approval := some ⟨appFile⟩

/-- A handshake reads both files and asks. -/
def askAbout (k : ℕ) (key : PublicKey) : List Input :=
  [.connect labVerifier (.publicKey key), .advance k {}, .advance k {}, .advance k {}, .receive]

/-- The user answers a prompt. -/
def answer (id : ℕ) (decision : HostKeyDecision) : Input :=
  .manage (.command (.resolveHostKey id decision) calm)

/-- The user trusts a new key once. -/
def trustOnceInputs : List Input :=
  askAbout 0 firstKey ++ [answer 1 .trustOnce, .advance 0 {}, .advance 0 {}]

/-- The same, with the other key saved by another tunnel while the prompt
is shown. -/
def raceInputs : List Input :=
  askAbout 0 firstKey ++ askAbout 1 secondKey ++
    [answer 2 .trustAndSave, .advance 1 {}, .advance 1 {}, .advance 1 {}, .advance 1 {},
      .advance 1 {}, .advance 1 {}, answer 1 .trustOnce, .advance 0 {}, .advance 0 {}]

/-- Two prompts, two answers. -/
theorem approval_routed_race :
    promptCount (trace (step .plain none defaultCodec) (launch ∅ labWorld) raceInputs) = 2 ∧
    (∀ t ∈ visited (step .plain none defaultCodec) (launch ∅ labWorld) raceInputs,
      Tidy t.manager) ∧
    (trace (step .plain none defaultCodec) (launch ∅ labWorld) raceInputs).countP (hears 0) ≤ 1 :=
  have hrun := approval_routed .plain none defaultCodec booted_labWorld ∅ raceInputs
    (by decide +kernel)
  ⟨by decide +kernel, hrun.1, hrun.2.2.2.1 0⟩

end System

end Manager

end TunnelWarden
