import TunnelWarden.Ssh.Model.Build

/-!
# A chain is built whole or not at all

The hops behind the first either all succeed or part at the first that
does not (`exists_failing`). Those before it leave a session each
(`buildRest_of_good`), and the one that fails takes all of them down
again, from the last on (`buildRest_of_bad`).
-/

namespace TunnelWarden

namespace Ssh

namespace SshChain

variable {net : Net} {hops rest good : List HopSpec} {hop : HopSpec}
variable {remote : Option RemoteEndpoint} {total index : ℕ}

/-! ## What a hop asks of the network -/

/-- The steps to a hop succeed: the channel, which the first hop does
without, and the connection. -/
def HopSucceeds (net : Net) (number : ℕ) (hop : HopSpec) : Prop :=
  (number = 1 ∨ openDirectTcpip net number hop = .ok ()) ∧ connectSession net number hop = .ok ()

/-- The hop of a chain that stands at a number succeeds. -/
def Succeeds (net : Net) (hops : List HopSpec) (number : ℕ) : Prop :=
  ∃ hop, hops[number - 1]? = some hop ∧ HopSucceeds net number hop

/-- The first hop that does not. -/
structure FirstFailing (net : Net) (hops : List HopSpec) (number : ℕ) : Prop where
  pos : 1 ≤ number
  le_length : number ≤ hops.length
  fails : ¬ Succeeds net hops number
  before : ∀ j, 1 ≤ j → j < number → Succeeds net hops j

/-- The hops of a list, which are numbered from `number` on, all
succeed. -/
def AllSucceed (net : Net) (number : ℕ) (hops : List HopSpec) : Prop :=
  ∀ j hop, hops[j]? = some hop → HopSucceeds net (number + j) hop

/-- The hop a channel or a connection was tried for. -/
def BuildStep.attempted : BuildStep → Option ℕ
  | openChannel _ hop => some hop
  | connect hop => some hop
  | disconnect _ => none

/-- The sessions of hops from a number on. -/
def sessionsFrom (total : ℕ) (remote : Option RemoteEndpoint) :
    ℕ → List HopSpec → List HopSession
  | _, [] => []
  | number, _ :: rest =>
    ⟨number, ⟨if number = total then remote else none, none⟩⟩ ::
      sessionsFrom total remote (number + 1) rest

/-- The steps to hops from a number on, which is not the first. -/
def stepsFrom : ℕ → List HopSpec → List BuildStep
  | _, [] => []
  | number, _ :: rest =>
    .openChannel (number - 1) number :: .connect number :: stepsFrom (number + 1) rest

theorem allSucceed_cons {number : ℕ} :
    AllSucceed net number (hop :: rest) ↔
      HopSucceeds net number hop ∧ AllSucceed net (number + 1) rest := by
  constructor
  · intro h
    refine ⟨h 0 hop rfl, fun j next hnext => ?_⟩
    have hsucc := h (j + 1) next hnext
    rwa [show number + (j + 1) = number + 1 + j by omega] at hsucc
  · rintro ⟨hhop, hrest⟩ j next hnext
    cases j with
    | zero => exact Option.some.inj hnext ▸ hhop
    | succ j =>
        have hsucc := hrest j next hnext
        rwa [show number + 1 + j = number + (j + 1) by omega] at hsucc

/-- **The hops all succeed, or part at the first that does not.** -/
theorem exists_failing (net : Net) (number : ℕ) (hops : List HopSpec) :
    AllSucceed net number hops ∨ ∃ good bad rest, hops = good ++ bad :: rest ∧
      AllSucceed net number good ∧ ¬ HopSucceeds net (number + good.length) bad := by
  induction hops generalizing number with
  | nil => exact .inl fun j hop h => by simp at h
  | cons hop hops ih =>
      by_cases hhop : HopSucceeds net number hop
      · rcases ih (number + 1) with hall | ⟨good, bad, rest, rfl, hgood, hbad⟩
        · exact .inl (allSucceed_cons.2 ⟨hhop, hall⟩)
        · refine .inr ⟨hop :: good, bad, rest, rfl, allSucceed_cons.2 ⟨hhop, hgood⟩, ?_⟩
          rwa [List.length_cons, show number + (good.length + 1) = number + 1 + good.length by omega]
      · exact .inr ⟨[], hop, hops, rfl, fun j hop h => by simp at h, hhop⟩

theorem allSucceed_iff : AllSucceed net 1 hops ↔
    ∀ k, 1 ≤ k → k ≤ hops.length → Succeeds net hops k := by
  constructor
  · intro h k hpos hle
    have hlt : k - 1 < hops.length := by omega
    have hget : hops[k - 1]? = some hops[k - 1] := List.getElem?_eq_getElem hlt
    have hsucc := h (k - 1) _ hget
    rw [show 1 + (k - 1) = k by omega] at hsucc
    exact ⟨_, hget, hsucc⟩
  · intro h j hop hget
    have hlt : j < hops.length := (List.getElem?_eq_some_iff.1 hget).1
    obtain ⟨hop', hget', hsucc⟩ := h (1 + j) (by omega) (by omega)
    rw [show 1 + j - 1 = j by omega, hget] at hget'
    exact Option.some.inj hget' ▸ hsucc

/-- Where the hops part, the hop is the first that fails. -/
theorem firstFailing_of_split (h : hops = good ++ hop :: rest) (hgood : AllSucceed net 1 good)
    (hbad : ¬ HopSucceeds net (1 + good.length) hop) :
    FirstFailing net hops (good.length + 1) := by
  have hlen := congrArg List.length h
  rw [List.length_append, List.length_cons] at hlen
  refine ⟨by omega, by omega, ?_, fun j hpos hlt => ?_⟩
  · rintro ⟨hop', hget, hsucc⟩
    rw [h, Nat.add_sub_cancel, List.getElem?_append_right le_rfl, Nat.sub_self] at hget
    obtain rfl := Option.some.inj hget
    rw [Nat.add_comm] at hbad
    exact hbad hsucc
  · obtain ⟨hop', hget, hsucc⟩ := allSucceed_iff.1 hgood j hpos (by omega)
    refine ⟨hop', ?_, hsucc⟩
    rw [h, List.getElem?_append_left (by omega), hget]

/-! ## The loop -/

theorem sessionsFrom_hops (number : ℕ) (hops : List HopSpec) :
    (sessionsFrom total remote number hops).map (·.hop) = List.range' number hops.length := by
  induction hops generalizing number with
  | nil => rfl
  | cons hop hops ih => rw [sessionsFrom, List.map_cons, ih, List.length_cons, List.range'_succ]

/-- Only the last session is set up for the remote forward. -/
theorem sessionsFrom_session {number : ℕ} {s : HopSession}
    (h : s ∈ sessionsFrom total remote number hops) :
    s.session = ⟨if s.hop = total then remote else none, none⟩ := by
  induction hops generalizing number with
  | nil => cases h
  | cons hop hops ih =>
      rcases List.mem_cons.1 h with rfl | h
      · rfl
      · exact ih h

theorem stepsFrom_attempted {number : ℕ} {step : BuildStep} (h : step ∈ stepsFrom number hops) :
    ∃ j, step.attempted = some j ∧ j < number + hops.length := by
  induction hops generalizing number with
  | nil => cases h
  | cons hop hops ih =>
      rw [List.length_cons]
      rcases List.mem_cons.1 h with rfl | h
      · exact ⟨number, rfl, by omega⟩
      · rcases List.mem_cons.1 h with rfl | h
        · exact ⟨number, rfl, by omega⟩
        · obtain ⟨j, hj, hlt⟩ := ih h
          exact ⟨j, hj, by omega⟩

/-- The hops up to that of an index have a session each. -/
def Reached (index : ℕ) (s : Building) : Prop :=
  s.sessions.map (·.hop) = List.range' 1 (index + 1)

theorem Reached.last {s : Building} (h : Reached index s) :
    (s.sessions.getLast s.nonempty).hop = index + 1 := by
  have hlast : (s.sessions.map (·.hop)).getLast? = some (index + 1) := by
    rw [h, List.getLast?_range']
    simp
  rw [List.getLast?_map, List.getLast?_eq_some_getLast s.nonempty] at hlast
  exact Option.some.inj hlast

/-- The sessions reached are disconnected from the last on. -/
theorem Reached.disconnectAll {s : Building} (h : Reached index s) :
    disconnectAll s.sessions = (List.range' 1 (index + 1)).reverse.map .disconnect := by
  rw [SshChain.disconnectAll, ← h, ← List.map_reverse, List.map_map]
  rfl

/-- **Hops that succeed** leave a session each, and the loop goes on
behind them. -/
theorem buildRest_of_good (total : ℕ) (remote : Option RemoteEndpoint) (rest : List HopSpec)
    (hgood : AllSucceed net (index + 2) good) {s : Building} (hs : Reached index s) :
    ∃ t : Building, Reached (index + good.length) t ∧
      t.sessions = s.sessions ++ sessionsFrom total remote (index + 2) good ∧
      t.steps = s.steps ++ stepsFrom (index + 2) good ∧
      buildRest net total remote index (good ++ rest) s =
        buildRest net total remote (index + good.length) rest t := by
  induction good generalizing index s with
  | nil => exact ⟨s, hs, (List.append_nil _).symm, (List.append_nil _).symm, rfl⟩
  | cons hop good ih =>
      obtain ⟨⟨hchannel, hconnect⟩, hrest⟩ := allSucceed_cons.1 hgood
      have hchannel : openDirectTcpip net (index + 2) hop = .ok () :=
        hchannel.resolve_left (by omega)
      let session : HopSession := ⟨index + 2, ⟨if index + 2 = total then remote else none, none⟩⟩
      let next : Building := ⟨s.sessions ++ [session],
        s.steps ++ [.openChannel (index + 1) (index + 2)] ++ [.connect (index + 2)], by simp⟩
      have hnext : Reached (index + 1) next := by
        rw [Reached, List.map_append, hs, List.range'_concat (s := 1) (n := index + 1)]
        simp only [session, List.map_cons, List.map_nil]
        congr 2
        omega
      obtain ⟨t, ht, hsessions, hsteps, heq⟩ := ih hrest hnext
      refine ⟨t, ?_, ?_, ?_, ?_⟩
      · rwa [List.length_cons, show index + (good.length + 1) = index + 1 + good.length by omega]
      · rw [hsessions, List.append_assoc]
        rfl
      · rw [hsteps, stepsFrom]
        simp [next]
      · rw [List.length_cons, show index + (good.length + 1) = index + 1 + good.length by omega,
          ← heq, List.cons_append, buildRest]
        simp only [hchannel, hconnect, hs.last]
        rfl

/-- **A hop that fails** ends the loop, and the sessions before it are
disconnected. -/
theorem buildRest_of_bad (hbad : ¬ HopSucceeds net (index + 2) hop) {s : Building}
    (hs : Reached index s) :
    ∃ source tried,
      buildRest net total remote index (hop :: rest) s = (.error (.hop (index + 2) source),
        s.steps ++ tried ++ (List.range' 1 (index + 1)).reverse.map .disconnect) ∧
      ∀ step ∈ tried, step.attempted = some (index + 2) := by
  rw [buildRest]
  dsimp only
  cases hchannel : openDirectTcpip net (index + 2) hop with
  | error source =>
      refine ⟨source, [.openChannel (index + 1) (index + 2)], ?_, by simp [BuildStep.attempted]⟩
      simp only [hs.last, hs.disconnectAll]
  | ok u =>
      cases hconnect : connectSession net (index + 2) hop with
      | error source =>
          refine ⟨source, [.openChannel (index + 1) (index + 2), .connect (index + 2)], ?_,
            by simp [BuildStep.attempted]⟩
          simp only [hs.last, hs.disconnectAll]
          simp
      | ok u => exact absurd ⟨.inr hchannel, hconnect⟩ hbad

/-! ## The whole chain -/

/-- **All hops succeed**: there is a session for each, and nothing is
disconnected. -/
theorem build_of_good (remote : Option RemoteEndpoint) (hpos : 1 ≤ hops.length)
    (hle : hops.length ≤ 16) (hgood : AllSucceed net 1 hops) :
    build net hops remote = (.ok (sessionsFrom hops.length remote 1 hops),
      .connect 1 :: stepsFrom 2 hops.tail) := by
  cases hops with
  | nil => simp at hpos
  | cons first rest =>
      obtain ⟨⟨-, hconnect⟩, hrest⟩ := allSucceed_cons.1 hgood
      have hlast : (1 = (first :: rest).length) = (rest = []) := by
        cases rest <;> simp
      have hone : Reached 0 ⟨[⟨1, ⟨if rest = [] then remote else none, none⟩⟩], [.connect 1],
          by simp⟩ := rfl
      obtain ⟨t, -, hsessions, hsteps, heq⟩ := buildRest_of_good (first :: rest).length remote []
        hrest hone
      rw [build, if_neg (by simpa [maxHops] using hle)]
      simp only [hconnect]
      rw [List.append_nil] at heq
      rw [heq, buildRest, hsessions, hsteps, sessionsFrom]
      simp only [hlast]
      rfl

/-- **A hop fails**: the steps to it and to those before it are tried,
and the sessions of those are disconnected from the last on. -/
theorem build_of_bad (remote : Option RemoteEndpoint) (hle : hops.length ≤ 16)
    (hsplit : hops = good ++ hop :: rest) (hgood : AllSucceed net 1 good)
    (hbad : ¬ HopSucceeds net (1 + good.length) hop) :
    ∃ source tried,
      build net hops remote = (.error (.hop (good.length + 1) source),
        tried ++ (List.range' 1 good.length).reverse.map .disconnect) ∧
      ∀ step ∈ tried, ∃ j, step.attempted = some j ∧ j ≤ good.length + 1 := by
  subst hsplit
  cases good with
  | nil =>
      have hconnect : ∃ source, connectSession net 1 hop = .error source := by
        cases h : connectSession net 1 hop with
        | error source => exact ⟨source, rfl⟩
        | ok u => exact absurd ⟨.inl rfl, h⟩ hbad
      obtain ⟨source, hconnect⟩ := hconnect
      refine ⟨source, [.connect 1], ?_, by simp [BuildStep.attempted]⟩
      rw [List.nil_append, build, if_neg (by simpa [maxHops] using hle)]
      simp only [hconnect]
      rfl
  | cons first good =>
      obtain ⟨⟨-, hconnect⟩, hrest⟩ := allSucceed_cons.1 hgood
      have hne : good ++ hop :: rest ≠ [] := by simp
      have hone : Reached 0 ⟨[⟨1, ⟨none, none⟩⟩], [.connect 1], by simp⟩ := rfl
      obtain ⟨t, ht, -, hsteps, heq⟩ :=
        buildRest_of_good (first :: good ++ hop :: rest).length remote (hop :: rest) hrest hone
      rw [Nat.zero_add] at ht heq
      have hbad' : ¬ HopSucceeds net (good.length + 2) hop := by
        rwa [List.length_cons, show 1 + (good.length + 1) = good.length + 2 by omega] at hbad
      obtain ⟨source, tried, hfail, htried⟩ := buildRest_of_bad hbad' ht
      refine ⟨source, t.steps ++ tried, ?_, fun step hstep => ?_⟩
      · rw [List.cons_append, build, if_neg (by simpa [maxHops] using hle)]
        simp only [hconnect, if_neg hne]
        exact heq.trans hfail
      · rw [List.length_cons]
        rcases List.mem_append.1 hstep with hstep | hstep
        · rw [hsteps, List.mem_append, List.mem_singleton] at hstep
          rcases hstep with rfl | hstep
          · exact ⟨1, rfl, by omega⟩
          · obtain ⟨j, hj, hlt⟩ := stepsFrom_attempted hstep
            exact ⟨j, hj, by omega⟩
        · exact ⟨good.length + 2, htried step hstep, by omega⟩

/-- **A chain is built whole or not at all.** It is built if it has one
to sixteen hops whose steps all succeed, with one session for each hop
in order, the last one alone set up for the remote forward, and nothing
disconnected. A chain of that length that is not built fails with the
number of the first hop that does; no step of a later hop is tried, and
the sessions of the hops before it are disconnected from the last to
the first. -/
theorem build_spec (net : Net) (hops : List HopSpec) (remote : Option RemoteEndpoint) :
    ((∃ sessions, (build net hops remote).1 = .ok sessions) ↔
      1 ≤ hops.length ∧ hops.length ≤ 16 ∧
        ∀ k, 1 ≤ k → k ≤ hops.length → Succeeds net hops k) ∧
    (∀ sessions, (build net hops remote).1 = .ok sessions →
      sessions.map (·.hop) = List.range' 1 hops.length ∧
      (∀ s ∈ sessions, s.session = ⟨if s.hop = hops.length then remote else none, none⟩) ∧
      ∀ step ∈ (build net hops remote).2, ∃ j, step.attempted = some j) ∧
    (1 ≤ hops.length → hops.length ≤ 16 →
      (¬ ∃ sessions, (build net hops remote).1 = .ok sessions) →
      ∃ k source tried, FirstFailing net hops k ∧
        build net hops remote = (.error (.hop k source),
          tried ++ (List.range' 1 (k - 1)).reverse.map .disconnect) ∧
        ∀ step ∈ tried, ∃ j, step.attempted = some j ∧ j ≤ k) := by
  have hne {e : SshChainError} {sessions : List HopSession}
      (h : (.error e : Except SshChainError (List HopSession)) = .ok sessions) : False := by
    cases h
  by_cases hpos : 1 ≤ hops.length
  · by_cases hle : hops.length ≤ 16
    · rcases exists_failing net 1 hops with hall | ⟨good, bad, rest, hsplit, hgood, hbad⟩
      · have hbuild := build_of_good remote hpos hle hall
        rw [hbuild]
        refine ⟨⟨fun _ => ⟨hpos, hle, allSucceed_iff.1 hall⟩, fun _ => ⟨_, rfl⟩⟩, ?_,
          fun _ _ hnot => absurd ⟨_, rfl⟩ hnot⟩
        intro sessions hok
        obtain rfl := Except.ok.inj hok
        refine ⟨sessionsFrom_hops 1 hops, fun s hs => sessionsFrom_session hs, ?_⟩
        intro step hstep
        rcases List.mem_cons.1 hstep with rfl | hstep
        · exact ⟨1, rfl⟩
        · obtain ⟨j, hj, -⟩ := stepsFrom_attempted hstep
          exact ⟨j, hj⟩
      · obtain ⟨source, tried, hbuild, htried⟩ := build_of_bad remote hle hsplit hgood hbad
        have hfirst := firstFailing_of_split hsplit hgood hbad
        rw [hbuild]
        refine ⟨⟨fun ⟨_, h⟩ => (hne h).elim, fun h => ?_⟩, fun _ h => (hne h).elim,
          fun _ _ _ => ?_⟩
        · exact absurd (h.2.2 _ hfirst.pos hfirst.le_length) hfirst.fails
        · exact ⟨good.length + 1, source, tried, hfirst, rfl, htried⟩
    · have hbuild : build net hops remote = (.error .tooManyHops, []) := by
        cases hops with
        | nil => simp at hpos
        | cons first rest =>
            have hmany : maxHops < (first :: rest).length := Nat.lt_of_not_le hle
            rw [build, if_pos hmany]
      rw [hbuild]
      exact ⟨⟨fun ⟨_, h⟩ => (hne h).elim, fun h => absurd h.2.1 hle⟩, fun _ h => (hne h).elim,
        fun _ h => absurd h hle⟩
  · have hnil : hops = [] := List.length_eq_zero_iff.1 (by omega)
    subst hnil
    exact ⟨⟨fun ⟨_, h⟩ => (hne h).elim, fun h => absurd h.1 hpos⟩, fun _ h => (hne h).elim,
      fun h => absurd h hpos⟩

/-! ## The sessions alone -/

theorem connectHop_eq (number : ℕ) :
    connectHop net number hop remote =
      ((connectSession net number hop).map fun _ => Session.mk remote none).mapError
        (.hop number) := by
  unfold connectHop connectSession
  cases validate hop.host hop.credential hop.knownHostsPaths with
  | error e => rfl
  | ok u =>
      cases net.connection number with
      | error e => rfl
      | ok u => rfl

/-- The loop leaves the sessions of the chain's model without steps. -/
theorem buildRest_sessions (s : Building) :
    (buildRest net total remote index hops s).1.map (List.map (·.session)) =
      (connectRest net total remote (index + 2) hops).map
        (s.sessions.map (·.session) ++ ·) := by
  induction hops generalizing index s with
  | nil => simp [buildRest, connectRest, Except.map]
  | cons hop hops ih =>
      have hopen : (do
          checkDestination hop.host.hostname hop.host.port
          net.channel (index + 2) : Except SshConnectError Unit) =
          openDirectTcpip net (index + 2) hop := rfl
      rw [buildRest, connectRest, connectHop_eq, hopen]
      dsimp only
      cases openDirectTcpip net (index + 2) hop with
      | error source => rfl
      | ok u =>
          cases connectSession net (index + 2) hop with
          | error source => rfl
          | ok u =>
              refine (ih _).trans ?_
              rw [show index + 1 + 2 = index + 2 + 1 by omega]
              cases connectRest net total remote (index + 2 + 1) hops with
              | error e => rfl
              | ok sessions => simp [Except.map, Except.mapError, Bind.bind, Except.bind,
                  Pure.pure, Except.pure]

/-- **The chain it leaves** is that of `connectWithApproval`. -/
theorem build_sessions (net : Net) (hops : List HopSpec) (remote : Option RemoteEndpoint) :
    (build net hops remote).1.map (List.map (·.session)) = connectWithApproval net hops remote := by
  cases hops with
  | nil => rfl
  | cons first rest =>
      rw [build, connectWithApproval, connectHop_eq]
      by_cases hmany : maxHops < (first :: rest).length
      · rw [if_pos hmany, if_pos hmany]
        rfl
      · rw [if_neg hmany, if_neg hmany]
        dsimp only
        cases connectSession net 1 first with
        | error source => rfl
        | ok u =>
            refine (buildRest_sessions _).trans ?_
            rw [Nat.zero_add]
            cases connectRest net (first :: rest).length remote 2 rest with
            | error e => rfl
            | ok sessions => rfl

end SshChain

end Ssh

end TunnelWarden
