import TunnelWarden.Manager.KnownKeys

/-!
# Keys that were trusted for good

A key that the user trusts and saves is in a file from then on: the files
only grow, and a file that knows a key does not forget it
(`knownIn_step`). A handshake that begins after the save finds the key
there, so **nobody is asked about a saved key again** (`askedOnce_run`),
as long as the files can be opened: `known_hosts` may pass over one that
cannot. Where no future is dropped during its save, the save lock keeps the
second loops of two handshakes apart (`Exclusive`), and **a key is added
to the files at most once** (`savedOnce_run`).
-/

namespace TunnelWarden

namespace Ssh

/-- What the program relies on of `known_hosts`: a file that holds the
line of a key does not call the key unknown, and neither does a file
that goes on. -/
structure KnownHosts.Remembers (known : KnownHosts) : Prop where
  nil (host : String) (port : ℕ) (key : PublicKey) : known.check host port key [] = .known false
  entry (host : String) (port : ℕ) (key : PublicKey) (lines : List String) :
    known.check host port key (lines ++ [known.entry host port key]) ≠ .known false
  append (host : String) (port : ℕ) (key : PublicKey) (lines : List String) (line : String) :
    known.check host port key (lines ++ [line]) = .known false →
      known.check host port key lines = .known false

/-- The error is about a user who did not trust the key. -/
def HostKeyError.untrusted : HostKeyError → Bool
  | .unknown .. | .declined .. | .approvalUnavailable .. => true
  | _ => false

namespace HostKeyVerifier

variable {known : KnownHosts} {v : HostKeyVerifier} {key : PublicKey} {regular : Bool}
variable {path : PathBuf} {file : Option (List String)} {look : Look}

/-- A file that is there and in order says what it knows. -/
theorem check_of_checkFile (hlook : look.FromContent known v key) {lines : List String}
    {matched : Bool}
    (hok : v.checkFile known regular key path (some lines) look = .ok matched) :
    known.check v.host v.port key lines = .known matched := by
  unfold checkFile at hok
  cases hm : look.metadataOf (some lines) with
  | error source =>
      have hother : source.kind ≠ .notFound := by
        unfold Look.metadataOf at hm
        cases hmeta : look.metadata with
        | error refusal =>
            rw [hmeta] at hm
            injection hm with hm
            exact hm ▸ refusal.other
        | ok metadata => simp [hmeta] at hm
      simp [hm, hother] at hok
  | ok metadata =>
      rw [hm] at hok
      dsimp only at hok
      split at hok
      · simp at hok
      · split at hok
        · simp at hok
        · cases hreport : v.report known key (some lines) look with
          | known found =>
              rw [hreport] at hok
              obtain rfl := Except.ok.inj hok
              exact report_eq hlook hreport
          | changed n => simp [hreport] at hok
          | invalid text => simp [hreport] at hok

/-- A key is found in a file that is there. -/
theorem check_of_found (hlook : look.FromContent known v key)
    (hok : v.checkFile known regular key path file look = .ok true) :
    known.check v.host v.port key (file.getD []) = .known true := by
  cases file with
  | some lines => exact check_of_checkFile hlook hok
  | none =>
      unfold checkFile Look.metadataOf at hok
      cases hmeta : look.metadata with
      | error refusal =>
          rw [hmeta] at hok
          simp [refusal.other] at hok
      | ok metadata =>
          rw [hmeta] at hok
          simp at hok

/-- **A file that knows the key** is not passed over. -/
theorem checkFile_known (hknown : known.Remembers) (hlook : look.FromContent known v key)
    {matched : Bool}
    (hfile : known.check v.host v.port key (file.getD []) ≠ .known false)
    (hok : v.checkFile known regular key path file look = .ok matched) : matched = true := by
  cases file with
  | none => exact absurd (hknown.nil v.host v.port key) hfile
  | some lines =>
      cases matched with
      | true => rfl
      | false => exact absurd (check_of_checkFile hlook hok) hfile

/-- What is wrong with a file is never that the user did not trust it. -/
theorem checkFile_error {error : HostKeyError}
    (herror : v.checkFile known regular key path file look = .error error) :
    error.untrusted = false := by
  unfold checkFile at herror
  cases hm : look.metadataOf file with
  | error source =>
      rw [hm] at herror
      dsimp only at herror
      split at herror
      · simp at herror
      · rw [← Except.error.inj herror]; rfl
  | ok metadata =>
      rw [hm] at herror
      dsimp only at herror
      split at herror
      · rw [← Except.error.inj herror]; rfl
      · split at herror
        · rw [← Except.error.inj herror]; rfl
        · cases hreport : v.report known key file look with
          | known matched => simp [hreport] at herror
          | changed n =>
              rw [hreport] at herror
              rw [← Except.error.inj herror]; rfl
          | invalid text =>
              rw [hreport] at herror
              rw [← Except.error.inj herror]; rfl

end HostKeyVerifier

end Ssh

namespace Manager

open Ssh

namespace System

variable {known : KnownHosts} {home : Option PathBuf} {codec : Codec}
variable {s : System} {j k : ℕ} {g h h' : Handshake} {path : PathBuf} {input : Input}

/-! ## What is known stays known -/

/-- The file at `path` does not call the handshake's key unknown. -/
def KnownIn (known : KnownHosts) (s : System) (h : Handshake) (path : PathBuf) : Prop :=
  known.check h.verifier.host h.verifier.port h.key (s.lines path) ≠ .known false

/-- The handshakes are about the same key of the same server. -/
def SameKey (g h : Handshake) : Prop :=
  g.verifier.host = h.verifier.host ∧ g.verifier.port = h.verifier.port ∧ g.key = h.key

theorem KnownIn.congr (hk : KnownIn known s h path) (hsame : SameKey g h) :
    KnownIn known s g path := by
  unfold KnownIn
  rw [hsame.1, hsame.2.1, hsame.2.2]
  exact hk

theorem sameKey_of_eq (hv : h'.verifier = h.verifier) (hkey : h'.serverKey = h.serverKey) :
    SameKey h' h :=
  ⟨by rw [hv], by rw [hv], by rw [Handshake.key, hkey, Handshake.key]⟩

theorem KnownIn.of_lines {t : System} (hknown : known.Remembers)
    (hlines : t.lines path = s.lines path ∨ ∃ line, t.lines path = s.lines path ++ [line])
    (hk : KnownIn known s h path) : KnownIn known t h path := by
  rcases hlines with heq | ⟨line, hadds⟩
  · unfold KnownIn
    rwa [heq]
  · intro hfalse
    rw [hadds] at hfalse
    exact hk (hknown.append _ _ _ _ _ hfalse)

/-- **A file never forgets a key.** -/
theorem knownIn_step (hknown : known.Remembers) (input : Input) (hk : KnownIn known s h path) :
    KnownIn known (s.step known home codec input).2 h path :=
  hk.of_lines hknown (step_lines input path)

/-- A file that knows the key is not passed over by a handshake. -/
theorem KnownIn.matched (hknown : known.Remembers) (hk : KnownIn known s h path) {regular : Bool}
    {look : Look} (hlook : look.FromContent known h.verifier h.key) {matched : Bool}
    (hok : h.verifier.checkFile known regular h.key path (s.files.lookup path) look = .ok matched) :
    matched = true :=
  HostKeyVerifier.checkFile_known hknown hlook hk hok

theorem knownIn_of_matched {regular : Bool} {look : Look}
    (hlook : look.FromContent known h.verifier h.key)
    (hok : h.verifier.checkFile known regular h.key path (s.files.lookup path) look = .ok true) :
    KnownIn known s h path := by
  have htrue := HostKeyVerifier.check_of_found hlook hok
  intro hfalse
  have hboth : KnownHostsReport.known true = .known false := htrue.symm.trans hfalse
  simp at hboth

/-- The line that is added makes the key known. -/
theorem knownIn_appendLine (hknown : known.Remembers) :
    KnownIn known (s.appendLine path (known.entry h.verifier.host h.verifier.port h.key)) h path := by
  unfold KnownIn
  rw [lines_appendLine, if_pos rfl]
  exact hknown.entry _ _ _ _

/-! ## Nobody is asked again -/

/-- In this step `h` accepts its key, which the user said to save. -/
def SavedAt (x : Stage) (h : Handshake) : Prop :=
  ∃ k, x.output = some (.ended k (.ok true)) ∧ x.before.handshakes[k]? = some h ∧
    h.control = .saved (.ok ())

/-- A file the handshake reads, or the one it saves to. `build_hops`
gives the hops of all tunnels the same files, and the one to save to is
among them. -/
def Handles (h : Handshake) (path : PathBuf) : Prop :=
  path ∈ h.verifier.paths ∨
    ∃ approval, h.verifier.approval = some approval ∧ approval.savePath = path

/-- What is heard of the handshake `k` in this step is not that the user
has to trust its key, or did not. -/
def Unbothered (x : Stage) (k : ℕ) : Prop :=
  x.output ≠ some (.asked k) ∧
    ∀ error, x.output = some (.ended k (.error error)) → error.untrusted = false

/-- **Nobody is asked about a saved key again**: not by a handshake that
begins after the save and reads the files of the one that saved. -/
def AskedOnce (run : List Stage) : Prop :=
  ∀ pre x post, run = pre ++ x :: post → ∀ h, SavedAt x h →
    ∀ y ∈ post, ∀ k g, x.before.handshakes.length ≤ k → y.before.handshakes[k]? = some g →
      SameKey g h → (∀ path, Handles h path → path ∈ g.verifier.paths) → Unbothered y k

/-- What the place of a handshake says about its files. -/
def Backed (known : KnownHosts) (s : System) (h : Handshake) : Prop :=
  match h.control with
  | .waiting approval | .answered approval _ => h.verifier.approval = some approval
  | .rechecking savePath rest _ => Handles h savePath ∧ ∀ path ∈ rest, Handles h path
  | .saved (.ok ()) => ∃ path, Handles h path ∧ KnownIn known s h path
  | _ => True

/-- A handshake waits for the approval it was given. -/
theorem approval_of_waiting {look : Look} {approval : HostKeyApproval}
    (hh : s.handshakes[k]? = some h) (hc : h.control = .checking [] false)
    (hh' : (s.advance known k look).2.handshakes[k]? = some h')
    (hwait : h'.control = .waiting approval) : h.verifier.approval = some approval := by
  unfold advance at hh'
  rw [hh] at hh'
  dsimp only at hh'
  rw [hc] at hh'
  dsimp only at hh'
  cases happroval : h.verifier.approval with
  | none =>
      rw [happroval] at hh'
      have heq := eq_of_setControl rfl hh hh'
      simp [heq] at hwait
  | some given =>
      rw [happroval] at hh'
      dsimp only [ask] at hh'
      split at hh'
      · have heq := eq_of_setControl rfl hh hh'
        simp [heq] at hwait
      · have heq := eq_of_setControl rfl hh hh'
        rw [heq] at hwait
        exact congrArg _ (Control.waiting.inj hwait)

theorem Backed.of_lines {t : System} (hknown : known.Remembers)
    (hlines : ∀ path, t.lines path = s.lines path ∨ ∃ line, t.lines path = s.lines path ++ [line])
    (hb : Backed known s h) : Backed known t h := by
  unfold Backed at hb ⊢
  split at hb
  · exact hb
  · exact hb
  · exact hb
  · obtain ⟨path, hpath, hk⟩ := hb
    exact ⟨path, hpath, hk.of_lines hknown (hlines path)⟩
  · trivial

/-- **A turn keeps what its place says.** -/
theorem turn_backed (hknown : known.Remembers) {look : Look}
    (hh : s.handshakes[k]? = some h)
    (hlook : looking h.control = true → look.FromContent known h.verifier h.key) (hb : Backed known s h)
    (hh' : (s.advance known k look).2.handshakes[k]? = some h') :
    Backed known (s.advance known k look).2 h' := by
  have hturn := advance_turn known look hh
  have hlines := hturn.lines
  have hwait (approval : HostKeyApproval) (hc : h.control = .checking [] false)
      (hwaiting : h'.control = .waiting approval) : h.verifier.approval = some approval :=
    approval_of_waiting hh hc hh' hwaiting
  generalize (s.advance known k look).2 = t at hturn hlines hh' ⊢
  generalize (s.advance known k look).1 = event at hturn
  cases hturn with
  | idle hc =>
      rw [hh] at hh'
      obtain rfl := Option.some.inj hh'
      exact hb.of_lines hknown hlines
  | read hc hok =>
      obtain rfl := eq_of_setControl rfl hh hh'
      trivial
  | reject error ht =>
      obtain rfl := eq_of_setControl (of_unlock ht).1 hh hh'
      trivial
  | accept ht hc =>
      obtain rfl := eq_of_setControl (of_unlock ht).1 hh hh'
      trivial
  | ask approval hc =>
      have heq := eq_of_setControl rfl hh hh'
      have happroval := hwait approval hc (congrArg Handshake.control heq)
      rw [heq]
      exact happroval
  | hear hc hd =>
      obtain rfl := eq_of_setControl rfl hh hh'
      unfold Backed at hb
      rw [hc] at hb
      exact hb
  | @lock approval hc =>
      obtain rfl := eq_of_setControl rfl hh hh'
      unfold Backed at hb
      rw [hc] at hb
      exact ⟨.inr ⟨approval, hb, rfl⟩, fun path hpath => .inl hpath⟩
  | @reread path savePath rest attached hc hok =>
      obtain rfl := eq_of_setControl rfl hh hh'
      unfold Backed at hb
      rw [hc] at hb
      exact ⟨hb.1, fun path hpath => hb.2 path (List.mem_cons_of_mem _ hpath)⟩
  | @found path savePath rest attached hc hok =>
      obtain rfl := eq_of_setControl rfl hh hh'
      unfold Backed at hb
      rw [hc] at hb
      cases attached with
      | false => trivial
      | true =>
          -- the file that ended the loop knows the key
          have hcontent := hlook (by rw [hc]; rfl)
          exact ⟨path, hb.2 path List.mem_cons_self, knownIn_of_matched hcontent hok⟩
  | @fail savePath rest attached error hc =>
      obtain rfl := eq_of_setControl rfl hh hh'
      cases attached with
      | true => trivial
      | false => trivial
  | @learn savePath attached hc =>
      obtain rfl := eq_of_setControl rfl hh hh'
      unfold Backed at hb
      rw [hc] at hb
      cases attached with
      | false => trivial
      | true => exact ⟨savePath, hb.1, knownIn_appendLine hknown⟩

theorem Backed.dropped {t : System} (hb : Backed known t h) (hv : h'.verifier = h.verifier)
    (hkey : h'.serverKey = h.serverKey) (hstays : Stays h.control h'.control) :
    Backed known t h' := by
  have hhandles (path : PathBuf) : Handles h' path ↔ Handles h path := by rw [Handles, hv, Handles]
  unfold Backed at hb ⊢
  rcases hstays with heq | heq | ⟨savePath, rest, hfrom, heq⟩
  · rw [heq]
    split at hb
    · rw [hv]; exact hb
    · rw [hv]; exact hb
    · simpa only [hhandles] using hb
    · obtain ⟨path, hpath, hk⟩ := hb
      exact ⟨path, (hhandles path).2 hpath, hk.congr (sameKey_of_eq hv hkey)⟩
    · trivial
  · rw [heq]; trivial
  · rw [hfrom] at hb
    rw [heq]
    simpa only [hhandles] using hb

/-- **Every input keeps what the places say.** -/
theorem step_backed (hknown : known.Remembers) {input : Input}
    (hreports : ReportsContent known s input)
    (hall : ∀ (k : ℕ) (h : Handshake), s.handshakes[k]? = some h → Backed known s h) (k : ℕ)
    (h' : Handshake)
    (hh' : (s.step known home codec input).2.handshakes[k]? = some h') :
    Backed known (s.step known home codec input).2 h' := by
  rcases step_handshake hh' with ⟨-, -, hc⟩ | ⟨h, hh, hv, hkey, ⟨look, rfl⟩ | hstays⟩
  · unfold Backed
    rcases hc with hc | ⟨result, hc⟩ <;> rw [hc] <;> trivial
  · exact turn_backed hknown hh (hreports k look h rfl hh) (hall k h hh) hh'
  · have hb : Backed known (s.step known home codec input).2 h :=
      (hall k h hh).of_lines hknown (step_lines input)
    exact hb.dropped hv hkey hstays

/-- The handshake is not about to ask: it has the file still to read, or
it found its key. -/
def Spared (path : PathBuf) (h : Handshake) : Prop :=
  match h.control with
  | .checking rest found => path ∈ rest ∨ found = true
  | .done _ | .dropped => True
  | _ => False

/-- **The turn of a spared handshake**: it is spared again, and asks
nobody. -/
theorem advance_spared (hknown : known.Remembers) {look : Look}
    (hh : s.handshakes[k]? = some h)
    (hlook : looking h.control = true → look.FromContent known h.verifier h.key)
    (hk : KnownIn known s h path) (hs : Spared path h) :
    (∀ h', (s.advance known k look).2.handshakes[k]? = some h' → Spared path h') ∧
      ((s.advance known k look).1 = none ∨
        (s.advance known k look).1 = some (.ended k (.ok true)) ∨
        ∃ error, (s.advance known k look).1 = some (.ended k (.error error)) ∧
          error.untrusted = false) := by
  unfold Spared at hs
  unfold advance
  rw [hh]
  dsimp only
  cases hc : h.control with
  | checking rest found =>
      rw [hc] at hs
      cases rest with
      | nil =>
          have hfound : found = true := hs.resolve_left List.not_mem_nil
          subst hfound
          refine ⟨fun h' hh' => ?_, .inr (.inl rfl)⟩
          rw [eq_of_setControl rfl hh hh']
          trivial
      | cons first rest =>
          dsimp only
          cases hcheck : h.verifier.checkPath known h.key first (s.files.lookup first) look with
          | error error =>
              have htrust := HostKeyVerifier.checkFile_error hcheck
              refine ⟨fun h' hh' => ?_, .inr (.inr ⟨error, rfl, htrust⟩)⟩
              rw [eq_of_setControl rfl hh hh']
              trivial
          | ok matched =>
              refine ⟨fun h' hh' => ?_, .inl rfl⟩
              rw [eq_of_setControl rfl hh hh']
              change path ∈ rest ∨ (found || matched) = true
              rcases hs with hs | hs
              · rcases List.mem_cons.1 hs with rfl | hs
                · rw [hk.matched hknown (hlook (by rw [hc]; rfl)) hcheck]
                  simp
                · exact .inl hs
              · exact .inr (by rw [hs]; rfl)
  | done result =>
      refine ⟨fun h' hh' => ?_, .inl rfl⟩
      rw [hh] at hh'
      rw [← Option.some.inj hh', Spared, hc]
      trivial
  | dropped =>
      refine ⟨fun h' hh' => ?_, .inl rfl⟩
      rw [hh] at hh'
      rw [← Option.some.inj hh', Spared, hc]
      trivial
  | _ =>
      rw [hc] at hs
      exact hs.elim

/-- A handshake is heard of in its own turn only. -/
theorem event_of_turn {event : Event} {look : Look} {t : System}
    (hturn : Turn known s j h look (some event) t) : event = .asked j ∨
      (∃ decision, event = .heard j decision) ∨ ∃ result, event = .ended j result := by
  cases hturn with
  | reject error ht => exact .inr (.inr ⟨_, rfl⟩)
  | accept ht hc => exact .inr (.inr ⟨_, rfl⟩)
  | ask approval hc => exact .inl rfl
  | hear hc hd => exact .inr (.inl ⟨_, rfl⟩)

/-- What holds after `h` saved its key, of all handshakes from the `n`-th
on. -/
structure Saved (known : KnownHosts) (h : Handshake) (path : PathBuf) (n : ℕ) (s : System) :
    Prop where
  known : KnownIn known s h path
  begun : n ≤ s.handshakes.length
  spared : ∀ k g, n ≤ k → s.handshakes[k]? = some g → SameKey g h → path ∈ g.verifier.paths →
    Spared path g

/-- **Every input keeps it**, and leaves the user alone. -/
theorem Saved.step (hknown : known.Remembers) {n : ℕ} (hsaved : Saved known h path n s)
    (home : Option PathBuf) (codec : Codec) {input : Input}
    (hreports : ReportsContent known s input) :
    Saved known h path n (s.step known home codec input).2 ∧
      ∀ k g, n ≤ k → s.handshakes[k]? = some g → SameKey g h → path ∈ g.verifier.paths →
        Unbothered ⟨s, input, (s.step known home codec input).1,
          (s.step known home codec input).2⟩ k := by
  refine ⟨⟨knownIn_step hknown input hsaved.known,
    hsaved.begun.trans (length_le_step known home codec input), fun k g' hn hg' hsame hpath => ?_⟩,
    fun k g hn hg hsame hpath => ?_⟩
  · rcases step_handshake hg' with ⟨-, -, hc⟩ | ⟨g, hg, hv, hkey, hown⟩
    · unfold Spared
      rcases hc with hc | ⟨result, hc⟩
      · rw [hc]
        exact .inl hpath
      · rw [hc]
        trivial
    · have hsame' : SameKey g h :=
        ⟨hv ▸ hsame.1, hv ▸ hsame.2.1, by rw [← hsame.2.2, Handshake.key, Handshake.key, hkey]⟩
      have hs := hsaved.spared k g hn hg hsame' (hv ▸ hpath)
      rcases hown with ⟨look, rfl⟩ | heq | heq | ⟨savePath, rest, hfrom, -⟩
      · have hlook := hreports k look g rfl hg
        exact (advance_spared hknown hg hlook (hsaved.known.congr hsame') hs).1 g' hg'
      · unfold Spared at hs ⊢
        rwa [heq]
      · unfold Spared
        rw [heq]
        trivial
      · unfold Spared at hs
        rw [hfrom] at hs
        exact hs.elim
  · have hs := hsaved.spared k g hn hg hsame hpath
    -- the handshake is heard of in its own turn only
    have hown {event : Event} (houtput : (s.step known home codec input).1 = some event)
        (hevent : event = .asked k ∨ ∃ result, event = .ended k result) :
        event = .ended k (.ok true) ∨
          ∃ error, event = .ended k (.error error) ∧ error.untrusted = false := by
      have hlt : k < s.handshakes.length := (List.getElem?_eq_some_iff.1 hg).1
      rcases step_event houtput with ⟨verifier, serverKey, result, rfl, rfl, -⟩ |
        ⟨j, look, g', rfl, hg', hturn⟩
      · rcases hevent with heq | ⟨result', heq⟩
        · simp at heq
        · simp only [Event.ended.injEq] at heq
          omega
      · have hjk : j = k := by
          rcases event_of_turn hturn with heq | ⟨decision, heq⟩ | ⟨result, heq⟩ <;>
            rcases hevent with heq' | ⟨result', heq'⟩ <;> rw [heq] at heq' <;> simp at heq'
          · exact heq'
          · exact heq'.1
        subst hjk
        have hlook := hreports j look g rfl hg
        have hout := (advance_spared hknown hg hlook (hsaved.known.congr hsame) hs).2
        rw [show (s.advance known j look).1 = some event from houtput] at hout
        rcases hout with hnone | hok | ⟨error, herror, htrust⟩
        · simp at hnone
        · exact .inl (Option.some.inj hok)
        · exact .inr ⟨error, Option.some.inj herror, htrust⟩
    refine ⟨fun houtput => ?_, fun error houtput => ?_⟩
    · rcases hown houtput (.inl rfl) with heq | ⟨error, heq, -⟩ <;> simp at heq
    · rcases hown houtput (.inr ⟨_, rfl⟩) with heq | ⟨error', heq, htrust⟩
      · simp at heq
      · simp only [Event.ended.injEq, Except.error.injEq, true_and] at heq
        rw [heq]
        exact htrust

/-- In every run, the places say what holds of their files. -/
theorem backed_reached (hknown : known.Remembers) (files : Map PathBuf (List String)) (w : World)
    (is : List Input)
    (hreports : ∀ x ∈ trace (step known home codec) (launch files w) is,
      ReportsContent known x.before x.input) (k : ℕ) (h : Handshake)
    (hh : (runState (step known home codec) (launch files w) is).handshakes[k]? = some h) :
    Backed known (runState (step known home codec) (launch files w) is) h := by
  refine trace_invariant (I := fun s run =>
    (∀ x ∈ run, ReportsContent known x.before x.input) →
      ∀ (k : ℕ) (h : Handshake), s.handshakes[k]? = some h → Backed known s h)
    (fun _ k h hh => by simp [launch] at hh) (fun is i hbacked hall => ?_) is hreports k h hh
  have hbefore := hbacked fun x hx => hall x (List.mem_append_left _ hx)
  exact step_backed hknown (hall _ (List.mem_append_right _ List.mem_cons_self)) hbefore

/-- **Nobody is asked about a saved key again**, in any run in which the
files are reported from their content. -/
theorem askedOnce_run (home : Option PathBuf) (codec : Codec) (hknown : known.Remembers)
    (files : Map PathBuf (List String)) (w : World) (is : List Input)
    (hreports : ∀ x ∈ trace (step known home codec) (launch files w) is,
      ReportsContent known x.before x.input) :
    AskedOnce (trace (step known home codec) (launch files w) is) := by
  intro pre x post htrace h ⟨j, houtput, hh, hc⟩ y hy k g hn hg hsame hcovers
  have hx : x ∈ trace (step known home codec) (launch files w) is := by rw [htrace]; simp
  obtain ⟨houtput', hafter⟩ := mem_trace hx
  obtain ⟨js, ks, hpre, hbefore, hpost⟩ := trace_eq_append_cons htrace
  have hreports' : ∀ z ∈ pre ++ x :: post, ReportsContent known z.before z.input := by
    rw [← htrace]
    exact hreports
  -- when it accepts, a file of the handshake knows the key
  have hbacked : Backed known x.before h := by
    rw [hbefore] at hh ⊢
    exact backed_reached hknown files w js
      (fun z hz => hreports' z (List.mem_append_left _ (hpre ▸ hz))) j h hh
  unfold Backed at hbacked
  rw [hc] at hbacked
  obtain ⟨path, hpath, hk⟩ := hbacked
  have hsaved : Saved known h path x.before.handshakes.length x.before :=
    ⟨hk, Nat.le_refl _, fun k g hn hg => absurd (List.getElem?_eq_some_iff.1 hg).1 (Nat.not_lt.2 hn)⟩
  have hstart : Saved known h path x.before.handshakes.length x.after := by
    rw [hafter]
    exact (hsaved.step hknown home codec (hreports x hx)).1
  have hy' : y ∈ trace (step known home codec) x.after ks := hpost ▸ hy
  have hlater : ∀ z ∈ trace (step known home codec) x.after ks,
      ReportsContent known z.before z.input := by
    intro z hz
    exact hreports' z (List.mem_append_right _ (List.mem_cons_of_mem _ (hpost ▸ hz)))
  have hends := (trace_ends (fun s input hreports hs => (hs.step hknown home codec hreports).1)
    hstart hlater y hy').1
  obtain ⟨houtput, hnext⟩ := mem_trace hy'
  have hquiet := (hends.step hknown home codec (hlater y hy')).2 k g hn hg hsame (hcovers path hpath)
  rw [← houtput, ← hnext] at hquiet
  exact hquiet

/-! ## No key is added twice -/

/-- In this step the handshake adds the line of its key to a file. -/
def Learns (known : KnownHosts) (x : Stage) (k : ℕ) (h : Handshake) (path : PathBuf) : Prop :=
  (∃ look attached, x.input = .advance k look ∧ x.before.handshakes[k]? = some h ∧
    h.control = .rechecking path [] attached) ∧
  Adds x path (known.entry h.verifier.host h.verifier.port h.key)

/-- The input drops no future at its save. -/
def KeepsSaves (s : System) (input : Input) : Prop :=
  ∀ (k : ℕ) (h : Handshake), input = .drop k → s.handshakes[k]? = some h →
    ∀ savePath rest attached, h.control ≠ .rechecking savePath rest attached

/-- **A key is added to the files at most once**, by handshakes that read
the file it was added to. -/
def SavedOnce (known : KnownHosts) (run : List Stage) : Prop :=
  ∀ pre x post, run = pre ++ x :: post → ∀ j h path, Learns known x j h path →
    ∀ y ∈ post, ∀ k g path', Learns known y k g path' → SameKey g h → path ∉ g.verifier.paths

/-- The handshake is at its save: it holds the lock. -/
def saving (control : Control) : Bool :=
  match control with
  | .rechecking .. | .saved _ => true
  | _ => false

/-- The save goes on, and nobody waits for it. -/
def loose (control : Control) : Bool :=
  match control with
  | .rechecking _ _ false => true
  | _ => false

/-- **The lock keeps the saves apart**: who is at its save holds it. -/
def Exclusive (s : System) : Prop :=
  ∀ (k : ℕ) (h : Handshake), s.handshakes[k]? = some h →
    loose h.control = false ∧ (saving h.control = true → s.saveLock = some k)

/-- What a turn does to the lock: nothing, away from a save or at it; or
it begins the save, or ends it. -/
inductive LockTurn (k : ℕ) (control control' : Control) (lock lock' : Option ℕ) : Prop where
  | away (hc : saving control = false) (hc' : saving control' = false) (hlock : lock' = lock)
  | begins (hfree : lock = none) (hlock : lock' = some k)
  | stays (hc : saving control = true) (hlock : lock' = lock)
  | ends (hc : saving control = true) (hc' : saving control' = false)

/-- **The turn of a handshake, for the lock.** -/
theorem advance_lock (known : KnownHosts) (look : Look) (hh : s.handshakes[k]? = some h)
    (hloose : loose h.control = false) :
    (s.advance known k look).2 = s ∨ ∃ (u : System) (control : Control),
      (s.advance known k look).2 = u.setControl k control ∧ u.handshakes = s.handshakes ∧
      loose control = false ∧
      LockTurn k h.control control s.saveLock u.saveLock := by
  unfold advance
  rw [hh]
  dsimp only
  cases hc : h.control with
  | checking rest found =>
      have haway {control : Control} (hc' : saving control = false) :
          LockTurn k (.checking rest found) control s.saveLock s.saveLock := .away rfl hc' rfl
      cases rest with
      | nil =>
          cases found with
          | true => exact .inr ⟨s, _, rfl, rfl, rfl, haway rfl⟩
          | false =>
              dsimp only
              split
              · exact .inr ⟨s, _, rfl, rfl, rfl, haway rfl⟩
              · unfold ask
                split
                · exact .inr ⟨s, _, rfl, rfl, rfl, haway rfl⟩
                · exact .inr ⟨{ s with prompts := _ }, _, rfl, rfl, rfl, haway rfl⟩
      | cons first rest =>
          dsimp only
          split
          · exact .inr ⟨s, _, rfl, rfl, rfl, haway rfl⟩
          · exact .inr ⟨s, _, rfl, rfl, rfl, haway rfl⟩
  | waiting approval =>
      dsimp only [hear]
      split
      · exact .inr ⟨s, _, rfl, rfl, rfl, .away rfl rfl rfl⟩
      · split
        · exact .inl rfl
        · exact .inr ⟨s, _, rfl, rfl, rfl, .away rfl rfl rfl⟩
  | answered approval decision =>
      cases decision with
      | trustOnce => exact .inr ⟨s, _, rfl, rfl, rfl, .away rfl rfl rfl⟩
      | trustAndSave =>
          dsimp only
          split
          · exact .inl rfl
          · rename_i hfree
            exact .inr ⟨{ s with saveLock := some k }, _, rfl, rfl, rfl,
              .begins (by simpa using hfree) rfl⟩
      | cancel => exact .inr ⟨s, _, rfl, rfl, rfl, .away rfl rfl rfl⟩
  | rechecking savePath rest attached =>
      -- somebody waits for the save, so the lock is held to its end
      have hattached : attached = true := by
        rw [hc] at hloose
        cases attached with
        | true => rfl
        | false => simp [loose] at hloose
      subst hattached
      cases rest with
      | nil =>
          dsimp only
          split
          · exact .inr ⟨s, _, rfl, rfl, rfl, .stays rfl rfl⟩
          · exact .inr ⟨s.appendLine savePath _, _, rfl, rfl, rfl, .stays rfl rfl⟩
      | cons first rest =>
          dsimp only
          split
          · exact .inr ⟨s, _, rfl, rfl, rfl, .stays rfl rfl⟩
          · exact .inr ⟨s, _, rfl, rfl, rfl, .stays rfl rfl⟩
          · exact .inr ⟨s, _, rfl, rfl, rfl, .stays rfl rfl⟩
  | saved result => exact .inr ⟨s.unlock, _, rfl, rfl, rfl, .ends rfl rfl⟩
  | done result => exact .inl rfl
  | dropped => exact .inl rfl

/-- **A turn keeps the saves apart.** -/
theorem Exclusive.advance (hex : Exclusive s) (known : KnownHosts) (look : Look)
    (hh : s.handshakes[k]? = some h) : Exclusive (s.advance known k look).2 := by
  rcases advance_lock known look hh (hex k h hh).1 with heq | ⟨u, control, heq, hu, hloose, hlock⟩
  · rw [heq]
    exact hex
  · rw [heq]
    intro j h' hj
    change loose h'.control = false ∧ (saving h'.control = true → u.saveLock = some j)
    obtain ⟨g, hg, -, -, hc⟩ := setControl_handshake h' hj
    rw [hu] at hg
    obtain ⟨hgloose, hglock⟩ := hex j g hg
    by_cases hkj : k = j
    · subst hkj
      obtain rfl := Option.some.inj (hh.symm.trans hg)
      rw [if_pos rfl] at hc
      rw [hc]
      refine ⟨hloose, fun hsaving => ?_⟩
      cases hlock with
      | away hc hc' hlock => simp [hsaving] at hc'
      | begins hfree hlock => exact hlock
      | stays hc hlock => exact hlock.trans (hglock hc)
      | ends hc hc' => simp [hsaving] at hc'
    · rw [if_neg hkj] at hc
      rw [hc]
      refine ⟨hgloose, fun hsaving => ?_⟩
      have hheld := hglock hsaving
      cases hlock with
      | away hc hc' hlock => exact hlock.trans hheld
      | begins hfree hlock => simp [hfree] at hheld
      | stays hc hlock => exact hlock.trans hheld
      | ends hc hc' =>
          -- two handshakes would hold the lock
          have hown := (hex k h hh).2 hc
          rw [hown] at hheld
          exact absurd (Option.some.inj hheld) hkj

theorem Exclusive.of_eq {t : System} (hex : Exclusive s) (hhandshakes : t.handshakes = s.handshakes)
    (hlock : t.saveLock = s.saveLock) : Exclusive t := by
  unfold Exclusive
  rw [hhandshakes, hlock]
  exact hex

/-- **A dropped future keeps the saves apart**, away from a save. -/
theorem Exclusive.drop (hex : Exclusive s) (home : Option PathBuf) (codec : Codec)
    (hkept : ∀ h : Handshake, s.handshakes[k]? = some h →
      ∀ savePath rest attached, h.control ≠ .rechecking savePath rest attached) :
    Exclusive (s.drop home codec k) := by
  have hset {u : System} (hu : u.handshakes = s.handshakes) {h : Handshake}
      (hh : s.handshakes[k]? = some h) (hlock : u.saveLock = s.saveLock ∨ saving h.control = true) :
      Exclusive (u.setControl k .dropped) := by
    intro j h' hj
    change loose h'.control = false ∧ (saving h'.control = true → u.saveLock = some j)
    obtain ⟨g, hg, -, -, hc⟩ := setControl_handshake h' hj
    rw [hu] at hg
    obtain ⟨hgloose, hglock⟩ := hex j g hg
    by_cases hkj : k = j
    · rw [hc, if_pos hkj]
      exact ⟨rfl, by simp [saving]⟩
    · rw [hc, if_neg hkj]
      refine ⟨hgloose, fun hsaving => ?_⟩
      have hheld := hglock hsaving
      rcases hlock with hlock | hown
      · exact hlock.trans hheld
      · rw [(hex k h hh).2 hown] at hheld
        exact absurd (Option.some.inj hheld) hkj
  unfold System.drop
  cases hh : s.handshakes[k]? with
  | none => exact hex
  | some h =>
      dsimp only
      cases hc : h.control with
      | checking rest found => exact hset rfl hh (.inl rfl)
      | answered approval decision => exact hset rfl hh (.inl rfl)
      | waiting approval => exact hset rfl hh (.inl rfl)
      | rechecking savePath rest attached => exact absurd hc (hkept h hh savePath rest attached)
      | saved result => exact hset rfl hh (.inr (by rw [hc]; rfl))
      | done result => exact hex
      | dropped => exact hex

/-- A handshake begins away from its save. -/
theorem Exclusive.connect (hex : Exclusive s) (verifier : HostKeyVerifier)
    (serverKey : PublicKeyOrCertificate) : Exclusive (s.connect verifier serverKey).2 := by
  have hnew {control : Control} (hloose : loose control = false) (hc : saving control = false) :
      Exclusive { s with handshakes := s.handshakes ++ [⟨verifier, serverKey, control⟩] } := by
    intro j h' hj
    change (s.handshakes ++ [(⟨verifier, serverKey, control⟩ : Handshake)])[j]? = some h' at hj
    by_cases hlt : j < s.handshakes.length
    · rw [List.getElem?_append_left hlt] at hj
      exact hex j h' hj
    · rw [List.getElem?_append_right (Nat.not_lt.1 hlt)] at hj
      have hlast := List.mem_of_getElem? hj
      rw [List.mem_singleton.1 hlast]
      exact ⟨hloose, by simp [hc]⟩
  unfold System.connect
  dsimp only
  split
  · exact hnew rfl rfl
  · cases serverKey with
    | publicKey key => exact hnew rfl rfl
    | certificate key => exact hnew rfl rfl

/-- **Every input keeps the saves apart**, where no save is dropped. -/
theorem Exclusive.step (hex : Exclusive s) (known : KnownHosts) (home : Option PathBuf)
    (codec : Codec) (input : Input) (hkept : KeepsSaves s input) :
    Exclusive (s.step known home codec input).2 := by
  cases input with
  | connect verifier serverKey => exact hex.connect verifier serverKey
  | advance k look =>
      cases hh : s.handshakes[k]? with
      | none =>
          rw [System.step, advance_none hh]
          exact hex
      | some h => exact hex.advance known look hh
  | drop k => exact hex.drop home codec fun h hh => hkept k h rfl hh
  | append path line => exact hex.of_eq rfl rfl
  | receive =>
      dsimp only [System.step]
      split
      · exact hex
      · split
        · exact hex.of_eq rfl rfl
        · exact hex
  | manage input => cases input <;> exact hex.of_eq rfl rfl
  | close =>
      dsimp only [System.step]
      split
      · exact hex
      · exact hex.of_eq rfl rfl

/-- What holds after `h` added its key to the file: who is at a save has
the file still to read. -/
structure Learnt (known : KnownHosts) (h : Handshake) (path : PathBuf) (s : System) : Prop where
  known : KnownIn known s h path
  exclusive : Exclusive s
  reads : ∀ (k : ℕ) (g : Handshake), s.handshakes[k]? = some g → SameKey g h →
    path ∈ g.verifier.paths → ∀ savePath rest attached,
      g.control = .rechecking savePath rest attached → path ∈ rest

/-- A turn leaves the file to be read. -/
theorem Learnt.turn (hknown : known.Remembers) (hl : Learnt known h path s) {look : Look}
    (hg : s.handshakes[k]? = some g)
    (hlook : looking g.control = true → look.FromContent known g.verifier g.key)
    (hsame : SameKey g h) (hpath : path ∈ g.verifier.paths)
    {g' : Handshake} (hg' : (s.advance known k look).2.handshakes[k]? = some g')
    {savePath : PathBuf} {rest : List PathBuf} {attached : Bool}
    (hc' : g'.control = .rechecking savePath rest attached) : path ∈ rest := by
  have hturn := advance_turn known look hg
  generalize (s.advance known k look).2 = t at hturn hg'
  generalize (s.advance known k look).1 = event at hturn
  cases hturn with
  | idle hc =>
      rw [hg] at hg'
      obtain rfl := Option.some.inj hg'
      exact hl.reads k g hg hsame hpath savePath rest attached hc'
  | reject error ht =>
      obtain rfl := eq_of_setControl (of_unlock ht).1 hg hg'
      simp at hc'
  | accept ht hc =>
      obtain rfl := eq_of_setControl (of_unlock ht).1 hg hg'
      simp at hc'
  | lock hc =>
      obtain rfl := eq_of_setControl rfl hg hg'
      obtain ⟨-, rfl, -⟩ := Control.rechecking.inj hc'
      exact hpath
  | @reread first savePath' rest' attached' hc hok =>
      obtain rfl := eq_of_setControl rfl hg hg'
      obtain ⟨-, rfl, -⟩ := Control.rechecking.inj hc'
      rcases List.mem_cons.1 (hl.reads k g hg hsame hpath _ _ _ hc) with rfl | hmem
      · -- the file knows the key, and the loop would have ended
        have hcontent := hlook (by rw [hc]; rfl)
        have hmatched := (hl.known.congr hsame).matched hknown hcontent hok
        simp at hmatched
      · exact hmem
  | @found first savePath' rest' attached' hc hok =>
      obtain rfl := eq_of_setControl rfl hg hg'
      cases attached' <;> simp at hc'
  | @fail savePath' rest' attached' error hc =>
      obtain rfl := eq_of_setControl rfl hg hg'
      cases attached' <;> simp at hc'
  | @learn savePath' attached' hc =>
      obtain rfl := eq_of_setControl rfl hg hg'
      cases attached' <;> simp at hc'
  | _ =>
      obtain rfl := eq_of_setControl rfl hg hg'
      simp at hc'

/-- **Every input leaves the file to be read**, where no save is
dropped. -/
theorem Learnt.step (hknown : known.Remembers) (hl : Learnt known h path s) (home : Option PathBuf)
    (codec : Codec) {input : Input} (hkept : KeepsSaves s input)
    (hreports : ReportsContent known s input) :
    Learnt known h path (s.step known home codec input).2 := by
  refine ⟨knownIn_step hknown input hl.known, hl.exclusive.step known home codec input hkept, ?_⟩
  intro k g' hg' hsame hpath savePath rest attached hc'
  rcases step_handshake hg' with ⟨-, -, hc⟩ | ⟨g, hg, hv, hkey, hown⟩
  · rcases hc with hc | ⟨result, hc⟩ <;> simp [hc] at hc'
  · have hsame' : SameKey g h :=
      ⟨hv ▸ hsame.1, hv ▸ hsame.2.1, by rw [← hsame.2.2, Handshake.key, Handshake.key, hkey]⟩
    rcases hown with ⟨look, rfl⟩ | heq | heq | ⟨savePath', rest', hfrom, heq⟩
    · exact hl.turn hknown hg (hreports k look g rfl hg) hsame' (hv ▸ hpath) hg' hc'
    · exact hl.reads k g hg hsame' (hv ▸ hpath) _ _ _ (heq ▸ hc')
    · simp [heq] at hc'
    · rw [heq] at hc'
      obtain ⟨-, rfl, -⟩ := Control.rechecking.inj hc'
      exact hl.reads k g hg hsame' (hv ▸ hpath) _ _ _ hfrom

/-- In every run that drops no save, the lock keeps the saves apart. -/
theorem exclusive_reached (known : KnownHosts) (home : Option PathBuf) (codec : Codec)
    (files : Map PathBuf (List String)) (w : World) (is : List Input)
    (hkept : ∀ x ∈ trace (step known home codec) (launch files w) is, KeepsSaves x.before x.input) :
    ∀ x ∈ trace (step known home codec) (launch files w) is,
      Exclusive x.before ∧ Exclusive x.after :=
  trace_ends (fun _ input hkept hex => hex.step known home codec input hkept)
    (fun k h hh => by simp [launch] at hh) hkept

/-- The last turn of a save that somebody waits for. -/
theorem advance_saved {look : Look} {savePath : PathBuf} (hh : s.handshakes[k]? = some h)
    (hc : h.control = .rechecking savePath [] true)
    (hh' : (s.advance known k look).2.handshakes[k]? = some h') :
    ∃ result, h'.control = .saved result := by
  unfold advance at hh'
  rw [hh] at hh'
  dsimp only at hh'
  rw [hc] at hh'
  dsimp only at hh'
  split at hh'
  · exact ⟨_, by rw [eq_of_setControl rfl hh hh']; rfl⟩
  · exact ⟨_, by rw [eq_of_setControl rfl hh hh']; rfl⟩

/-- **After a key was added**, who is at a save has the file still to
read: nobody but the one that added it holds the lock. -/
theorem learnt_of_learns (hknown : known.Remembers) {x : Stage}
    (hafter : x.after = (x.before.step known home codec x.input).2)
    (hl : Learns known x j h path) (hex : Exclusive x.before) (hex' : Exclusive x.after) :
    Learnt known h path x.after := by
  obtain ⟨⟨look, attached, hinput, hh, hc⟩, hadds⟩ := hl
  have hattached : attached = true := by
    have hloose := (hex j h hh).1
    rw [hc] at hloose
    cases attached with
    | true => rfl
    | false => simp [loose] at hloose
  subst hattached
  refine ⟨?_, hex', fun k g hg _ _ savePath rest attached hcg => ?_⟩
  · unfold KnownIn
    rw [hadds]
    exact hknown.entry _ _ _ _
  · -- the handshake that added the key still has the lock
    have hheld : x.after.saveLock = some k := (hex' k g hg).2 (by rw [hcg]; rfl)
    have hstep : x.after = (x.before.advance known j look).2 := by rw [hafter, hinput]; rfl
    have hlt : j < x.after.handshakes.length := by
      rw [hafter]
      exact Nat.lt_of_lt_of_le (List.getElem?_eq_some_iff.1 hh).1
        (length_le_step known home codec x.input)
    obtain ⟨h', hh'⟩ : ∃ h', x.after.handshakes[j]? = some h' := ⟨_, List.getElem?_eq_getElem hlt⟩
    obtain ⟨result, hsaved⟩ := advance_saved hh hc (hstep ▸ hh')
    have hown : x.after.saveLock = some j := (hex' j h' hh').2 (by rw [hsaved]; rfl)
    have hkj : k = j := Option.some.inj (hheld.symm.trans hown)
    subst hkj
    obtain rfl := Option.some.inj (hg.symm.trans hh')
    simp [hsaved] at hcg

/-- **A key is added once**, in every run that drops no save and in which
the files are reported from their content. -/
theorem savedOnce_run (home : Option PathBuf) (codec : Codec) (hknown : known.Remembers)
    (files : Map PathBuf (List String)) (w : World) (is : List Input)
    (hkept : ∀ x ∈ trace (step known home codec) (launch files w) is, KeepsSaves x.before x.input)
    (hreports : ∀ x ∈ trace (step known home codec) (launch files w) is,
      ReportsContent known x.before x.input) :
    SavedOnce known (trace (step known home codec) (launch files w) is) := by
  intro pre x post htrace j h path hl y hy k g path' hl' hsame hpath
  have hx : x ∈ trace (step known home codec) (launch files w) is := by rw [htrace]; simp
  obtain ⟨-, hafter⟩ := mem_trace hx
  obtain ⟨js, ks, -, hbefore, hpost⟩ := trace_eq_append_cons htrace
  obtain ⟨hex, hex'⟩ := exclusive_reached known home codec files w is hkept x hx
  have hlearnt := learnt_of_learns hknown hafter hl hex hex'
  rw [hpost] at hy htrace
  have hlater : ∀ z ∈ trace (step known home codec) x.after ks,
      KeepsSaves z.before z.input ∧ ReportsContent known z.before z.input := by
    intro z hz
    have hmem : z ∈ trace (step known home codec) (launch files w) is := by
      rw [htrace]
      exact List.mem_append_right _ (List.mem_cons_of_mem _ hz)
    exact ⟨hkept z hmem, hreports z hmem⟩
  have hreached : Learnt known h path y.before :=
    (trace_ends (A := fun s input => KeepsSaves s input ∧ ReportsContent known s input)
      (fun _ input hok hl => hl.step hknown home codec hok.1 hok.2) hlearnt hlater y hy).1
  -- it has read all its files, the one that knows the key among them
  obtain ⟨⟨look, attached, -, hg, hc⟩, -⟩ := hl'
  simpa using hreached.reads k g hg hsame hpath _ _ _ hc

end System

end Manager

/-! ## Two tunnels to one host -/

namespace Ssh

theorem KnownHosts.plain_unknown {host : String} {port : ℕ} {key : PublicKey}
    {lines : List String} :
    KnownHosts.plain.check host port key lines = .known false ↔
      (∀ line ∈ lines, namesOther host port key line = false) ∧
        KnownHosts.plain.entry host port key ∉ lines := by
  unfold KnownHosts.plain
  dsimp only
  cases hfind : lines.findIdx? (namesOther host port key) with
  | none =>
      have hnone := List.findIdx?_eq_none_iff.1 hfind
      simpa using fun _ => hnone
  | some n =>
      obtain ⟨hn, hother, -⟩ := List.findIdx?_eq_some_iff_getElem.1 hfind
      refine iff_of_false (by simp) fun h => ?_
      simp [h.1 _ (List.getElem_mem hn)] at hother

theorem KnownHosts.plain_remembers : KnownHosts.plain.Remembers where
  nil host port key := KnownHosts.plain_unknown.2 (by simp)
  entry host port key lines h := (KnownHosts.plain_unknown.1 h).2 (by simp)
  append host port key lines line h := by
    obtain ⟨hall, hmem⟩ := KnownHosts.plain_unknown.1 h
    exact KnownHosts.plain_unknown.2
      ⟨fun l hl => hall l (List.mem_append_left _ hl), fun hl => hmem (List.mem_append_left _ hl)⟩

end Ssh

namespace Manager

open Ssh

namespace System

/-- A handshake goes on. -/
def go (k : ℕ) : Input := .advance k {}

/-- The user saves a new key, and another tunnel connects. -/
def saveInputs : List Input :=
  askAbout 0 firstKey ++ answer 1 .trustAndSave :: List.replicate 6 (go 0) ++ askAbout 1 firstKey

/-- Nobody asks about the key that was saved. -/
theorem askedOnce_saveInputs :
    (∃ x ∈ trace (step .plain none defaultCodec) (launch ∅ labWorld) saveInputs,
      x.output = some (.ended 1 (.ok true))) ∧
    AskedOnce (trace (step .plain none defaultCodec) (launch ∅ labWorld) saveInputs) :=
  ⟨by decide +kernel,
    askedOnce_run none defaultCodec KnownHosts.plain_remembers ∅ labWorld saveInputs
      (reportsContent_of_opens (by decide +kernel))⟩

/-- Two handshakes ask about one key, and the user saves it twice. -/
def saveBothInputs : List Input :=
  askAbout 0 firstKey ++ askAbout 1 firstKey ++
    answer 1 .trustAndSave :: answer 2 .trustAndSave :: go 0 :: go 1 :: go 0 :: go 1 ::
      List.replicate 4 (go 0) ++ List.replicate 4 (go 1)

/-- The second save finds the line of the first. -/
theorem savedOnce_saveBothInputs :
    (runState (step .plain none defaultCodec) (launch ∅ labWorld) saveBothInputs).lines appFile =
      [KnownHosts.plain.entry "lab.example" 22 firstKey] ∧
    SavedOnce .plain (trace (step .plain none defaultCodec) (launch ∅ labWorld) saveBothInputs) := by
  refine ⟨by decide +kernel, savedOnce_run none defaultCodec KnownHosts.plain_remembers ∅ labWorld
    saveBothInputs (fun x hx k h hdrop => ?_) (reportsContent_of_opens (by decide +kernel))⟩
  have hmem := mem_inputs_of_mem_trace hx
  rw [hdrop] at hmem
  simp [saveBothInputs, askAbout, answer, go] at hmem

/-- Where the first save is dropped at its last turn, the lock is free,
and both saves add the line. -/
example :
    (runState (step .plain none defaultCodec) (launch ∅ labWorld)
      (askAbout 0 firstKey ++ askAbout 1 firstKey ++
        answer 1 .trustAndSave :: answer 2 .trustAndSave :: List.replicate 4 (go 0) ++ .drop 0 ::
          List.replicate 4 (go 1) ++ [go 0, go 1])).lines appFile =
      List.replicate 2 (KnownHosts.plain.entry "lab.example" 22 firstKey) := by
  decide +kernel

end System

end Manager

end TunnelWarden
