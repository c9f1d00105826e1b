import TunnelWarden.Manager.Approval

/-!
# A changed host key

A handshake accepts on what it read, and files change after they are
read. `Crossed` says that a file got a line for another key after the
handshake last read it. Along every run, a file that a handshake has
read and that now reports its key as changed was crossed
(`clear_reached`), so without a crossing no changed key is accepted
(`acceptsUnchanged_of_undisturbed`). The second loop reads the files
again, but a `TrustOnce` does not go through it, and a match ends it.
-/

namespace TunnelWarden

namespace Ssh

/-- What the program relies on of `check_known_hosts_path`: a key is
reported as changed because of a line of the file. -/
structure KnownHosts.Lawful (known : KnownHosts) : Prop where
  nil (host : String) (port : ℕ) (key : PublicKey) (n : ℕ) :
    known.check host port key [] ≠ .changed n
  append (host : String) (port : ℕ) (key : PublicKey) (lines : List String) (line : String) (n : ℕ) :
    known.check host port key (lines ++ [line]) = .changed n →
      (∃ m, known.check host port key lines = .changed m) ∨
        ∃ m, known.check host port key [line] = .changed m

/-- What is reported in this look comes from the content of the file: one
that cannot be opened is not passed over. -/
def Look.FromContent (known : KnownHosts) (v : HostKeyVerifier) (key : PublicKey) (look : Look) :
    Prop :=
  ∀ text, look.access = some text →
    ∀ matched, known.unreadable v.host v.port key text ≠ .known matched

namespace HostKeyVerifier

variable {known : KnownHosts} {v : HostKeyVerifier} {key : PublicKey} {look : Look}

/-- Where a report comes from the content, it is that of the lines. -/
theorem report_eq (hlook : look.FromContent known v key) {file : Option (List String)}
    {matched : Bool} (hreport : v.report known key file look = .known matched) :
    known.check v.host v.port key (file.getD []) = .known matched := by
  unfold report at hreport
  cases haccess : look.access with
  | some text =>
      rw [haccess] at hreport
      exact absurd hreport (hlook text haccess matched)
  | none =>
      rw [haccess] at hreport
      exact hreport

/-- **A file that passes a check does not report the key as changed.** -/
theorem checkFile_ok (hknown : known.Lawful) (hlook : look.FromContent known v key)
    {regular matched : Bool} {path : PathBuf} {file : Option (List String)}
    (hok : v.checkFile known regular key path file look = .ok matched) (n : ℕ) :
    known.check v.host v.port key (file.getD []) ≠ .changed n := by
  intro hchanged
  unfold checkFile at hok
  cases file with
  | none => exact hknown.nil v.host v.port key n hchanged
  | some lines =>
      cases hm : look.metadataOf (some lines) with
      | error source =>
          -- a file that is there is passed over for no error
          have hother : source.kind ≠ .notFound := by
            unfold Look.metadataOf at hm
            split at hm
            · rename_i refusal _
              injection hm with hm
              exact hm ▸ refusal.other
            · simp at hm
            · rename_i hnone
              simp at hnone
          rw [hm] at hok
          simp [hother] at hok
      | ok metadata =>
          rw [hm] at hok
          dsimp only at hok
          split at hok
          · simp at hok
          · split at hok
            · simp at hok
            · cases hreport : v.report known key (some lines) look with
              | known found =>
                  rw [report_eq hlook hreport] at hchanged
                  simp at hchanged
              | changed line => simp [hreport] at hok
              | invalid text => simp [hreport] at hok

end HostKeyVerifier

end Ssh

namespace Manager

open Ssh

namespace System

variable {known : KnownHosts} {home : Option PathBuf} {codec : Codec}

/-! ## The property and the condition -/

/-- The file at `path` reports the key of the handshake as changed. -/
def Changed (known : KnownHosts) (s : System) (h : Handshake) (path : PathBuf) : Prop :=
  ∃ n, known.check h.verifier.host h.verifier.port h.key (s.lines path) = .changed n

/-- The line is one for another key of the handshake's server. -/
def Contradicts (known : KnownHosts) (h : Handshake) (line : String) : Prop :=
  ∃ n, known.check h.verifier.host h.verifier.port h.key [line] = .changed n

/-- The step accepts the server's key for the handshake. -/
def Accepts (x : Stage) (k : ℕ) (h : Handshake) : Prop :=
  x.output = some (.ended k (.ok true)) ∧ x.after.handshakes[k]? = some h

/-- **No changed key is accepted** by a handshake that checks keys. -/
def AcceptsUnchanged (known : KnownHosts) (run : List Stage) : Prop :=
  ∀ x ∈ run, ∀ k h, Accepts x k h → h.verifier.policy = .strict →
    ∀ path ∈ h.verifier.paths, ¬ Changed known x.after h path

/-- In this step the handshake reads the file, in either loop. -/
def Reads (x : Stage) (k : ℕ) (path : PathBuf) : Prop :=
  ∃ look h rest, x.input = .advance k look ∧ x.before.handshakes[k]? = some h ∧
    ((∃ found, h.control = .checking (path :: rest) found) ∨
      ∃ savePath attached, h.control = .rechecking savePath (path :: rest) attached)

/-- In this step the file gets a line, from whomever. -/
def Adds (x : Stage) (path : PathBuf) (line : String) : Prop :=
  x.after.lines path = x.before.lines path ++ [line]

/-- After the handshake last read the file, the file got a line for
another key. -/
def Crossed (known : KnownHosts) (run : List Stage) (k : ℕ) (path : PathBuf) : Prop :=
  ∃ pre x post h line, run = pre ++ x :: post ∧ x.before.handshakes[k]? = some h ∧
    Adds x path line ∧ Contradicts known h line ∧ ∀ y ∈ post, ¬ Reads y k path

/-- The handshake is about to look at a file, in either loop. -/
def looking (control : Control) : Bool :=
  match control with
  | .checking (_ :: _) _ | .rechecking _ (_ :: _) _ => true
  | _ => false

/-- What is assumed of `check_known_hosts_path` in this step: it reports
from the content of the file it looks at. -/
def ReportsContent (known : KnownHosts) (s : System) (input : Input) : Prop :=
  ∀ k look h, input = .advance k look → s.handshakes[k]? = some h → looking h.control = true →
    look.FromContent known h.verifier h.key

/-- No file of this step fails to open. -/
def Input.opens : Input → Bool
  | .advance _ look => look.access.isNone
  | _ => true

/-- A file that can be opened is reported from its content. -/
theorem reportsContent_of_opens {run : List Stage} (hopens : run.all fun x => x.input.opens) :
    ∀ x ∈ run, ReportsContent known x.before x.input := by
  intro x hx k look h hinput _ _ text haccess
  have hopen : x.input.opens = true := List.all_eq_true.1 hopens x hx
  rw [hinput, Input.opens, haccess] at hopen
  cases hopen

/-- Every handshake that checks keys accepts with none of its files
crossed. -/
def Undisturbed (known : KnownHosts) (run : List Stage) : Prop :=
  ∀ pre x post, run = pre ++ x :: post → ∀ k h, Accepts x k h → h.verifier.policy = .strict →
    ∀ path ∈ h.verifier.paths, ¬ Crossed known pre k path

/-! ## What is known of the files that were read -/

/-- The files the handshake has yet to read, before what it found can
count. One that is over relies on nothing. -/
def unread (h : Handshake) : List PathBuf :=
  match h.control with
  | .checking rest _ => rest
  | .waiting _ | .answered .. | .rechecking .. | .saved (.ok _) => []
  | .saved (.error _) | .done _ | .dropped => h.verifier.paths

/-- Of the files the handshake has read, those that report its key as
changed were crossed. -/
def Relies (known : KnownHosts) (s : System) (run : List Stage) (k : ℕ) (h : Handshake) : Prop :=
  ∃ read, h.verifier.paths = read ++ unread h ∧
    ∀ path ∈ read, Changed known s h path → Crossed known run k path

/-- **The invariant**, for all handshakes. -/
def Clear (known : KnownHosts) (s : System) (run : List Stage) : Prop :=
  ∀ k h, s.handshakes[k]? = some h → Relies known s run k h

variable {s : System} {run : List Stage} {x : Stage} {k : ℕ} {h h' : Handshake} {path : PathBuf}

theorem Crossed.concat (hc : Crossed known run k path) (hread : ¬ Reads x k path) :
    Crossed known (run ++ [x]) k path := by
  obtain ⟨pre, y, post, h, line, rfl, hh, hadds, hcon, hpost⟩ := hc
  refine ⟨pre, y, post ++ [x], h, line, by simp, hh, hadds, hcon, fun z hz => ?_⟩
  rcases List.mem_append.1 hz with hz | hz
  · exact hpost z hz
  · rw [List.mem_singleton.1 hz]; exact hread

/-- Which file a step reads can be told from the place of the handshake. -/
theorem Reads.control (hr : Reads x k path) (hh : x.before.handshakes[k]? = some h) :
    ∃ rest, (∃ found, h.control = .checking (path :: rest) found) ∨
      ∃ savePath attached, h.control = .rechecking savePath (path :: rest) attached := by
  obtain ⟨look, g, rest, -, hg, hc⟩ := hr
  rw [hh] at hg
  obtain rfl := Option.some.inj hg
  exact ⟨rest, hc⟩

/-- What is reported of a key depends on no place. -/
theorem changed_congr (hv : h'.verifier = h.verifier) (hkey : h'.serverKey = h.serverKey) :
    Changed known s h' path ↔ Changed known s h path := by
  unfold Changed Handshake.key
  rw [hv, hkey]

/-- The files a step can add lines to. -/
def Grows (x : Stage) : Prop :=
  ∀ path, x.after.lines path = x.before.lines path ∨ ∃ line, Adds x path line

/-- A file that is not read in a step stays as it was, or is crossed. -/
theorem crossed_of_changed (hknown : known.Lawful) (hgrows : Grows x)
    (hh : x.before.handshakes[k]? = some h) (hread : ¬ Reads x k path)
    (hbefore : Changed known x.before h path → Crossed known run k path)
    (hafter : Changed known x.after h path) : Crossed known (run ++ [x]) k path := by
  obtain ⟨n, hn⟩ := hafter
  rcases hgrows path with heq | ⟨line, hadds⟩
  · rw [heq] at hn
    exact (hbefore ⟨n, hn⟩).concat hread
  · rw [hadds] at hn
    rcases hknown.append _ _ _ _ _ _ hn with hold | hnew
    · exact (hbefore hold).concat hread
    · exact ⟨run, x, [], h, line, rfl, hh, hadds, hnew, by simp⟩

namespace Relies

/-- A handshake that is over, or has only begun, relies on nothing. -/
theorem of_unread (hun : unread h = h.verifier.paths) : Relies known s run k h :=
  ⟨[], hun.symm, by simp⟩

/-- **The files read before** are known as before a step that reads no
file with a changed key. -/
theorem step (hr : Relies known x.before run k h) (hknown : known.Lawful) (hgrows : Grows x)
    (hh : x.before.handshakes[k]? = some h)
    (hpass : ∀ path, Reads x k path → ¬ Changed known x.after h path) :
    Relies known x.after (run ++ [x]) k h := by
  obtain ⟨read, hpaths, hclear⟩ := hr
  refine ⟨read, hpaths, fun path hpath hchanged => ?_⟩
  by_cases hread : Reads x k path
  · exact absurd hchanged (hpass path hread)
  · exact crossed_of_changed hknown hgrows hh hread (hclear path hpath) hchanged

/-- The place may change, as long as the same files are to be read. -/
theorem congr (hr : Relies known s run k h) (hv : h'.verifier = h.verifier)
    (hkey : h'.serverKey = h.serverKey) (hun : unread h' = unread h) : Relies known s run k h' := by
  obtain ⟨read, hpaths, hclear⟩ := hr
  refine ⟨read, by rw [hv, hun, hpaths], fun path hpath hchanged => ?_⟩
  exact hclear path hpath ((changed_congr hv hkey).1 hchanged)

/-- One more file is read, and passes. -/
theorem next (hr : Relies known s run k h) (hv : h'.verifier = h.verifier)
    (hkey : h'.serverKey = h.serverKey) (hun : unread h = path :: unread h')
    (hpass : ¬ Changed known s h path) : Relies known s run k h' := by
  obtain ⟨read, hpaths, hclear⟩ := hr
  refine ⟨read ++ [path], by rw [hv, hpaths, hun, List.append_assoc]; rfl, fun p hp hchanged => ?_⟩
  rw [changed_congr hv hkey] at hchanged
  rcases List.mem_append.1 hp with hp | hp
  · exact hclear p hp hchanged
  · rw [List.mem_singleton.1 hp] at hchanged
    exact absurd hchanged hpass

end Relies

/-- The file the second loop reads passes. -/
theorem passed {look : Look} {event : Option Event} {control : Control} {savePath : PathBuf}
    {rest : List PathBuf} {attached matched : Bool} (hh : s.handshakes[k]? = some h)
    (hc : h.control = .rechecking savePath (path :: rest) attached)
    (hok : h.verifier.recheckPath known h.key path (s.files.lookup path) look = .ok matched)
    (hknown : known.Lawful)
    (hlook : looking h.control = true → look.FromContent known h.verifier h.key) (p : PathBuf)
    (hread : Reads ⟨s, .advance k look, event, s.setControl k control⟩ k p) :
    ¬ Changed known (s.setControl k control) h p := by
  obtain ⟨rest', ⟨_, hf⟩ | ⟨_, _, hf⟩⟩ := hread.control hh
  · rw [hc] at hf
    simp at hf
  · rw [hc] at hf
    injection hf with _ hf
    obtain ⟨rfl, -⟩ := List.cons.inj hf
    have hcontent := hlook (by rw [hc]; rfl)
    exact fun ⟨n, hn⟩ => HostKeyVerifier.checkFile_ok hknown hcontent hok n hn

/-- **A turn keeps what a handshake relies on.** -/
theorem turn_relies (hknown : known.Lawful) {look : Look} {event : Option Event} {t : System}
    (hh : s.handshakes[k]? = some h)
    (hlook : looking h.control = true → look.FromContent known h.verifier h.key)
    (hturn : Turn known s k h look event t) (hr : Relies known s run k h)
    (hh' : t.handshakes[k]? = some h') :
    Relies known t (run ++ [⟨s, .advance k look, event, t⟩]) k h' := by
  -- the step as it is for the files read before
  have hstep (hpass : ∀ path, Reads ⟨s, .advance k look, event, t⟩ k path →
      ¬ Changed known t h path) :
      Relies known t (run ++ [⟨s, .advance k look, event, t⟩]) k h :=
    Relies.step (x := ⟨s, .advance k look, event, t⟩) hr hknown hturn.lines hh hpass
  -- a place at which no file is read
  have hstep' (hc : ∀ path rest, (∀ found, h.control ≠ .checking (path :: rest) found) ∧
      ∀ savePath attached, h.control ≠ .rechecking savePath (path :: rest) attached) :
      Relies known t (run ++ [⟨s, .advance k look, event, t⟩]) k h := by
    refine hstep fun path hread => ?_
    obtain ⟨rest, ⟨found, hf⟩ | ⟨savePath, attached, hf⟩⟩ := hread.control hh
    · exact absurd hf ((hc path rest).1 found)
    · exact absurd hf ((hc path rest).2 savePath attached)
  cases hturn with
  | idle hc =>
      rw [hh] at hh'
      obtain rfl := Option.some.inj hh'
      refine hstep' fun path rest => ?_
      rcases hc with ⟨_, hc⟩ | ⟨_, _, hc⟩ | ⟨_, hc⟩ | hc <;> rw [hc] <;> simp
  | @read path rest found matched hc hok =>
      obtain rfl := eq_of_setControl rfl hh hh'
      have hcontent := hlook (by rw [hc]; rfl)
      have hpass : ¬ Changed known s h path := fun ⟨n, hn⟩ =>
        HostKeyVerifier.checkFile_ok hknown hcontent hok n hn
      refine (hstep fun p hread => ?_).next rfl rfl (by simp [unread, hc]) hpass
      obtain ⟨rest', ⟨_, hf⟩ | ⟨_, _, hf⟩⟩ := hread.control hh
      · rw [hc] at hf
        injection hf with hf
        exact (List.cons.inj hf).1 ▸ hpass
      · rw [hc] at hf
        simp at hf
  | reject error ht =>
      obtain rfl := eq_of_setControl (of_unlock ht).1 hh hh'
      exact .of_unread rfl
  | accept ht hc =>
      obtain rfl := eq_of_setControl (of_unlock ht).1 hh hh'
      exact .of_unread rfl
  | ask approval hc =>
      obtain rfl := eq_of_setControl rfl hh hh'
      exact (hstep' (by simp [hc])).congr rfl rfl (by simp [unread, hc])
  | hear hc hd =>
      obtain rfl := eq_of_setControl rfl hh hh'
      exact (hstep' (by simp [hc])).congr rfl rfl (by simp [unread, hc])
  | lock hc =>
      obtain rfl := eq_of_setControl rfl hh hh'
      exact (hstep' (by simp [hc])).congr rfl rfl (by simp [unread, hc])
  | reread hc hok =>
      obtain rfl := eq_of_setControl rfl hh hh'
      exact (hstep (passed hh hc hok hknown hlook)).congr rfl rfl (by simp [unread, hc])
  | @found path savePath rest attached hc hok =>
      obtain rfl := eq_of_setControl rfl hh hh'
      cases attached with
      | true => exact (hstep (passed hh hc hok hknown hlook)).congr rfl rfl (by simp [unread, hc])
      | false => exact .of_unread rfl
  | @fail savePath rest attached error hc =>
      obtain rfl := eq_of_setControl rfl hh hh'
      cases attached with
      | true => exact .of_unread rfl
      | false => exact .of_unread rfl
  | @learn savePath attached hc =>
      obtain rfl := eq_of_setControl rfl hh hh'
      cases attached with
      | true => exact (hstep' (by simp [hc])).congr rfl rfl (by simp [unread, hc])
      | false => exact .of_unread rfl

/-- **Every input keeps the invariant.** -/
theorem step_clear (hknown : known.Lawful) {input : Input} (hreports : ReportsContent known s input)
    (hclear : Clear known s run) :
    Clear known (s.step known home codec input).2 (run ++
      [⟨s, input, (s.step known home codec input).1, (s.step known home codec input).2⟩]) := by
  intro k h' hh'
  rcases step_handshake hh' with ⟨-, -, hc⟩ | ⟨h, hh, hv, hkey, hc⟩
  · -- a new handshake has read nothing
    refine .of_unread ?_
    rcases hc with hc | ⟨result, hc⟩ <;> simp [unread, hc]
  · by_cases hadvance : ∃ look, input = .advance k look
    · obtain ⟨look, rfl⟩ := hadvance
      have hlook := hreports k look h rfl hh
      exact turn_relies hknown hh hlook (advance_turn known look hh) (hclear k h hh) hh'
    · have hstep := Relies.step (x := ⟨s, input, (s.step known home codec input).1,
        (s.step known home codec input).2⟩) (hclear k h hh) hknown (step_lines input) hh
        fun path hread => absurd ⟨_, hread.choose_spec.choose_spec.choose_spec.1⟩ hadvance
      rcases hc with hlook | hc | hc | ⟨savePath, rest, hc, hc'⟩
      · exact absurd hlook hadvance
      · exact hstep.congr hv hkey (by simp [unread, hc, hv])
      · exact .of_unread (by simp [unread, hc])
      · exact hstep.congr hv hkey (by simp [unread, hc, hc'])

/-- **In every run**, a file that was read and reports the key as changed
was crossed. -/
theorem clear_reached (hknown : known.Lawful) (files : Map PathBuf (List String)) (w : World)
    (is : List Input)
    (hreports : ∀ x ∈ trace (step known home codec) (launch files w) is,
      ReportsContent known x.before x.input) :
    Clear known (runState (step known home codec) (launch files w) is)
      (trace (step known home codec) (launch files w) is) := by
  refine trace_invariant (I := fun s run =>
    (∀ x ∈ run, ReportsContent known x.before x.input) → Clear known s run)
    (fun _ k h hh => by simp [launch] at hh) (fun is i hclear hall => ?_) is hreports
  have hbefore := hclear fun x hx => hall x (List.mem_append_left _ hx)
  exact step_clear hknown (hall _ (List.mem_append_right _ List.mem_cons_self)) hbefore

/-- **A handshake accepts where it has read all its files.** -/
theorem accepts_unread {input : Input}
    (houtput : (s.step known home codec input).1 = some (.ended k (.ok true)))
    (hh' : (s.step known home codec input).2.handshakes[k]? = some h')
    (hstrict : h'.verifier.policy = .strict) :
    ∃ h, s.handshakes[k]? = some h ∧ h'.verifier = h.verifier ∧ h'.serverKey = h.serverKey ∧
      unread h = [] ∧ (s.step known home codec input).2.files = s.files := by
  have haccepts := step_accepts houtput
  rcases step_handshake hh' with ⟨hk, rfl, -⟩ | ⟨h, hh, hv, hkey, -⟩
  · -- at once, only a handshake that checks nothing accepts
    rcases haccepts with ⟨verifier, serverKey, hin, hbypass, -⟩ | ⟨h, hh, -⟩
    · obtain ⟨rfl, -⟩ := Input.connect.inj hin
      exact absurd (hbypass.symm.trans hstrict) (by decide)
    · rw [hk, List.getElem?_eq_none (Nat.le_refl _)] at hh
      simp at hh
  · rcases haccepts with ⟨verifier, serverKey, -, -, hk⟩ | ⟨g, hg, hfiles, hc⟩
    · rw [hk, List.getElem?_eq_none (Nat.le_refl _)] at hh
      simp at hh
    · obtain rfl := Option.some.inj (hh.symm.trans hg)
      refine ⟨h, hh, hv, hkey, ?_, hfiles⟩
      rcases hc with hc | ⟨approval, hc⟩ | hc <;> simp [unread, hc]

/-- **No changed key is accepted in a run without crossings**, where the
files are reported from their content. -/
theorem acceptsUnchanged_of_undisturbed (home : Option PathBuf) (codec : Codec)
    (hknown : known.Lawful) (files : Map PathBuf (List String)) (w : World) (is : List Input)
    (hreports : ∀ x ∈ trace (step known home codec) (launch files w) is,
      ReportsContent known x.before x.input)
    (hrun : Undisturbed known (trace (step known home codec) (launch files w) is)) :
    AcceptsUnchanged known (trace (step known home codec) (launch files w) is) := by
  intro x hx k h' haccepts hstrict path hpath hchanged
  have houtput := haccepts.1
  have hh' := haccepts.2
  obtain ⟨pre, post, htrace⟩ := List.append_of_mem hx
  obtain ⟨houtput', hafter⟩ := mem_trace hx
  obtain ⟨js, -, hpre, hbefore, -⟩ := trace_eq_append_cons htrace
  rw [houtput'] at houtput
  rw [hafter] at hh' hchanged
  obtain ⟨h, hh, hv, hkey, hun, hfiles⟩ := accepts_unread houtput hh' hstrict
  rw [hbefore] at hh
  have hreports' : ∀ y ∈ trace (step known home codec) (launch files w) js,
      ReportsContent known y.before y.input := by
    intro y hy
    rw [← hpre] at hy
    refine hreports y ?_
    rw [htrace]
    exact List.mem_append_left _ hy
  obtain ⟨read, hpaths, hclear⟩ := clear_reached hknown files w js hreports' k h hh
  rw [hun, List.append_nil] at hpaths
  rw [changed_congr hv hkey] at hchanged
  -- nothing was left to read, so a file that reports the key as changed was crossed
  refine hrun pre x post htrace k h' haccepts hstrict path hpath ?_
  rw [hpre]
  refine hclear path (hpaths ▸ hv ▸ hpath) ?_
  unfold Changed lines at hchanged ⊢
  rwa [hfiles, hbefore] at hchanged

end System

end Manager

/-! ## Two tunnels to one host -/

namespace Ssh

theorem KnownHosts.plain_changed {host : String} {port : ℕ} {key : PublicKey} {lines : List String} :
    (∃ n, KnownHosts.plain.check host port key lines = .changed n) ↔
      ∃ line ∈ lines, namesOther host port key line = true := by
  cases hfind : lines.findIdx? (namesOther host port key) with
  | none =>
      refine iff_of_false (by simp [KnownHosts.plain, hfind]) ?_
      rintro ⟨line, hline, hother⟩
      have hnone := List.findIdx?_eq_none_iff.1 hfind line hline
      simp [hother] at hnone
  | some n =>
      refine iff_of_true (by simp [KnownHosts.plain, hfind]) ?_
      obtain ⟨hn, hother, -⟩ := List.findIdx?_eq_some_iff_getElem.1 hfind
      exact ⟨lines[n], List.getElem_mem hn, hother⟩

theorem KnownHosts.plain_lawful : KnownHosts.plain.Lawful where
  nil host port key n hn := by
    obtain ⟨line, hline, -⟩ := KnownHosts.plain_changed.1 ⟨n, hn⟩
    simp at hline
  append host port key lines line n hn := by
    obtain ⟨other, hmem, hother⟩ := KnownHosts.plain_changed.1 ⟨n, hn⟩
    rcases List.mem_append.1 hmem with hmem | hmem
    · exact .inl (KnownHosts.plain_changed.2 ⟨other, hmem, hother⟩)
    · exact .inr (KnownHosts.plain_changed.2 ⟨other, hmem, hother⟩)

end Ssh

namespace Manager

open Ssh

namespace System

/-- A run in which no file changes is undisturbed. -/
theorem undisturbed_of_files {known : KnownHosts} {run : List Stage}
    (h : ∀ x ∈ run, x.after.files.entries = x.before.files.entries) : Undisturbed known run := by
  rintro _ x post rfl k g - - path - ⟨pre, y, mid, h', line, rfl, -, hadds, -⟩
  have hy : y.after.files = y.before.files := AList.ext (h y (by simp))
  simp [Adds, lines, hy] at hadds

/-- A new key is accepted where the user says so. -/
theorem acceptsUnchanged_trustOnce :
    (∃ x ∈ trace (step .plain none defaultCodec) (launch ∅ labWorld) trustOnceInputs,
      x.output = some (.ended 0 (.ok true))) ∧
    AcceptsUnchanged .plain
      (trace (step .plain none defaultCodec) (launch ∅ labWorld) trustOnceInputs) :=
  ⟨by decide +kernel, acceptsUnchanged_of_undisturbed none defaultCodec KnownHosts.plain_lawful ∅
    labWorld trustOnceInputs (reportsContent_of_opens (by decide +kernel))
    (undisturbed_of_files (by decide +kernel))⟩

/-- **A changed key is accepted**: at the end the file of the application
has the other key, and the user's answer is not looked up again. -/
theorem not_acceptsUnchanged_race :
    ¬ AcceptsUnchanged .plain
      (trace (step .plain none defaultCodec) (launch ∅ labWorld) raceInputs) := by
  intro hrun
  have hlast : ∃ x ∈ trace (step .plain none defaultCodec) (launch ∅ labWorld) raceInputs,
      x.output = some (.ended 0 (.ok true)) ∧
        x.after.handshakes[0]? =
          some ⟨labVerifier, .publicKey firstKey, .done (.ok true)⟩ ∧
        KnownHosts.plain.check "lab.example" 22 firstKey (x.after.lines appFile) = .changed 1 := by
    decide +kernel
  obtain ⟨x, hx, houtput, hh, hchanged⟩ := hlast
  exact hrun x hx 0 _ ⟨houtput, hh⟩ rfl appFile (by decide) ⟨1, hchanged⟩

end System

end Manager

end TunnelWarden
