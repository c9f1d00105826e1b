import Mathlib.Data.List.Dedup
import TunnelWarden.Common.Tally
import TunnelWarden.Import.Limits
import TunnelWarden.Import.Place

/-!
# What an include means to the preview

The lines that are read are what the import reads of the tree
(`readLines_reads`): within the limits, each file of it where it is first
included. So the preview has the hosts that are named there, and of the
settings that are settled the values OpenSSH has (`include_asOpenSsh`).
-/

namespace TunnelWarden

namespace Import

variable {env : Surroundings} {name : String} {s : Reading} {ts part body tree : List Token}
variable {path : PathBuf} {utf8 : Bool} {lines : List String}

/-! ## A file that is skipped -/

/-- Nothing of this part is read when a file around it is skipped. -/
def Skips (ts : List Token) : Prop :=
  ∀ k : Skim, k.skipped ≠ 0 → runState Skim.step k ts = k ∧ answers Skim.step k ts = []

theorem Skips.append (h : Skips ts) (h' : Skips part) : Skips (ts ++ part) := by
  intro k hk
  rw [runState_append, answers_append, (h k hk).1, (h k hk).2]
  exact h' k hk

theorem skips_line (line : String) : Skips [.directive (lineDirective line)] := by
  intro k hk
  have hstep : k.step (.directive (lineDirective line)) = ([], k) :=
    Prod.ext (if_neg hk) rfl
  rw [runState_cons, answers_cons, hstep]
  exact ⟨rfl, rfl⟩

/-- A file in its brackets, of which nothing is read. -/
theorem skipped_file (path : PathBuf) (utf8 : Bool) (h : Skips body) (k : Skim)
    (hk : (k.enter path utf8).skipped ≠ 0) :
    runState Skim.step k (.enter path utf8 :: body ++ [.leave]) =
        { k.enter path utf8 with skipped := (k.enter path utf8).skipped - 1 } ∧
      answers Skim.step k (.enter path utf8 :: body ++ [.leave]) = [] := by
  obtain ⟨hrun, hnone⟩ := h (k.enter path utf8) hk
  have henter : k.step (.enter path utf8) = ([], k.enter path utf8) := rfl
  rw [List.cons_append, runState_cons, answers_cons, henter]
  rw [runState_append, answers_append, hrun, hnone]
  exact ⟨rfl, rfl⟩

/-- Where the file is skipped as one that was seen, nothing changes. -/
theorem skipped_again (h : Skips body) (k : Skim) (hk : ¬ (k.skipped = 0 ∧ path ∉ k.seen)) :
    runState Skim.step k (.enter path utf8 :: body ++ [.leave]) = k ∧
      answers Skim.step k (.enter path utf8 :: body ++ [.leave]) = [] := by
  have henter : k.enter path utf8 = { k with skipped := k.skipped + 1 } := if_neg hk
  obtain ⟨hrun, hnone⟩ := skipped_file path utf8 h k (by
    rw [henter]
    exact Nat.succ_ne_zero _)
  rw [hrun, hnone, henter]
  exact ⟨rfl, rfl⟩

theorem Skips.file (h : Skips body) : Skips (.enter path utf8 :: body ++ [.leave]) :=
  fun k hk => skipped_again h k fun hnew => hk hnew.1

theorem joinTokens_cons {α : Type} {tokensOf : α → Option (List Token)} {a : α} {as : List α}
    (h : joinTokens tokensOf (a :: as) = some ts) :
    ∃ first rest, tokensOf a = some first ∧ joinTokens tokensOf as = some rest ∧
      ts = first ++ rest := by
  rw [joinTokens] at h
  split at h
  · rename_i first rest hfirst hrest
    exact ⟨first, rest, hfirst, hrest, (Option.some.inj h).symm⟩
  · nomatch h

/-- What holds of every part, and of two parts together, holds of all of
them. -/
theorem joinTokens_induction {α : Type} {tokensOf : α → Option (List Token)}
    {P : List Token → Prop} (hnil : P []) (happend : ∀ ts part, P ts → P part → P (ts ++ part))
    {as : List α} (hpart : ∀ a ∈ as, ∀ ts, tokensOf a = some ts → P ts)
    (h : joinTokens tokensOf as = some ts) : P ts := by
  induction as generalizing ts with
  | nil =>
      obtain rfl := Option.some.inj h
      exact hnil
  | cons a as ih =>
      obtain ⟨first, rest, hfirst, hrest, rfl⟩ := joinTokens_cons h
      refine happend _ _ (hpart a List.mem_cons_self first hfirst) (ih (fun b hb => ?_) hrest)
      exact hpart b (List.mem_cons_of_mem _ hb)

theorem skips_nil : Skips [] := fun _ _ => ⟨rfl, rfl⟩

/-- The lines of a file are skipped where the files they include are. -/
theorem lineTokens_skips {childTokens : PathBuf → Option (List Token)}
    (hchild : ∀ path part, childTokens path = some part → Skips part) {line : String}
    (h : lineTokens env childTokens path line = some ts) : Skips ts := by
  have hincluded : ∀ word ts, includeTokens env childTokens path word = some ts →
      Skips ts := by
    intro word ts hword
    unfold includeTokens at hword
    split at hword
    · obtain rfl := Option.some.inj hword
      exact skips_nil
    · refine joinTokens_induction skips_nil (fun _ _ => Skips.append) (fun result _ ts hresult => ?_)
        hword
      cases result with
      | error error =>
          obtain rfl := Option.some.inj hresult
          exact skips_nil
      | ok child => exact hchild child ts hresult
  unfold lineTokens at h
  split at h
  · exact joinTokens_induction skips_nil (fun _ _ => Skips.append)
      (fun word _ ts hword => hincluded word ts hword) h
  · obtain rfl := Option.some.inj h
    exact skips_line line

/-- The tokens of a path: nothing, or a file in its brackets. -/
def Bracketed (childTokens : PathBuf → Option (List Token)) : Prop :=
  ∀ path part, childTokens path = some part →
    part = [] ∨ ∃ file utf8 body, part = .enter file utf8 :: body ++ [.leave] ∧ Skips body

theorem Bracketed.skips {childTokens : PathBuf → Option (List Token)} (h : Bracketed childTokens)
    (path : PathBuf) (part : List Token) (hpart : childTokens path = some part) : Skips part := by
  rcases h path part hpart with rfl | ⟨file, utf8, body, rfl, hbody⟩
  · exact skips_nil
  · exact hbody.file

theorem tokens_bracketed (depth : ℕ) : Bracketed (tokens env depth) := by
  induction depth with
  | zero => intro path part h; nomatch h
  | succ depth ih =>
      intro path part h
      rw [tokens] at h
      split at h
      · exact .inl (Option.some.inj h).symm
      · rename_i file _
        split at h
        · exact .inr ⟨file, true, [], (Option.some.inj h).symm, skips_nil⟩
        · rename_i bytes _
          obtain ⟨body, hbody, hpart⟩ := Option.map_eq_some_iff.1 h
          refine .inr ⟨file, (String.fromUTF8? bytes).isSome, body, hpart.symm, ?_⟩
          exact joinTokens_induction skips_nil (fun _ _ => Skips.append)
            (fun line _ ts hline => lineTokens_skips ih.skips hline) hbody

/-! ## What has been read -/

/-- What has been read is what the import reads of the tree so far: the
same directives, of the files that were visited. -/
structure Reads (s : Reading) (ts : List Token) : Prop where
  directives : s.lines.map lineDirective = skim ts
  state : runState Skim.step {} ts = { seen := s.limits.visited, skipped := 0 }

theorem Reads.congr {s' : Reading} (h : Reads s ts) (hlines : s'.lines = s.lines)
    (hvisited : s'.limits.visited = s.limits.visited) : Reads s' ts :=
  ⟨hlines ▸ h.directives, hvisited ▸ h.state⟩

theorem Reads.warn (h : Reads s ts) (message : String) : Reads (s.warn message) ts := by
  obtain ⟨hlines, -, -, -, -, hvisited⟩ := Reading.warn_eq s message
  exact h.congr hlines hvisited

/-- A part of which nothing is read adds the files it visits. -/
theorem Reads.skip {s' : Reading} (h : Reads s ts) (hlines : s'.lines = s.lines)
    (hpart : runState Skim.step { seen := s.limits.visited, skipped := 0 } part =
        { seen := s'.limits.visited, skipped := 0 } ∧
      answers Skim.step { seen := s.limits.visited, skipped := 0 } part = []) :
    Reads s' (ts ++ part) := by
  constructor
  · rw [skim, answers_append, h.state, hpart.2, List.append_nil, hlines]
    exact h.directives
  · rw [runState_append, h.state]
    exact hpart.1

/-- A file that was read before. -/
theorem Reads.file (h : Reads s ts) (hbody : Skips body) (hpath : path ∈ s.limits.visited) :
    Reads s (ts ++ (.enter path utf8 :: body ++ [.leave])) :=
  h.skip rfl (skipped_again hbody _ fun hnew => hnew.2 hpath)

/-- **A file of which nothing is read**: it is not UTF-8, or has nothing
in it. -/
theorem Reads.unread {s' : Reading} (h : Reads s ts) (hlines : s'.lines = s.lines)
    (hpath : path ∉ s.limits.visited)
    (hvisited : s'.limits.visited = s.limits.visited ++ [path]) (hbody : Skips body)
    (hempty : utf8 = true → body = []) :
    Reads s' (ts ++ (.enter path utf8 :: body ++ [.leave])) := by
  refine h.skip hlines ?_
  have henter : Skim.enter { seen := s.limits.visited, skipped := 0 } path utf8 =
      { seen := s.limits.visited ++ [path], skipped := if utf8 then 0 else 1 } :=
    if_pos ⟨rfl, hpath⟩
  rw [hvisited]
  cases utf8 with
  | true =>
      rw [hempty rfl, List.cons_append, List.nil_append, runState_cons, answers_cons, Skim.step,
        henter]
      exact ⟨rfl, rfl⟩
  | false =>
      obtain ⟨hrun, hnone⟩ := skipped_file path false hbody
        { seen := s.limits.visited, skipped := 0 } (by
          rw [henter]
          exact Nat.one_ne_zero)
      rw [hrun, hnone, henter]
      exact ⟨rfl, rfl⟩

theorem Reads.enter {s' : Reading} (h : Reads s ts) (hlines : s'.lines = s.lines)
    (hpath : path ∉ s.limits.visited)
    (hvisited : s'.limits.visited = s.limits.visited ++ [path]) :
    Reads s' (ts ++ [.enter path true]) := by
  refine h.skip hlines ⟨?_, rfl⟩
  have henter : Skim.enter { seen := s.limits.visited, skipped := 0 } path true =
      { seen := s.limits.visited ++ [path], skipped := 0 } := if_pos ⟨rfl, hpath⟩
  rw [runState_cons, runState_nil, Skim.step, henter, hvisited]

theorem Reads.leave (h : Reads s ts) : Reads s (ts ++ [.leave]) := h.skip rfl ⟨rfl, rfl⟩

theorem Reads.line (h : Reads s ts) (line : String) :
    Reads { s with lines := s.lines ++ [line] } (ts ++ [.directive (lineDirective line)]) := by
  constructor
  · rw [List.map_append, skim, answers_append, h.state]
    exact congrArg (· ++ _) h.directives
  · rw [runState_append, h.state]
    rfl

/-! ## The limits -/

/-- The bytes a file is read as. -/
def fileSize (env : Surroundings) (path : PathBuf) : ℕ :=
  match env.read path with
  | .error _ => 0
  | .ok bytes => bytes.size

/-- The patterns a file includes. -/
def includePatterns (env : Surroundings) (path : PathBuf) (content : String) : List String :=
  ((strLines content).filter isInclude).flatMap fun line =>
    ((splitWords line).drop 1).map (includePattern env path)

/-- **A tree within the limits of the import**: there are at most
`MAX_FILES` files with at most `MAX_BYTES` together, of the sizes their
metadata tell, and a pattern has no more matches than are gone
through. -/
structure WithinLimits (env : Surroundings) (tree : List Token) : Prop where
  count : (files tree).dedup.length ≤ maxFiles
  bytes : tally (fileSize env) (files tree).dedup ≤ maxBytes
  metadata : ∀ path ∈ files tree, ∀ bytes, env.read path = .ok bytes →
    env.metadata path = .ok bytes.size
  pattern : ∀ path ∈ files tree, ∀ content, contentOf env path = some content →
    ∀ pattern ∈ includePatterns env path content, ∀ paths, env.glob pattern = .ok paths →
      paths.length ≤ maxFiles + 1

/-- The limits count the files of the tree that were visited. -/
structure Fits (env : Surroundings) (tree : List Token) (s : Reading) : Prop where
  count : s.limits.files = s.limits.visited.length
  bytes : s.limits.bytes = tally (fileSize env) s.limits.visited
  nodup : s.limits.visited.Nodup
  subset : s.limits.visited ⊆ files tree

theorem Fits.congr {s' : Reading} (h : Fits env tree s) (hfiles : s'.limits.files = s.limits.files)
    (hbytes : s'.limits.bytes = s.limits.bytes)
    (hvisited : s'.limits.visited = s.limits.visited) : Fits env tree s' := by
  constructor
  · rw [hfiles, hvisited]; exact h.count
  · rw [hbytes, hvisited]; exact h.bytes
  · rw [hvisited]; exact h.nodup
  · rw [hvisited]; exact h.subset

theorem Fits.warn (h : Fits env tree s) (message : String) : Fits env tree (s.warn message) := by
  obtain ⟨-, -, -, hfiles, hbytes, hvisited⟩ := Reading.warn_eq s message
  exact h.congr hfiles hbytes hvisited

/-- Where the files are all counted, every file of the tree was
visited. -/
theorem Fits.all_visited (h : Fits env tree s) (hl : WithinLimits env tree)
    (hfull : maxFiles ≤ s.limits.files) : files tree ⊆ s.limits.visited := by
  have hsub : s.limits.visited.Subperm (files tree).dedup :=
    List.subperm_of_subset h.nodup fun path hpath => List.mem_dedup.2 (h.subset hpath)
  have hlen : (files tree).dedup.length ≤ s.limits.visited.length := by
    have hcount := hl.count
    have hfiles := h.count
    omega
  have hperm := hsub.perm_of_length_le hlen
  intro path hpath
  exact hperm.mem_iff.2 (List.mem_dedup.2 hpath)

/-- The next file is within the limits as well. -/
theorem Fits.next (hl : WithinLimits env tree) (h : Fits env tree s) (hpath : path ∈ files tree)
    (hnew : path ∉ s.limits.visited) :
    s.limits.files + 1 ≤ maxFiles ∧ s.limits.bytes + fileSize env path ≤ maxBytes ∧
      ∀ s' : Reading, s'.limits.files = s.limits.files + 1 →
        s'.limits.visited = s.limits.visited ++ [path] →
        s'.limits.bytes = s.limits.bytes + fileSize env path → Fits env tree s' := by
  have hnodup : (s.limits.visited ++ [path]).Nodup :=
    List.nodup_append.2 ⟨h.nodup, List.nodup_singleton path, by
      intro a ha b hb hab
      rw [List.mem_singleton] at hb
      exact hnew (hb ▸ hab ▸ ha)⟩
  have hsubset : s.limits.visited ++ [path] ⊆ files tree := by
    intro p hp
    rcases List.mem_append.1 hp with hp | hp
    · exact h.subset hp
    · exact List.mem_singleton.1 hp ▸ hpath
  have hsub : (s.limits.visited ++ [path]).Subperm (files tree).dedup :=
    List.subperm_of_subset hnodup fun p hp => List.mem_dedup.2 (hsubset hp)
  refine ⟨?_, ?_, fun s' hfiles hvisited htotal => ⟨?_, ?_, ?_, ?_⟩⟩
  · have hle := hsub.length_le
    have hmax := hl.count
    have hfiles := h.count
    rw [List.length_append, List.length_singleton] at hle
    omega
  · have hle := tally_subperm (fileSize env) hsub
    have hmax := hl.bytes
    rw [tally_concat, ← h.bytes] at hle
    omega
  · rw [hfiles, hvisited, h.count, List.length_append, List.length_singleton]
  · rw [htotal, hvisited, h.bytes, tally_concat]
  · rw [hvisited]; exact hnodup
  · rw [hvisited]; exact hsubset

/-- **A file's content**, within the limits. -/
theorem readContent_fits (hl : WithinLimits env tree) (h : Fits env tree s)
    (hpath : path ∈ files tree) (hnew : path ∉ s.limits.visited) :
    (readContent env path s).1.toOption = contentOf env path ∧
      (readContent env path s).2.lines = s.lines ∧
      (readContent env path s).2.limits.visited = s.limits.visited ++ [path] ∧
      Fits env tree (readContent env path s).2 := by
  obtain ⟨hcount, hbytes, hfits⟩ := h.next hl hpath hnew
  unfold readContent
  dsimp only
  rw [if_neg (Nat.not_lt.2 hcount)]
  cases hread : env.read path with
  | error error =>
      have hsize : fileSize env path = 0 := by rw [fileSize, hread]
      have hnone : contentOf env path = none := by rw [contentOf, hread]
      rw [hnone]
      have htotal : s.limits.bytes = s.limits.bytes + fileSize env path := by rw [hsize]; rfl
      split
      · exact ⟨rfl, rfl, rfl, hfits _ rfl rfl htotal⟩
      · split
        · exact ⟨rfl, rfl, rfl, hfits _ rfl rfl htotal⟩
        · exact ⟨rfl, rfl, rfl, hfits _ rfl rfl htotal⟩
  | ok bytes =>
      have hsize : fileSize env path = bytes.size := by rw [fileSize, hread]
      have hcontent : contentOf env path = String.fromUTF8? bytes := by rw [contentOf, hread]
      have hfree : ¬ maxBytes - s.limits.bytes < bytes.size := by omega
      rw [hl.metadata path hpath bytes hread, hcontent]
      dsimp only
      rw [if_neg hfree, if_neg hfree]
      have htotal : s.limits.bytes + bytes.size = s.limits.bytes + fileSize env path := by
        rw [hsize]
      split
      · rename_i htext
        exact ⟨by rw [htext]; rfl, rfl, rfl, hfits _ rfl rfl htotal⟩
      · rename_i content htext
        exact ⟨by rw [htext]; rfl, rfl, rfl, hfits _ rfl rfl htotal⟩

/-! ## The loops -/

/-- A call reads what the import reads of the tokens of its file. -/
def Follows (env : Surroundings) (tree : List Token) (child : Reader)
    (childTokens : PathBuf → Option (List Token)) : Prop :=
  ∀ path part s ts, childTokens path = some part → files part ⊆ files tree →
    Reads s ts → Fits env tree s →
    ∃ result s', child path s = some (result, s') ∧ Reads s' (ts ++ part) ∧ Fits env tree s'

variable {child : Reader} {childTokens : PathBuf → Option (List Token)}

/-- Where every file was visited, the matches that are left would not be
read either. -/
theorem Reads.matches (hb : Bracketed childTokens) {results : List (Except String PathBuf)}
    (hpart : joinTokens (matchTokens childTokens) results = some part)
    (hvisited : files part ⊆ s.limits.visited) (h : Reads s ts) :
    Reads s (ts ++ part) := by
  induction results generalizing ts part with
  | nil =>
      obtain rfl := Option.some.inj hpart
      rwa [List.append_nil]
  | cons result rest ih =>
      obtain ⟨first, others, hfirst, hothers, rfl⟩ := joinTokens_cons hpart
      rw [files_append, List.append_subset] at hvisited
      rw [← List.append_assoc]
      refine ih hothers hvisited.2 ?_
      cases result with
      | error error =>
          obtain rfl := Option.some.inj hfirst
          rwa [List.append_nil]
      | ok path =>
          rcases hb path first hfirst with rfl | ⟨file, utf8, body, rfl, hbody⟩
          · rwa [List.append_nil]
          · exact h.file hbody (hvisited.1 List.mem_cons_self)

/-- The loop over the matches of a pattern. -/
theorem readMatches_reads (hl : WithinLimits env tree) (hb : Bracketed childTokens)
    (hc : Follows env tree child childTokens) (results : List (Except String PathBuf))
    (hpart : joinTokens (matchTokens childTokens) results = some part)
    (hsub : files part ⊆ files tree) (h : Reads s ts) (hf : Fits env tree s) :
    ∃ s', readMatches child results s = some s' ∧ Reads s' (ts ++ part) ∧
      Fits env tree s' := by
  induction results generalizing s ts part with
  | nil =>
      obtain rfl := Option.some.inj hpart
      exact ⟨s, rfl, by rwa [List.append_nil], hf⟩
  | cons result rest ih =>
      rw [readMatches.eq_def]
      dsimp only
      split_ifs with hfull
      · have hvisited := List.Subset.trans hsub (hf.all_visited hl hfull)
        exact ⟨_, rfl, (h.matches hb hpart hvisited).warn _, hf.warn _⟩
      · obtain ⟨first, others, hfirst, hothers, rfl⟩ := joinTokens_cons hpart
        rw [files_append, List.append_subset] at hsub
        cases result with
        | error error =>
            obtain rfl := Option.some.inj hfirst
            exact ih hothers hsub.2 (h.warn _) (hf.warn _)
        | ok path =>
            obtain ⟨answer, s', hs', hr, hf'⟩ := hc path first s ts hfirst hsub.1 h hf
            rw [← List.append_assoc]
            simp only [hs']
            cases answer with
            | ok u => exact ih hothers hsub.2 hr hf'
            | error error => exact ih hothers hsub.2 (hr.warn _) (hf'.warn _)

/-- The words behind `Include`. -/
theorem readIncludes_reads (hl : WithinLimits env tree) (hb : Bracketed childTokens)
    (hc : Follows env tree child childTokens) (path : PathBuf) (words : List String)
    (hpattern : ∀ word ∈ words, ∀ paths, env.glob (includePattern env path word) = .ok paths →
      paths.length ≤ maxFiles + 1)
    (hpart : joinTokens (includeTokens env childTokens path) words = some part)
    (hsub : files part ⊆ files tree) (h : Reads s ts) (hf : Fits env tree s) :
    ∃ s', words.foldlM (readInclude env child path) s = some s' ∧ Reads s' (ts ++ part) ∧
      Fits env tree s' := by
  induction words generalizing s ts part with
  | nil =>
      obtain rfl := Option.some.inj hpart
      exact ⟨s, rfl, by rwa [List.append_nil], hf⟩
  | cons word words ih =>
      obtain ⟨first, others, hfirst, hothers, rfl⟩ := joinTokens_cons hpart
      rw [files_append, List.append_subset] at hsub
      have hword : ∃ s', readInclude env child path s word = some s' ∧
          Reads s' (ts ++ first) ∧ Fits env tree s' := by
        unfold includeTokens at hfirst
        unfold readInclude
        dsimp only
        cases hglob : env.glob (includePattern env path word) with
        | error error =>
            rw [hglob] at hfirst
            obtain rfl := Option.some.inj hfirst
            rw [List.append_nil]
            exact ⟨_, rfl, h.warn _, hf.warn _⟩
        | ok paths =>
            rw [hglob] at hfirst
            dsimp only
            rw [List.take_of_length_le (hpattern word List.mem_cons_self paths hglob)]
            exact readMatches_reads hl hb hc paths hfirst hsub.1 h hf
      obtain ⟨t, ht, hr, hf'⟩ := hword
      obtain ⟨u, hu, hru, hfu⟩ := ih (fun w hw => hpattern w (List.mem_cons_of_mem _ hw)) hothers
        hsub.2 hr hf'
      refine ⟨u, ?_, by rwa [← List.append_assoc], hfu⟩
      rw [List.foldlM_cons, ht]
      exact hu

/-- **The lines of a file.** -/
theorem readLine_reads (hl : WithinLimits env tree) (hb : Bracketed childTokens)
    (hc : Follows env tree child childTokens) (path : PathBuf) (lines : List String)
    (hpattern : ∀ line ∈ lines, isInclude line = true → ∀ word ∈ (splitWords line).drop 1,
      ∀ paths, env.glob (includePattern env path word) = .ok paths → paths.length ≤ maxFiles + 1)
    (hpart : joinTokens (lineTokens env childTokens path) lines = some part)
    (hsub : files part ⊆ files tree) (h : Reads s ts) (hf : Fits env tree s) :
    ∃ s', lines.foldlM (readLine env child path) s = some s' ∧ Reads s' (ts ++ part) ∧
      Fits env tree s' := by
  induction lines generalizing s ts part with
  | nil =>
      obtain rfl := Option.some.inj hpart
      exact ⟨s, rfl, by rwa [List.append_nil], hf⟩
  | cons line lines ih =>
      obtain ⟨first, others, hfirst, hothers, rfl⟩ := joinTokens_cons hpart
      rw [files_append, List.append_subset] at hsub
      have hline : ∃ s', readLine env child path s line = some s' ∧
          Reads s' (ts ++ first) ∧ Fits env tree s' := by
        unfold lineTokens at hfirst
        unfold readLine
        by_cases hinclude : isInclude line = true
        · rw [if_pos hinclude] at hfirst ⊢
          exact readIncludes_reads hl hb hc path _ (hpattern line List.mem_cons_self hinclude)
            hfirst hsub.1 h hf
        · rw [if_neg hinclude] at hfirst ⊢
          obtain rfl := Option.some.inj hfirst
          exact ⟨_, rfl, h.line line, hf.congr rfl rfl rfl⟩
      obtain ⟨t, ht, hr, hf'⟩ := hline
      obtain ⟨u, hu, hru, hfu⟩ := ih (fun l hmem => hpattern l (List.mem_cons_of_mem _ hmem))
        hothers hsub.2 hr hf'
      refine ⟨u, ?_, by rwa [← List.append_assoc], hfu⟩
      rw [List.foldlM_cons, ht]
      exact hu

/-! ## The recursion -/

/-- The tokens of a path that stands for a file: those of its lines,
which the import reads where it is UTF-8. -/
theorem tokens_succ {depth : ℕ} {file : PathBuf} (hpath : env.canonicalize path = .ok file)
    (h : tokens env (depth + 1) path = some part) :
    ∃ utf8 body, part = .enter file utf8 :: body ++ [.leave] ∧ Skips body ∧
      (contentOf env file = none → utf8 = true → body = []) ∧
      ∀ content, contentOf env file = some content → utf8 = true ∧
        joinTokens (lineTokens env (tokens env depth) file) (strLines content) = some body := by
  rw [tokens, hpath] at h
  dsimp only at h
  cases hread : env.read file with
  | error error =>
      rw [hread] at h
      refine ⟨true, [], (Option.some.inj h).symm, skips_nil, fun _ _ => rfl, fun content hsome => ?_⟩
      rw [contentOf, hread] at hsome
      nomatch hsome
  | ok bytes =>
      have hof : contentOf env file = String.fromUTF8? bytes := by rw [contentOf, hread]
      rw [hof]
      rw [hread] at h
      obtain ⟨body, hbody, rfl⟩ := Option.map_eq_some_iff.1 h
      refine ⟨_, body, rfl, ?_, ?_, ?_⟩
      · exact joinTokens_induction skips_nil (fun _ _ => Skips.append)
          (fun line _ ts hline => lineTokens_skips (tokens_bracketed depth).skips hline) hbody
      · intro hnone hsome
        rw [hnone] at hsome
        nomatch hsome
      · intro content hcontent
        rw [textOf, hcontent, Option.getD_some] at hbody
        exact ⟨by rw [hcontent]; rfl, hbody⟩

theorem readLines_reads (hl : WithinLimits env tree) (depth : ℕ) :
    Follows env tree (readLines env depth) (tokens env depth) := by
  induction depth with
  | zero => intro path part s ts hpart; nomatch hpart
  | succ depth ih =>
      intro path part s ts hpart hsub h hf
      rw [readLines]
      cases hpath : env.canonicalize path with
      | error error =>
          rw [tokens, hpath] at hpart
          obtain rfl := Option.some.inj hpart
          exact ⟨_, s, rfl, by rwa [List.append_nil], hf⟩
      | ok file =>
          obtain ⟨utf8, body, rfl, hskips, hnone, hsome⟩ := tokens_succ hpath hpart
          dsimp only
          by_cases hvisited : file ∈ s.limits.visited
          · rw [if_pos hvisited]
            exact ⟨_, s, rfl, h.file hskips hvisited, hf⟩
          · rw [if_neg hvisited]
            rw [files_file, List.cons_subset] at hsub
            obtain ⟨hfile, hbody⟩ := hsub
            obtain ⟨hcontent, hlines, hvisit, hfits⟩ := readContent_fits hl hf hfile hvisited
            obtain ⟨answer, t, hread⟩ : ∃ answer t, readContent env file s = (answer, t) :=
              ⟨_, _, rfl⟩
            rw [hread] at hcontent hlines hvisit hfits ⊢
            cases answer with
            | error error =>
                have hunread := h.unread hlines hvisited hvisit hskips (hnone hcontent.symm)
                exact ⟨_, t, rfl, hunread, hfits⟩
            | ok content =>
                obtain ⟨rfl, hparts⟩ := hsome content hcontent.symm
                have henter := h.enter hlines hvisited hvisit
                have hpattern : ∀ line ∈ strLines content, isInclude line = true →
                    ∀ word ∈ (splitWords line).drop 1, ∀ paths,
                      env.glob (includePattern env file word) = .ok paths →
                        paths.length ≤ maxFiles + 1 := by
                  intro line hline hinclude word hword paths hglob
                  refine hl.pattern file hfile content hcontent.symm _ ?_ paths hglob
                  exact List.mem_flatMap.2 ⟨line, List.mem_filter.2 ⟨hline, hinclude⟩,
                    List.mem_map.2 ⟨word, hword, rfl⟩⟩
                obtain ⟨u, hu, hru, hfu⟩ := readLine_reads hl (tokens_bracketed depth) ih file
                  (strLines content) hpattern hparts hbody henter hfits
                have hleave := hru.leave
                rw [List.append_assoc, List.append_assoc] at hleave
                refine ⟨.ok (), u, ?_, hleave, hfu⟩
                dsimp only
                rw [hu]
                rfl

theorem reads_start : Reads {} [] := ⟨rfl, rfl⟩

theorem fits_start : Fits env tree {} :=
  ⟨rfl, rfl, List.nodup_nil, List.nil_subset _⟩

/-- The first file is no error where it can be read. -/
theorem readLines_ok {depth : ℕ} {root : PathBuf} {result : Except SshImportError Unit}
    (hl : WithinLimits env tree) (hroot : env.canonicalize path = .ok root)
    (hmem : root ∈ files tree) (hcontent : contentOf env root ≠ none)
    (h : readLines env depth path {} = some (result, s)) : result = .ok () := by
  cases depth with
  | zero => nomatch h
  | succ depth =>
      obtain ⟨hread, -⟩ := readContent_fits hl fits_start hmem List.not_mem_nil
      rw [readLines, hroot] at h
      dsimp only at h
      rw [if_neg List.not_mem_nil] at h
      split at h
      · rename_i error t heq
        rw [heq] at hread
        exact absurd hread.symm hcontent
      · obtain ⟨t, -, ht⟩ := Option.map_eq_some_iff.1 h
        exact (Prod.mk.inj ht).1.symm

/-- **When an include means what it does to OpenSSH.** Let a tree of
files be acyclic and within the limits, and its first file readable. The
preview has the hosts that are named in what is read of the tree, and the
entry of each has every setting that is settled from the first line of
the tree that OpenSSH applies to the host. -/
theorem include_asOpenSsh (env : Surroundings)
    (hstar : ∀ name, env.patternMatches "*" name = true) (depth : ℕ) (path root : PathBuf)
    (tree : List Token) (htree : tokens env depth path = some tree)
    (hlimits : WithinLimits env tree) (hroot : env.canonicalize path = .ok root)
    (hcontent : contentOf env root ≠ none) :
    ∃ preview : SshImportPreview,
      (∀ fuel, depth ≤ fuel → previewSshConfig env fuel path = some (.ok preview)) ∧
      preview.entries.map SshImportEntry.«alias» = namedHosts (skim tree) ∧
      ∀ entry ∈ preview.entries,
        entry.ReadsFrom env (fun key => (nestedSettings env entry.alias tree).lookup key)
          fun key => Settled env entry.alias key tree := by
  obtain ⟨result, s, hs, hreads, -⟩ := readLines_reads hlimits depth path tree {} [] htree
    (List.Subset.refl _) reads_start fits_start
  have hmem : root ∈ files tree := by
    cases depth with
    | zero => nomatch htree
    | succ depth =>
        obtain ⟨utf8, body, rfl, -⟩ := tokens_succ hroot htree
        exact List.mem_cons_self
  obtain rfl := readLines_ok hlimits hroot hmem hcontent hs
  rw [List.nil_append] at hreads
  refine ⟨previewLines env s.lines s.limits, fun fuel hfuel => ?_, ?_, ?_⟩
  · rw [previewSshConfig, readLines_of_le hfuel path {} _ hs]
    rfl
  · rw [previewLines_aliases, hreads.directives]
  · intro entry hentry
    obtain ⟨name, -, rfl⟩ := List.mem_map.1 hentry
    refine previewEntry_readsFrom fun key _ hsettled => ?_
    rw [parse_list (hstar name), hreads.directives]
    exact listSettings_lookup hsettled

/-! ## An included block -/

def labDirectory : PathBuf := ⟨[.windowsPrefix "C:", .rootDir, .normal "ssh"]⟩

def labConfig : PathBuf := labDirectory.join (.ofName "config")

def labExtra : PathBuf := labDirectory.join (.ofName "extra")

def labRead (path : PathBuf) : Except IoError ByteArray :=
  if path = labConfig then
    .ok "Include extra\nUser carol\nHost lab\n HostName 10.0.0.2\n".toUTF8
  else if path = labExtra then .ok "Host other\n User dave\n".toUTF8
  else .error ⟨.notFound, "not found"⟩

/-- A configuration that includes a file with a block of its own. -/
def labSurroundings : Surroundings where
  canonicalize path := .ok path
  metadata path := (labRead path).map ByteArray.size
  read := labRead
  glob pattern := .ok (if pattern = labExtra.display then [.ok labExtra] else [])
  patternMatches pattern text := pattern == "*" || pattern == text
  pathFrom text := .ofName text
  isAbsolute path := path.replaces
  homeDir := ⟨[.windowsPrefix "C:", .rootDir]⟩
  defaultUser := "alice"

def labTree : List Token :=
  [.enter labConfig true, .enter labExtra true, .directive (.host ["other"]),
    .directive (.setting "user" "dave"), .leave, .directive (.setting "user" "carol"),
    .directive (.host ["lab"]), .directive (.setting "hostname" "10.0.0.2"), .leave]

theorem tokens_labConfig : tokens labSurroundings 2 labConfig = some labTree := by
  decide +kernel

theorem withinLimits_labTree : WithinLimits labSurroundings labTree where
  count := by decide +kernel
  bytes := by decide +kernel
  metadata path _ bytes h := by
    change (labRead path).map ByteArray.size = _
    rw [show labRead path = .ok bytes from h]
    rfl
  pattern path _ content _ pattern _ paths h := by
    obtain rfl := Except.ok.inj h
    split
    · decide
    · decide

/-- The user of `lab` comes from a line that is out of place. -/
example : Settled labSurroundings "lab" "hostname" labTree ∧
    ¬ Settled labSurroundings "lab" "user" labTree := by
  decide +kernel

theorem include_asOpenSsh_labConfig :
    ∃ preview : SshImportPreview,
      (∀ fuel, 2 ≤ fuel → previewSshConfig labSurroundings fuel labConfig = some (.ok preview)) ∧
      preview.entries.map SshImportEntry.«alias» = namedHosts (skim labTree) ∧
      ∀ entry ∈ preview.entries,
        entry.ReadsFrom labSurroundings
          (fun key => (nestedSettings labSurroundings entry.alias labTree).lookup key)
          fun key => Settled labSurroundings entry.alias key labTree :=
  include_asOpenSsh labSurroundings (fun _ => rfl) 2 labConfig labConfig labTree
    tokens_labConfig withinLimits_labTree rfl (by decide +kernel)

/-- The block of the included file is not left behind it: the setting
for every host that follows the `Include` goes to that block. -/
theorem include_leaks_labConfig :
    ¬ ∀ (env : Surroundings), (∀ name, env.patternMatches "*" name = true) →
      ∀ (depth : ℕ) (path root : PathBuf) (tree : List Token),
        tokens env depth path = some tree → WithinLimits env tree →
        env.canonicalize path = .ok root → contentOf env root ≠ none →
        ∃ preview : SshImportPreview,
          (∀ fuel, depth ≤ fuel → previewSshConfig env fuel path = some (.ok preview)) ∧
          ∀ entry ∈ preview.entries,
            entry.ReadsFrom env (fun key => (nestedSettings env entry.alias tree).lookup key)
              fun _ => True := by
  intro h
  obtain ⟨preview, hpreview, hentries⟩ := h labSurroundings (fun _ => rfl) 2 labConfig labConfig
    labTree tokens_labConfig withinLimits_labTree rfl (by decide +kernel)
  have hnested : (nestedSettings labSurroundings "lab" labTree).lookup "user" = some "carol" := by
    decide +kernel
  have husers : (previewSshConfig labSurroundings 2 labConfig).map (fun result =>
      result.map fun preview => preview.entries.map fun e => (e.alias, e.host.username)) =
        some (.ok [("other", "dave"), ("lab", "alice")]) := by
    decide +kernel
  rw [hpreview 2 le_rfl] at husers
  have hlist : preview.entries.map (fun e => (e.alias, e.host.username)) =
      [("other", "dave"), ("lab", "alice")] := Except.ok.inj (Option.some.inj husers)
  have hlab : ("lab", "alice") ∈ preview.entries.map fun e => (e.alias, e.host.username) := by
    rw [hlist]
    exact List.mem_cons_of_mem _ List.mem_cons_self
  obtain ⟨entry, hentry, heq⟩ := List.mem_map.1 hlab
  obtain ⟨halias, hname⟩ := Prod.mk.inj heq
  have huser := (hentries entry hentry).user trivial
  rw [halias, hname, hnested] at huser
  nomatch huser

end Import

end TunnelWarden
