import TunnelWarden.Import.Model.SshImport

/-!
# The limits of an import

A file is gone through at most once, and no file below the thirty-second
is opened, so the includes nest at most `maxFiles` deep: that much fuel
reads everything (`readLines_sound`), whatever includes what. `Within`
holds of every state of a reading, and `Progress` between a state and a
later one: lines are only added, and a file that was opened has all its
own lines there at the end, whatever became of the files it includes.
-/

namespace TunnelWarden

namespace Import

/-- The bytes of several texts. -/
def totalBytes : List String → ℕ
  | [] => 0
  | text :: rest => byteLen text + totalBytes rest

/-- The lines of a file that include nothing. -/
def ownLines (lines : List String) : List String := lines.filter fun line => !isInclude line

variable {env : Surroundings} {s t u : Reading} {child : Reader} {n : ℕ}

/-- What holds of every state of a reading. -/
structure Within (env : Surroundings) (s : Reading) : Prop where
  files_le : s.limits.files ≤ maxFiles
  visited_nodup : s.limits.visited.Nodup
  visited_length : s.limits.visited.length = s.limits.files
  canonical : ∀ path ∈ s.limits.visited, ∃ given, env.canonicalize given = .ok path
  reads_sublist : s.reads.Sublist s.limits.visited
  bytes_le : s.limits.bytes ≤ maxBytes
  contents_le : totalBytes s.contents ≤ s.limits.bytes
  lines_mem : ∀ line ∈ s.lines, ∃ content ∈ s.contents, line ∈ strLines content

/-- What lies between a state of a reading and a later one. -/
structure Progress (s t : Reading) : Prop where
  files_le : s.limits.files ≤ t.limits.files
  lines_prefix : s.lines <+: t.lines
  contents_subset : s.contents ⊆ t.contents
  own : ∀ content ∈ t.contents,
    content ∈ s.contents ∨ (ownLines (strLines content)).Sublist t.lines

/-- A call reads what it has to, if at most `n` files may still be
opened and there is one left. -/
def Sound (env : Surroundings) (n : ℕ) (child : Reader) : Prop :=
  ∀ path s, Within env s → s.limits.files < maxFiles → maxFiles ≤ s.limits.files + n →
    ∃ result t, child path s = some (result, t) ∧ Within env t ∧ Progress s t

namespace Progress

theorem refl : Progress s s :=
  ⟨le_rfl, List.prefix_refl _, List.Subset.refl _, fun _ h => .inl h⟩

theorem trans (h : Progress s t) (h' : Progress t u) : Progress s u where
  files_le := h.files_le.trans h'.files_le
  lines_prefix := h.lines_prefix.trans h'.lines_prefix
  contents_subset := List.Subset.trans h.contents_subset h'.contents_subset
  own content hmem := by
    rcases h'.own content hmem with hmem | hown
    · refine (h.own content hmem).imp_right fun hown => ?_
      exact hown.trans h'.lines_prefix.sublist
    · exact .inr hown

end Progress

/-! ## One step -/

theorem Reading.warn_eq (s : Reading) (message : String) :
    (s.warn message).lines = s.lines ∧ (s.warn message).reads = s.reads ∧
    (s.warn message).contents = s.contents ∧ (s.warn message).limits.files = s.limits.files ∧
    (s.warn message).limits.bytes = s.limits.bytes ∧
    (s.warn message).limits.visited = s.limits.visited := by
  unfold Reading.warn Limits.warn
  split
  · exact ⟨rfl, rfl, rfl, rfl, rfl, rfl⟩
  · exact ⟨rfl, rfl, rfl, rfl, rfl, rfl⟩

theorem Within.warn (h : Within env s) (message : String) : Within env (s.warn message) := by
  obtain ⟨hl, hr, hc, hf, hb, hv⟩ := Reading.warn_eq s message
  constructor
  · rw [hf]; exact h.files_le
  · rw [hv]; exact h.visited_nodup
  · rw [hv, hf]; exact h.visited_length
  · rw [hv]; exact h.canonical
  · rw [hr, hv]; exact h.reads_sublist
  · rw [hb]; exact h.bytes_le
  · rw [hc, hb]; exact h.contents_le
  · rw [hl, hc]; exact h.lines_mem

theorem Progress.warn (message : String) : Progress s (s.warn message) := by
  obtain ⟨hl, -, hc, hf, -, -⟩ := Reading.warn_eq s message
  constructor
  · exact hf.ge
  · rw [hl]
  · rw [hc]; exact List.Subset.refl _
  · rw [hc]; exact fun _ h => .inl h

theorem Progress.line {line : String} : Progress s { s with lines := s.lines ++ [line] } :=
  ⟨le_rfl, List.prefix_append _ _, List.Subset.refl _, fun _ h => .inl h⟩

theorem Within.line (h : Within env s) {line content : String} (hcontent : content ∈ s.contents)
    (hline : line ∈ strLines content) : Within env { s with lines := s.lines ++ [line] } where
  files_le := h.files_le
  visited_nodup := h.visited_nodup
  visited_length := h.visited_length
  canonical := h.canonical
  reads_sublist := h.reads_sublist
  bytes_le := h.bytes_le
  contents_le := h.contents_le
  lines_mem l hl := by
    rcases List.mem_append.1 hl with hl | hl
    · exact h.lines_mem l hl
    · exact ⟨content, hcontent, List.mem_singleton.1 hl ▸ hline⟩

/-- The bytes of a text are those it was decoded from. -/
theorem byteLen_of_fromUTF8 {bytes : ByteArray} {text : String}
    (h : String.fromUTF8? bytes = some text) : byteLen text = bytes.size := by
  unfold String.fromUTF8? at h
  split at h
  · obtain rfl := Option.some.inj h
    rfl
  · cases h

theorem totalBytes_append (texts : List String) (text : String) :
    totalBytes (texts ++ [text]) = totalBytes texts + byteLen text := by
  induction texts with
  | nil => simp [totalBytes]
  | cons first rest ih =>
      rw [List.cons_append, totalBytes, ih, totalBytes, Nat.add_assoc]

/-- The state once a path is counted. -/
def Reading.visit (s : Reading) (path : PathBuf) : Reading :=
  { s with limits := { s.limits with
    visited := s.limits.visited ++ [path], files := s.limits.files + 1 } }

theorem Within.visit (h : Within env s) {path : PathBuf} (hfiles : s.limits.files < maxFiles)
    (hnew : path ∉ s.limits.visited) (hpath : ∃ given, env.canonicalize given = .ok path) :
    Within env (s.visit path) where
  files_le := hfiles
  visited_nodup := List.nodup_append.2 ⟨h.visited_nodup, List.nodup_singleton path, by
    intro a ha b hb hab
    rw [List.mem_singleton] at hb
    exact hnew (hb ▸ hab ▸ ha)⟩
  visited_length := by
    have hlen := h.visited_length
    simp only [Reading.visit, List.length_append, List.length_singleton]
    omega
  canonical p hp := by
    rcases List.mem_append.1 hp with hp | hp
    · exact h.canonical p hp
    · exact List.mem_singleton.1 hp ▸ hpath
  reads_sublist := h.reads_sublist.trans (List.sublist_append_left _ _)
  bytes_le := h.bytes_le
  contents_le := h.contents_le
  lines_mem := h.lines_mem

/-- **A file's content**: it is counted whatever becomes of it, and its
text is among the contents where there is one. -/
theorem readContent_spec (h : Within env s) {path : PathBuf} (hfiles : s.limits.files < maxFiles)
    (hnew : path ∉ s.limits.visited) (hpath : ∃ given, env.canonicalize given = .ok path) :
    Within env (readContent env path s).2 ∧
      (readContent env path s).2.limits.files = s.limits.files + 1 ∧
      (readContent env path s).2.lines = s.lines ∧
      (readContent env path s).2.contents =
        s.contents ++ (readContent env path s).1.toOption.toList := by
  have hv := h.visit hfiles hnew hpath
  have hread : Within env { s.visit path with reads := s.reads ++ [path] } :=
    { hv with reads_sublist := h.reads_sublist.append (List.Sublist.refl [path]) }
  unfold readContent
  dsimp only
  rw [if_neg (Nat.not_lt.2 hfiles)]
  split
  · exact ⟨hv, rfl, rfl, (List.append_nil _).symm⟩
  · split
    · exact ⟨hv, rfl, rfl, (List.append_nil _).symm⟩
    · split
      · exact ⟨hread, rfl, rfl, (List.append_nil _).symm⟩
      · rename_i bytes _
        split
        · exact ⟨hread, rfl, rfl, (List.append_nil _).symm⟩
        · rename_i hsize
          have hbytes : s.limits.bytes + bytes.size ≤ maxBytes := by
            have hle := h.bytes_le
            omega
          have hcontents := h.contents_le
          split
          · exact ⟨{ hread with
              bytes_le := hbytes
              contents_le := Nat.le_add_right_of_le hcontents },
              rfl, rfl, (List.append_nil _).symm⟩
          · rename_i content hcontent
            refine ⟨{ hread with
              bytes_le := hbytes
              contents_le := ?_
              lines_mem := ?_ }, rfl, rfl, rfl⟩
            · have hlen := byteLen_of_fromUTF8 hcontent
              dsimp only [Reading.visit]
              rw [totalBytes_append]
              omega
            · intro line hline
              obtain ⟨c, hc, hmem⟩ := h.lines_mem line hline
              exact ⟨c, List.mem_append_left _ hc, hmem⟩

/-! ## The loops of a file -/

/-- The loop over the matches of a pattern. -/
theorem readMatches_sound (hchild : Sound env n child) (results : List (Except String PathBuf))
    (hs : Within env s) (hn : maxFiles ≤ s.limits.files + n) :
    ∃ t, readMatches child results s = some t ∧ Within env t ∧ Progress s t := by
  induction results generalizing s with
  | nil => exact ⟨s, rfl, hs, .refl⟩
  | cons result rest ih =>
      rw [readMatches.eq_def]
      dsimp only
      split_ifs with hfiles
      · exact ⟨_, rfl, hs.warn _, .warn _⟩
      · have hwarn {t : Reading} {message : String} (ht : Within env t) (hst : Progress s t) :
            ∃ u, readMatches child rest (t.warn message) = some u ∧ Within env u ∧
              Progress s u := by
          have hfiles := hst.files_le.trans (Progress.warn message).files_le
          obtain ⟨u, hu, hwu, htu⟩ := ih (ht.warn message)
            (hn.trans (Nat.add_le_add_right hfiles n))
          exact ⟨u, hu, hwu, (hst.trans (.warn message)).trans htu⟩
        cases result with
        | error error => exact hwarn hs .refl
        | ok path =>
            obtain ⟨answer, t, heq, ht, hst⟩ := hchild path s hs (Nat.lt_of_not_le hfiles) hn
            cases answer with
            | ok u =>
                obtain ⟨u, hu, hwu, htu⟩ := ih ht
                  (hn.trans (Nat.add_le_add_right hst.files_le n))
                exact ⟨u, by simp only [heq, hu], hwu, hst.trans htu⟩
            | error error =>
                simp only [heq]
                exact hwarn ht hst

/-- One word behind `Include`. -/
theorem readInclude_sound (hchild : Sound env n child) (path : PathBuf) (word : String)
    (hs : Within env s) (hn : maxFiles ≤ s.limits.files + n) :
    ∃ t, readInclude env child path s word = some t ∧ Within env t ∧ Progress s t := by
  unfold readInclude
  dsimp only
  split
  · exact readMatches_sound hchild _ hs hn
  · exact ⟨_, rfl, hs.warn _, .warn _⟩

/-- An `Include`, with all its words. -/
theorem readIncludes_sound (hchild : Sound env n child) (path : PathBuf) (words : List String)
    (hs : Within env s) (hn : maxFiles ≤ s.limits.files + n) :
    ∃ t, words.foldlM (readInclude env child path) s = some t ∧ Within env t ∧ Progress s t := by
  induction words generalizing s with
  | nil => exact ⟨s, rfl, hs, .refl⟩
  | cons word words ih =>
      obtain ⟨t, ht, hwt, hst⟩ := readInclude_sound hchild path word hs hn
      obtain ⟨u, hu, hwu, htu⟩ := ih hwt (hn.trans (Nat.add_le_add_right hst.files_le n))
      exact ⟨u, by rw [List.foldlM_cons, ht]; exact hu, hwu, hst.trans htu⟩

/-- **The lines of a file** are all gone through, and those that include
nothing are added in their order. -/
theorem readLine_sound (hchild : Sound env n child) (path : PathBuf) {content : String}
    (lines : List String) (hlines : lines ⊆ strLines content) (hs : Within env s)
    (hcontent : content ∈ s.contents) (hn : maxFiles ≤ s.limits.files + n) :
    ∃ t, lines.foldlM (readLine env child path) s = some t ∧ Within env t ∧ Progress s t ∧
      ∃ added, t.lines = s.lines ++ added ∧ (ownLines lines).Sublist added := by
  induction lines generalizing s with
  | nil => exact ⟨s, rfl, hs, .refl, [], (List.append_nil _).symm, List.Sublist.refl _⟩
  | cons line lines ih =>
      obtain ⟨hline, hrest⟩ := List.cons_subset.1 hlines
      by_cases hinclude : isInclude line = true
      · obtain ⟨t, ht, hwt, hst⟩ :=
          readIncludes_sound hchild path ((splitWords line).drop 1) hs hn
        obtain ⟨before, hbefore⟩ := hst.lines_prefix
        obtain ⟨u, hu, hwu, htu, added, hadded, hown⟩ := ih hrest hwt
          (hst.contents_subset hcontent) (hn.trans (Nat.add_le_add_right hst.files_le n))
        refine ⟨u, ?_, hwu, hst.trans htu, before ++ added, ?_, ?_⟩
        · rw [List.foldlM_cons, readLine, if_pos hinclude, ht]
          exact hu
        · rw [hadded, ← hbefore, List.append_assoc]
        · rw [ownLines, List.filter_cons_of_neg (by simp [hinclude])]
          exact hown.trans (List.sublist_append_right _ _)
      · obtain ⟨u, hu, hwu, htu, added, hadded, hown⟩ := ih hrest (hs.line hcontent hline)
          hcontent hn
        refine ⟨u, ?_, hwu, Progress.line.trans htu, line :: added, ?_, ?_⟩
        · rw [List.foldlM_cons, readLine, if_neg hinclude]
          exact hu
        · rw [hadded, List.append_assoc, List.singleton_append]
        · rw [ownLines, List.filter_cons_of_pos (by simp [hinclude])]
          exact hown.cons_cons line

/-! ## The recursion -/

/-- What a call makes of a file whose content is there. -/
theorem readLines_of_content {path canonical : PathBuf} {content : String}
    (hchild : Sound env n (readLines env n)) (hs : Within env s)
    (hfiles : s.limits.files < maxFiles) (hn : maxFiles ≤ s.limits.files + 1 + n)
    (hpath : env.canonicalize path = .ok canonical) (hnew : canonical ∉ s.limits.visited)
    (hcontent : (readContent env canonical s).1 = .ok content) :
    ∃ t, readLines env (n + 1) path s = some (.ok (), t) ∧ Within env t ∧ Progress s t := by
  obtain ⟨hwt, hcount, hlines, hcontents⟩ := readContent_spec hs hfiles hnew ⟨path, hpath⟩
  obtain ⟨t, ht⟩ : ∃ t, readContent env canonical s = (.ok content, t) := ⟨_, by rw [← hcontent]⟩
  rw [ht] at hwt hcount hlines hcontents
  dsimp only [Except.toOption, Option.toList] at hwt hcount hlines hcontents
  obtain ⟨u, hu, hwu, htu, added, hadded, hown⟩ :=
    readLine_sound hchild canonical (strLines content) (List.Subset.refl _) hwt
      (by rw [hcontents]; simp) (by omega)
  refine ⟨u, ?_, hwu, ?_⟩
  · rw [readLines]
    simp only [hpath, if_neg hnew, ht, hu, Option.map_some]
  · refine ⟨by have := htu.files_le; omega, hlines ▸ htu.lines_prefix, fun c hc => ?_, ?_⟩
    · exact htu.contents_subset (by rw [hcontents]; exact List.mem_append_left _ hc)
    · intro c hc
      rcases htu.own c hc with hc | hc
      · rw [hcontents, List.mem_append, List.mem_singleton] at hc
        rcases hc with hc | rfl
        · exact .inl hc
        · refine .inr (hown.trans ?_)
          rw [hadded]
          exact List.sublist_append_right _ _
      · exact .inr hc

/-- **A call reads what it has to**, with fuel for the files that may
still be opened. -/
theorem readLines_sound : Sound env n (readLines env n) := by
  induction n with
  | zero =>
      intro path s _ hfiles hn
      omega
  | succ n ih =>
      intro path s hs hfiles hn
      cases hpath : env.canonicalize path with
      | error error =>
          refine ⟨.error (.io error), s, ?_, hs, .refl⟩
          rw [readLines]
          simp only [hpath]
      | ok canonical =>
          by_cases hvisited : canonical ∈ s.limits.visited
          · refine ⟨.ok (), s, ?_, hs, .refl⟩
            rw [readLines]
            simp only [hpath, if_pos hvisited]
          · cases hcontent : (readContent env canonical s).1 with
            | error error =>
                obtain ⟨hwt, hcount, hlines, hcontents⟩ :=
                  readContent_spec hs hfiles hvisited ⟨path, hpath⟩
                obtain ⟨t, ht⟩ : ∃ t, readContent env canonical s = (.error error, t) :=
                  ⟨_, by rw [← hcontent]⟩
                rw [ht] at hwt hcount hlines hcontents
                dsimp only [Except.toOption, Option.toList] at hwt hcount hlines hcontents
                rw [List.append_nil] at hcontents
                refine ⟨.error error, t, ?_, hwt, ?_⟩
                · rw [readLines]
                  simp only [hpath, if_neg hvisited, ht]
                · exact ⟨by omega, by rw [hlines], by rw [hcontents]; exact List.Subset.refl _,
                    fun c hc => .inl (hcontents ▸ hc)⟩
            | ok content =>
                obtain ⟨t, ht, hwt, hst⟩ :=
                  readLines_of_content ih hs hfiles (by omega) hpath hvisited hcontent
                exact ⟨.ok (), t, ht, hwt, hst⟩

/-! ## More fuel -/

/-- What the one call answers, the other does too. -/
def Reader.Below (child child' : Reader) : Prop :=
  ∀ path s x, child path s = some x → child' path s = some x

theorem foldlM_mono {α β : Type} {f g : β → α → Option β}
    (h : ∀ b a x, f b a = some x → g b a = some x) (as : List α) {b x : β}
    (hf : as.foldlM f b = some x) : as.foldlM g b = some x := by
  induction as generalizing b with
  | nil => exact hf
  | cons a as ih =>
      rw [List.foldlM_cons] at hf ⊢
      obtain ⟨c, hc, hrest⟩ := Option.bind_eq_some_iff.1 hf
      rw [h b a c hc]
      exact ih hrest

theorem readMatches_mono {child' : Reader} (h : child.Below child')
    (results : List (Except String PathBuf)) (hs : readMatches child results s = some t) :
    readMatches child' results s = some t := by
  induction results generalizing s with
  | nil => exact hs
  | cons result rest ih =>
      rw [readMatches.eq_def] at hs ⊢
      dsimp only at hs ⊢
      split_ifs at hs ⊢
      · exact hs
      · cases result with
        | error error => exact ih hs
        | ok path =>
            dsimp only at hs ⊢
            cases hcall : child path s with
            | none => rw [hcall] at hs; cases hs
            | some x =>
                obtain ⟨answer, u⟩ := x
                rw [h path s _ hcall]
                rw [hcall] at hs
                cases answer with
                | ok _ => exact ih hs
                | error error => exact ih hs

/-- **More fuel changes nothing.** -/
theorem readLines_mono : (readLines env n).Below (readLines env (n + 1)) := by
  induction n with
  | zero => intro path s x h; cases h
  | succ n ih =>
      intro path s x h
      rw [readLines] at h ⊢
      split at h
      · exact h
      · split_ifs at h ⊢
        · exact h
        · split at h
          · exact h
          · obtain ⟨u, hu, hx⟩ := Option.map_eq_some_iff.1 h
            refine Option.map_eq_some_iff.2 ⟨u, foldlM_mono ?_ _ hu, hx⟩
            intro s line t ht
            unfold readLine at ht ⊢
            split_ifs at ht ⊢
            · refine foldlM_mono ?_ _ ht
              intro s word t ht
              unfold readInclude at ht ⊢
              dsimp only at ht ⊢
              split at ht
              · exact readMatches_mono ih _ ht
              · exact ht
            · exact ht

theorem readLines_of_le {m : ℕ} (hle : n ≤ m) : (readLines env n).Below (readLines env m) := by
  intro path s x h
  induction hle with
  | refl => exact h
  | step _ ih => exact readLines_mono path s x ih

/-! ## A whole reading -/

/-- Nothing is read yet. -/
theorem within_start (env : Surroundings) : Within env {} where
  files_le := Nat.zero_le _
  visited_nodup := List.nodup_nil
  visited_length := rfl
  canonical _ h := by cases h
  reads_sublist := List.Sublist.refl _
  bytes_le := Nat.zero_le _
  contents_le := le_rfl
  lines_mem _ h := by cases h

/-- **An import ends and keeps to its limits.** With fuel for
`MAX_FILES` files it answers, and more fuel changes nothing: no path is
read twice, at most 32 are read, the texts that lines are taken from
have at most 2 MiB, and each of them has all its own lines among the
lines; once the first file is opened, nothing is an error. -/
theorem readLines_within_limits (env : Surroundings) (path : PathBuf) :
    ∃ result t, (∀ fuel, 32 ≤ fuel → readLines env fuel path {} = some (result, t)) ∧
      t.reads.Nodup ∧ (∀ p ∈ t.reads, ∃ given, env.canonicalize given = .ok p) ∧
      t.reads.length ≤ 32 ∧ totalBytes t.contents ≤ 2 * 1024 * 1024 ∧
      (∀ line ∈ t.lines, ∃ content ∈ t.contents, line ∈ strLines content) ∧
      (∀ content ∈ t.contents, (ownLines (strLines content)).Sublist t.lines) ∧
      (t.contents ≠ [] → result = .ok ()) := by
  obtain ⟨result, t, ht, hwt, hst⟩ :=
    readLines_sound (n := 32) path {} (within_start env) (by decide) (by decide)
  have hlen : t.reads.length ≤ 32 :=
    hwt.reads_sublist.length_le.trans (hwt.visited_length.le.trans hwt.files_le)
  refine ⟨result, t, fun fuel hfuel => readLines_of_le hfuel _ _ _ ht,
    hwt.visited_nodup.sublist hwt.reads_sublist,
    fun p hp => hwt.canonical p (hwt.reads_sublist.subset hp), hlen,
    hwt.contents_le.trans hwt.bytes_le, hwt.lines_mem, ?_, ?_⟩
  · intro content hcontent
    rcases hst.own content hcontent with hmem | hown
    · cases hmem
    · exact hown
  · -- the answer is the first file's own: an error leaves before any content is there
    intro hne
    cases hpath : env.canonicalize path with
    | error error =>
        rw [readLines] at ht
        simp only [hpath] at ht
        obtain ⟨-, rfl⟩ := Prod.mk.inj (Option.some.inj ht)
        exact absurd rfl hne
    | ok canonical =>
        have hnew : canonical ∉ (({} : Reading).limits.visited) := List.not_mem_nil
        cases hcontent : (readContent env canonical {}).1 with
        | error error =>
            obtain ⟨-, -, -, hcontents⟩ :=
              readContent_spec (within_start env) (by decide) hnew ⟨path, hpath⟩
            obtain ⟨u, hu⟩ : ∃ u, readContent env canonical {} = (.error error, u) :=
              ⟨_, by rw [← hcontent]⟩
            rw [readLines] at ht
            simp only [hpath, if_neg hnew, hu] at ht
            obtain ⟨-, rfl⟩ := Prod.mk.inj (Option.some.inj ht)
            rw [hu] at hcontents
            exact absurd hcontents hne
        | ok content =>
            obtain ⟨u, hu, -, -⟩ := readLines_of_content (n := 31) readLines_sound
              (within_start env) (by decide) (by decide) hpath hnew hcontent
            exact (Prod.mk.inj (Option.some.inj (ht.symm.trans hu))).1

end Import

end TunnelWarden
