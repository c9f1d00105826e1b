import Mathlib.Data.List.Forall2
import TunnelWarden.Common.Run
import TunnelWarden.Import.Model.Preview

/-!
# The first value of a setting wins

The lines are a list of directives, of which each host has those that
stand in a block for it, and of which some name a host (`parse_list`).
The value of a setting is the first the list has for it
(`resolve_lookup`). A further line adds to the end of that list or
leaves it as it is, whatever block it opens or extends
(`parseWords_extends`), so what the lines so far have settled stays
settled (`preview_append`).
-/

namespace TunnelWarden

namespace Import

variable {env : Surroundings} {blocks : List Block} {lines more : List String}
variable {name key : String}

/-- The directives for a host, in the order of the blocks. -/
def directives (env : Surroundings) (name : String) (blocks : List Block) :
    List (String × String) :=
  blocks.flatMap fun block => if matchesAlias env block.patterns name then block.values else []

theorem directives_cons (block : Block) :
    directives env name (block :: blocks) =
      (if matchesAlias env block.patterns name then block.values else []) ++
        directives env name blocks :=
  List.flatMap_cons

theorem directives_append (blocks' : List Block) :
    directives env name (blocks ++ blocks') =
      directives env name blocks ++ directives env name blocks' :=
  List.flatMap_append

/-! ## Lines -/

/-- What a line says that is no `Include`. -/
inductive Directive where
  | other
  | host (patterns : List String)
  | matchBlock
  | setting (key value : String)
  deriving DecidableEq, Repr

/-- A line says nothing where it is blank, or has no argument. -/
def directiveOf : List String → Directive
  | [] => .other
  | first :: arguments =>
    let key := toAsciiLowercase first
    if key = "host" then if arguments = [] then .other else .host arguments
    else if key = "match" then .matchBlock
    else
      match arguments with
      | [] => .other
      | value :: _ => .setting key value

/-- The directive of a line. -/
def lineDirective (line : String) : Directive := directiveOf (splitWords line)

/-- One directive of a list: a block goes on until the next is opened. -/
def listStep (env : Surroundings) (name : String) (active : Bool) :
    Directive → List (String × String) × Bool
  | .other => ([], active)
  | .host patterns => ([], matchesAlias env patterns name)
  | .matchBlock => ([], false)
  | .setting key value => (if active then [(key, value)] else [], active)

/-- The settings of a host in a list of directives. -/
def listSettings (env : Surroundings) (name : String) (ds : List Directive) :
    List (String × String) :=
  answers (listStep env name) true ds

def Directive.patterns : Directive → List String
  | .host patterns => patterns
  | _ => []

/-- The hosts a list of directives names, each once. -/
def namedHosts (ds : List Directive) : List String :=
  (ds.flatMap Directive.patterns).foldl addAlias []

theorem pushValue_concat (d : String × String) (front : List Block) (block : Block) :
    pushValue d (front ++ [block]) = front ++ [{ block with values := block.values ++ [d] }] := by
  induction front with
  | nil => rfl
  | cons first front ih =>
      cases front with
      | nil => rfl
      | cons next front => exact congrArg (first :: ·) ih

theorem directives_concat (front : List Block) (block : Block) :
    directives env name (front ++ [block]) = directives env name front ++
      (if matchesAlias env block.patterns name then block.values else []) := by
  rw [directives_append, directives_cons]
  exact congrArg _ (List.append_nil _)

/-- The list is in the last of the blocks. -/
def InLast (env : Surroundings) (name : String) (blocks : List Block) (active : Bool) : Prop :=
  ∃ front block, blocks = front ++ [block] ∧ active = matchesAlias env block.patterns name

/-- One line. -/
theorem InLast.parseWords {p : Parsed} {active : Bool} (h : InLast env name p.blocks active)
    (number : ℕ) (words : List String) :
    directives env name (parseWords p number words).blocks =
        directives env name p.blocks ++ (listStep env name active (directiveOf words)).1 ∧
      InLast env name (parseWords p number words).blocks
        (listStep env name active (directiveOf words)).2 := by
  have hnew (patterns : List String) :
      directives env name (p.blocks ++ [Block.mk patterns []]) =
        directives env name p.blocks ++ [] := by
    rw [directives_concat]
    split
    · rfl
    · rfl
  have hsame : directives env name p.blocks = directives env name p.blocks ++ [] :=
    (List.append_nil _).symm
  cases words with
  | nil => exact ⟨hsame, h⟩
  | cons first arguments =>
      simp only [Import.parseWords, directiveOf]
      split_ifs with hhost hempty hmatch
      · exact ⟨hsame, h⟩
      · exact ⟨hnew arguments, ⟨_, _, rfl, rfl⟩⟩
      · exact ⟨hnew [], ⟨_, _, rfl, rfl⟩⟩
      · cases arguments with
        | nil => exact ⟨hsame, h⟩
        | cons value rest =>
            obtain ⟨front, block, hblocks, hactive⟩ := h
            dsimp only [listStep]
            rw [hblocks, pushValue_concat, directives_concat, directives_concat, hactive]
            refine ⟨?_, ⟨front, _, rfl, rfl⟩⟩
            split
            · exact (List.append_assoc _ _ _).symm
            · exact (List.append_nil _).symm

/-- **A run of lines** adds its settings. -/
theorem InLast.parseLines {p : Parsed} {active : Bool} (h : InLast env name p.blocks active)
    (number : ℕ) (lines : List String) :
    directives env name (parseLines number lines p).blocks =
      directives env name p.blocks ++
        answers (listStep env name) active (lines.map lineDirective) := by
  induction lines generalizing number p active with
  | nil => exact (List.append_nil _).symm
  | cons line lines ih =>
      obtain ⟨hline, hnext⟩ := h.parseWords (number + 1) (splitWords line)
      have hrest := ih hnext (number + 1)
      rw [Import.parseLines, hrest, hline, List.map_cons, answers_cons, List.append_assoc]
      rfl

theorem parseWords_aliases (p : Parsed) (number : ℕ) (words : List String) :
    (parseWords p number words).aliases =
      (directiveOf words).patterns.foldl addAlias p.aliases := by
  cases words with
  | nil => rfl
  | cons first arguments =>
      simp only [parseWords, directiveOf]
      split_ifs
      · rfl
      · rfl
      · rfl
      · cases arguments with
        | nil => rfl
        | cons value rest => rfl

/-- And the hosts it names. -/
theorem parseLines_aliases (p : Parsed) (number : ℕ) (lines : List String) :
    (parseLines number lines p).aliases =
      ((lines.map lineDirective).flatMap Directive.patterns).foldl addAlias p.aliases := by
  induction lines generalizing number p with
  | nil => rfl
  | cons line lines ih =>
      rw [parseLines, ih, parseWords_aliases, List.map_cons, List.flatMap_cons, List.foldl_append]
      rfl

/-- The warning at the end leaves the blocks and the hosts. -/
theorem parse_eq (limits : Limits) :
    (parse lines limits).blocks =
        (parseLines 0 lines { blocks := [{ patterns := ["*"] }], limits }).blocks ∧
      (parse lines limits).aliases =
        (parseLines 0 lines { blocks := [{ patterns := ["*"] }], limits }).aliases := by
  unfold parse
  dsimp only
  split
  · exact ⟨rfl, rfl⟩
  · exact ⟨rfl, rfl⟩

/-- **The blocks are a reading of the list.** -/
theorem parse_list (hstar : env.patternMatches "*" name = true) (lines : List String)
    (limits : Limits) :
    directives env name (parse lines limits).blocks =
      listSettings env name (lines.map lineDirective) := by
  have hall : matchesAlias env ["*"] name = true := by
    simp [matchesAlias, matchesFrom, hstar]
  have hstart : InLast env name [{ patterns := ["*"] }] true :=
    ⟨[], { patterns := ["*"] }, rfl, hall.symm⟩
  rw [(parse_eq limits).1, hstart.parseLines]
  simp [directives, listSettings]

/-- **A host is previewed for each name** the list has. -/
theorem previewLines_aliases (env : Surroundings) (lines : List String) (limits : Limits) :
    (previewLines env lines limits).entries.map SshImportEntry.«alias» =
      namedHosts (lines.map lineDirective) := by
  rw [namedHosts, previewLines, List.map_map, ← parseLines_aliases { blocks := [], limits } 0]
  have hnames : (parse lines limits).aliases =
      (parseLines 0 lines { blocks := [], limits }).aliases := by
    rw [(parse_eq limits).2, parseLines_aliases, parseLines_aliases]
  exact (List.map_id _).trans hnames

/-! ## Values -/

/-- The loop over the blocks is one loop over the directives. -/
theorem resolve_eq_foldl : resolve env blocks name =
    (directives env name blocks).foldl resolveDirective {} := by
  have hblocks (s : Resolved) : blocks.foldl (resolveBlock env name) s =
      (directives env name blocks).foldl resolveDirective s := by
    induction blocks generalizing s with
    | nil => rfl
    | cons block blocks ih =>
        rw [List.foldl_cons, ih, directives_cons, List.foldl_append, resolveBlock]
        split
        · rfl
        · rfl
  exact hblocks {}

/-- A directive gives its setting a value, unless there is one. -/
theorem lookup_resolveDirective {s : Resolved} {d : String × String} :
    (resolveDirective s d).values.lookup key =
      ((s.values.lookup key).or (if key ∈ settings ∧ key = d.1 then some d.2 else none)) := by
  unfold resolveDirective
  by_cases hset : d.1 ∈ settings
  · rw [if_pos hset]
    by_cases hkey : key = d.1
    · subst hkey
      by_cases hmem : d.1 ∈ s.values
      · obtain ⟨v, hv⟩ := Map.mem_iff.1 hmem
        rw [if_pos hmem, hv, Option.some_or]
      · rw [if_neg hmem, Map.lookup_eq_none_iff.2 hmem, if_pos ⟨hset, rfl⟩]
        exact AList.lookup_insert s.values
    · have hnone : ¬ (key ∈ settings ∧ key = d.1) := fun h => hkey h.2
      rw [if_neg hnone, Option.or_none]
      split
      · rfl
      · exact AList.lookup_insert_ne hkey
  · have hnone : ¬ (key ∈ settings ∧ key = d.1) := fun h => hset (h.2 ▸ h.1)
    rw [if_neg hset, if_neg hnone, Option.or_none]
    split <;> rfl

/-- **The value of a setting** is the first the directives have for
it. -/
theorem resolve_lookup (hkey : key ∈ settings) :
    (resolve env blocks name).values.lookup key = (directives env name blocks).lookup key := by
  have hfold (s : Resolved) (ds : List (String × String)) :
      (ds.foldl resolveDirective s).values.lookup key =
        (s.values.lookup key).or (ds.lookup key) := by
    induction ds generalizing s with
    | nil => rw [List.foldl_nil, List.lookup_nil, Option.or_none]
    | cons d ds ih =>
        rw [List.foldl_cons, ih, lookup_resolveDirective, Option.or_assoc, List.lookup_cons]
        by_cases heq : key = d.1
        · rw [if_pos ⟨hkey, heq⟩, heq, beq_self_eq_true]
          rfl
        · rw [if_neg fun h => heq h.2, beq_false_of_ne heq]
          rfl
  rw [resolve_eq_foldl, hfold]
  rfl

/-- A warning of the loop names a setting that is not read. -/
theorem resolve_warnings : ∀ warning ∈ (resolve env blocks name).warnings,
    ∃ key, warning = "Unsupported: " ++ key := by
  rw [resolve_eq_foldl]
  generalize directives env name blocks = ds
  have hfold (s : Resolved) (hs : ∀ warning ∈ s.warnings, ∃ key, warning = "Unsupported: " ++ key) :
      ∀ warning ∈ (ds.foldl resolveDirective s).warnings,
        ∃ key, warning = "Unsupported: " ++ key := by
    induction ds generalizing s with
    | nil => exact hs
    | cons d ds ih =>
        refine ih _ ?_
        unfold resolveDirective
        split_ifs
        · exact hs
        · exact hs
        · refine List.forall_mem_append.2 ⟨hs, fun warning hwarning => ⟨d.1, ?_⟩⟩
          exact List.mem_singleton.1 hwarning
        · exact hs
  exact hfold {} (by simp)

theorem unmapped_mem : ∀ key ∈ ["hostkeyalias", "userknownhostsfile"], key ∈ settings := by
  decide

theorem unmapped_head : ∀ key ∈ ["hostkeyalias", "userknownhostsfile"],
    (key ++ " is not mapped; verify host key settings before use").toList.head? ≠ some 'U' := by
  decide

theorem mem_valueWarnings_unmapped {host : SshHost} {values : Map String String}
    (hkey : key ∈ ["hostkeyalias", "userknownhostsfile"]) :
    key ++ " is not mapped; verify host key settings before use" ∈ valueWarnings host values ↔
      key ∈ values := by
  have hmap : key ++ " is not mapped; verify host key settings before use" ∈
      (["hostkeyalias", "userknownhostsfile"].filter (· ∈ values)).map
        (· ++ " is not mapped; verify host key settings before use") ↔ key ∈ values := by
    simp only [List.mem_map, String.append_left_inj, exists_eq_right, List.mem_filter,
      decide_eq_true_eq]
    exact and_iff_right hkey
  simp only [valueWarnings, List.mem_append, hmap]
  simp only [List.mem_cons, List.not_mem_nil, or_false] at hkey
  rcases hkey with rfl | rfl
  · simp
  · simp

theorem mem_valueWarnings_identitiesOnly {host : SshHost} {values : Map String String} :
    "IdentitiesOnly yes has no IdentityFile" ∈ valueWarnings host values ↔
      values.lookup "identitiesonly" = some "yes" ∧ "identityfile" ∉ values := by
  simp [valueWarnings]

/-- **An entry that has its settings from `value`**, as far as they are
`settled`: each becomes a field of the host, or is warned about. -/
structure SshImportEntry.ReadsFrom (env : Surroundings) (value : String → Option String)
    (settled : String → Prop) (e : SshImportEntry) : Prop where
  hostname : settled "hostname" → e.host.hostname =
    String.ofList (replaceName e.alias ((value "hostname").getD e.alias).toList)
  user : settled "user" → e.host.username = (value "user").getD env.defaultUser
  port : settled "port" → e.host.port =
    (((value "port").bind (parseUnsigned (2 ^ 16))).filter (0 < ·)).getD 22
  identityFile : settled "identityfile" → e.host.auth =
    (value "identityfile").elim (.agent none) fun path => .privateKey (keyPath env path) none
  proxyJump : settled "proxyjump" → e.proxyJump = value "proxyjump"
  connectTimeout : settled "connecttimeout" → e.host.connectTimeout = Duration.fromSecs
    (max (((value "connecttimeout").bind (parseUnsigned (2 ^ 64))).getD 10) 1)
  serverAliveInterval : settled "serveraliveinterval" → e.host.keepaliveInterval =
    Duration.fromSecs
      (max (((value "serveraliveinterval").bind (parseUnsigned (2 ^ 64))).getD 30) 1)
  serverAliveCountMax : settled "serveralivecountmax" → e.host.keepaliveMax =
    min (max (((value "serveralivecountmax").bind (parseUnsigned (2 ^ 64))).getD 3) 1) (2 ^ 32 - 1)
  unmapped : ∀ key ∈ ["hostkeyalias", "userknownhostsfile"], settled key →
    (key ++ " is not mapped; verify host key settings before use" ∈ e.warnings ↔
      (value key).isSome)
  identitiesOnly : settled "identitiesonly" → settled "identityfile" →
    ("IdentitiesOnly yes has no IdentityFile" ∈ e.warnings ↔
      value "identitiesonly" = some "yes" ∧ value "identityfile" = none)

/-- **The entry of a host has its settings from the directives**, where
they are the first ones. -/
theorem previewEntry_readsFrom {value : String → Option String} {settled : String → Prop}
    (h : ∀ key ∈ settings, settled key → (directives env name blocks).lookup key = value key) :
    (previewEntry env blocks name).ReadsFrom env value settled := by
  have hvalue {key : String} (hkey : key ∈ settings) (hs : settled key) :
      (resolve env blocks name).values.lookup key = value key :=
    (resolve_lookup hkey).trans (h key hkey hs)
  have hmem {key : String} (hkey : key ∈ settings) (hs : settled key) :
      key ∈ (resolve env blocks name).values ↔ (value key).isSome := by
    rw [← hvalue hkey hs, Map.mem_iff, Option.isSome_iff_exists]
  -- A warning of the values is not one of the loop.
  have hwarning {text : String} (htext : text.toList.head? ≠ some 'U') :
      text ∈ (previewEntry env blocks name).warnings ↔
        text ∈ valueWarnings (previewEntry env blocks name).host
          (resolve env blocks name).values := by
    refine ⟨fun hmem => ?_, List.mem_append_right _⟩
    refine (List.mem_append.1 hmem).resolve_left fun hloop => ?_
    obtain ⟨key, rfl⟩ := resolve_warnings text hloop
    rw [String.toList_append] at htext
    exact htext rfl
  constructor
  · intro hs
    simp only [previewEntry, previewHost, hvalue (by decide) hs]
  · intro hs
    simp only [previewEntry, previewHost, hvalue (by decide) hs]
  · intro hs
    simp only [previewEntry, previewHost, Import.port, hvalue (by decide) hs]
  · intro hs
    simp only [previewEntry, previewHost, hvalue (by decide) hs]
    cases value "identityfile" with
    | none => rfl
    | some path => rfl
  · intro hs
    exact hvalue (by decide) hs
  · intro hs
    simp only [previewEntry, previewHost, seconds, hvalue (by decide) hs]
  · intro hs
    simp only [previewEntry, previewHost, seconds, hvalue (by decide) hs]
  · intro hs
    simp only [previewEntry, previewHost, seconds, hvalue (by decide) hs]
  · intro key hkey hs
    have hread : key ∈ settings := unmapped_mem key hkey
    have htext : (key ++ " is not mapped; verify host key settings before use").toList.head? ≠
        some 'U' := unmapped_head key hkey
    rw [← hmem hread hs, hwarning htext, mem_valueWarnings_unmapped hkey]
  · intro hs hfile
    rw [hwarning (by decide), mem_valueWarnings_identitiesOnly, hvalue (by decide) hs,
      hmem (by decide) hfile, Option.not_isSome_iff_eq_none]

/-- Some directive for the host gives the setting a value. -/
def Determined (env : Surroundings) (blocks : List Block) (name key : String) : Prop :=
  ∃ block ∈ blocks, matchesAlias env block.patterns name = true ∧
    ∃ value, (key, value) ∈ block.values

theorem Determined.lookup (h : Determined env blocks name key) :
    ∃ value, (directives env name blocks).lookup key = some value := by
  obtain ⟨block, hblock, hmatch, value, hvalue⟩ := h
  have hmem : (key, value) ∈ directives env name blocks :=
    List.mem_flatMap.2 ⟨block, hblock, by rwa [if_pos hmatch]⟩
  rw [← Option.isSome_iff_exists, List.lookup_isSome_iff]
  exact ⟨(key, value), hmem, by simp⟩

/-! ## Further lines -/

/-- A directive goes to the last block. -/
theorem directives_pushValue (d : String × String) :
    directives env name blocks <+: directives env name (pushValue d blocks) := by
  induction blocks with
  | nil => exact List.prefix_refl _
  | cons block blocks ih =>
      cases blocks with
      | nil =>
          rw [pushValue, directives_cons, directives_cons, directives, List.flatMap_nil,
            List.append_nil, List.append_nil]
          split
          · exact List.prefix_append _ _
          · exact List.prefix_refl _
      | cons next rest =>
          rw [pushValue, directives_cons, directives_cons]
          exact (List.prefix_append_right_inj _).2 ih

/-- **One line** adds to the directives of a host and to the hosts, at
the end. -/
theorem parseWords_extends (env : Surroundings) (name : String) (s : Parsed) (number : ℕ)
    (words : List String) :
    directives env name s.blocks <+: directives env name (parseWords s number words).blocks ∧
      s.aliases <+: (parseWords s number words).aliases := by
  have haliases (patterns aliases : List String) : aliases <+: patterns.foldl addAlias aliases := by
    induction patterns generalizing aliases with
    | nil => exact List.prefix_refl _
    | cons pattern patterns ih =>
        refine List.IsPrefix.trans ?_ (ih _)
        unfold addAlias
        split
        · exact List.prefix_append _ _
        · exact List.prefix_refl _
  have hblock (block : Block) :
      directives env name s.blocks <+: directives env name (s.blocks ++ [block]) := by
    rw [directives_append]
    exact List.prefix_append _ _
  cases words with
  | nil => exact ⟨List.prefix_refl _, List.prefix_refl _⟩
  | cons first arguments =>
      simp only [parseWords]
      split_ifs with hhost hempty hmatch
      · exact ⟨List.prefix_refl _, List.prefix_refl _⟩
      · exact ⟨hblock _, haliases arguments s.aliases⟩
      · exact ⟨hblock _, List.prefix_refl _⟩
      · cases arguments with
        | nil => exact ⟨List.prefix_refl _, List.prefix_refl _⟩
        | cons value rest => exact ⟨directives_pushValue _, List.prefix_refl _⟩

theorem parseLines_append (number : ℕ) (s : Parsed) :
    parseLines number (lines ++ more) s =
      parseLines (number + lines.length) more (parseLines number lines s) := by
  induction lines generalizing number s with
  | nil => rfl
  | cons line lines ih =>
      rw [List.cons_append, parseLines, ih, parseLines, List.length_cons,
        Nat.add_right_comm number 1, Nat.add_assoc]

/-- **The lines of a run** add at the end, as one line does. -/
theorem parseLines_extends (env : Surroundings) (name : String) (lines : List String)
    (number : ℕ) (s : Parsed) :
    directives env name s.blocks <+: directives env name (parseLines number lines s).blocks ∧
      s.aliases <+: (parseLines number lines s).aliases := by
  induction lines generalizing number s with
  | nil => exact ⟨List.prefix_refl _, List.prefix_refl _⟩
  | cons line lines ih =>
      have hline := parseWords_extends env name s (number + 1) (splitWords line)
      have hrest := ih (number + 1) (parseWords s (number + 1) (splitWords line))
      exact ⟨hline.1.trans hrest.1, hline.2.trans hrest.2⟩

/-- The limits carry the warnings along, and nothing reads them. -/
theorem parseLines_limits (lines : List String) (number : ℕ) {s t : Parsed} (hb : s.blocks = t.blocks)
    (ha : s.aliases = t.aliases) :
    (parseLines number lines s).blocks = (parseLines number lines t).blocks ∧
      (parseLines number lines s).aliases = (parseLines number lines t).aliases := by
  induction lines generalizing number s t with
  | nil => exact ⟨hb, ha⟩
  | cons line lines ih =>
      have hwords (words : List String) :
          (parseWords s (number + 1) words).blocks = (parseWords t (number + 1) words).blocks ∧
            (parseWords s (number + 1) words).aliases =
              (parseWords t (number + 1) words).aliases := by
        cases words with
        | nil => exact ⟨hb, ha⟩
        | cons first arguments =>
            simp only [parseWords]
            split_ifs
            · exact ⟨hb, ha⟩
            · exact ⟨by rw [hb], by rw [ha]⟩
            · exact ⟨congrArg (· ++ _) hb, ha⟩
            · cases arguments with
              | nil => exact ⟨hb, ha⟩
              | cons value rest => exact ⟨congrArg (pushValue _) hb, ha⟩
      exact ih (number + 1) (hwords _).1 (hwords _).2

/-- Lines behind the others extend the directives of every host, and
the list of the hosts. -/
theorem parse_append (env : Surroundings) (lines more : List String) (limits limits' : Limits) :
    (∀ name, directives env name (parse lines limits).blocks <+:
      directives env name (parse (lines ++ more) limits').blocks) ∧
    (parse lines limits).aliases <+: (parse (lines ++ more) limits').aliases := by
  have hsame := parseLines_limits lines 0
    (s := { blocks := [{ patterns := ["*"] }], limits })
    (t := { blocks := [{ patterns := ["*"] }], limits := limits' }) rfl rfl
  rw [(parse_eq limits).1, (parse_eq limits).2, (parse_eq limits').1, (parse_eq limits').2,
    hsame.1, hsame.2, parseLines_append]
  have hmore (name : String) := parseLines_extends env name more (0 + lines.length)
    (parseLines 0 lines { blocks := [{ patterns := ["*"] }], limits := limits' })
  exact ⟨fun name => (hmore name).1, (hmore "").2⟩

/-- **A value that is determined stays** when the directives are
extended. -/
theorem Determined.lookup_eq {blocks' : List Block} (h : Determined env blocks name key)
    (hkey : key ∈ settings) (hext : directives env name blocks <+: directives env name blocks') :
    (resolve env blocks' name).values.lookup key = (resolve env blocks name).values.lookup key := by
  obtain ⟨rest, hrest⟩ := hext
  obtain ⟨value, hvalue⟩ := h.lookup
  rw [resolve_lookup hkey, resolve_lookup hkey, ← hrest, List.lookup_append, hvalue,
    Option.some_or]

/-! ## Two previews -/

/-- The entries of one host in two previews: the settings that the
blocks of the first determine are the same in both, as values and in
what is made of them. -/
structure SameSettings (env : Surroundings) (blocks blocks' : List Block)
    (e e' : SshImportEntry) : Prop where
  alias_eq : e'.alias = e.alias
  values : ∀ key ∈ settings, Determined env blocks e.alias key →
    (resolve env blocks' e.alias).values.lookup key = (resolve env blocks e.alias).values.lookup key
  hostname : Determined env blocks e.alias "hostname" → e'.host.hostname = e.host.hostname
  user : Determined env blocks e.alias "user" → e'.host.username = e.host.username
  port : Determined env blocks e.alias "port" → e'.host.port = e.host.port
  identityFile : Determined env blocks e.alias "identityfile" → e'.host.auth = e.host.auth
  proxyJump : Determined env blocks e.alias "proxyjump" → e'.proxyJump = e.proxyJump
  connectTimeout : Determined env blocks e.alias "connecttimeout" →
    e'.host.connectTimeout = e.host.connectTimeout
  serverAliveInterval : Determined env blocks e.alias "serveraliveinterval" →
    e'.host.keepaliveInterval = e.host.keepaliveInterval
  serverAliveCountMax : Determined env blocks e.alias "serveralivecountmax" →
    e'.host.keepaliveMax = e.host.keepaliveMax

/-- The entries of one host are alike where its directives are
extended. -/
theorem previewEntry_same {blocks' : List Block}
    (hext : directives env name blocks <+: directives env name blocks') :
    SameSettings env blocks blocks' (previewEntry env blocks name)
      (previewEntry env blocks' name) := by
  have hvalue {key : String} (hkey : key ∈ settings) (h : Determined env blocks name key) :
      (resolve env blocks' name).values.lookup key = (resolve env blocks name).values.lookup key :=
    h.lookup_eq hkey hext
  exact
    { alias_eq := rfl
      values := fun _ hkey h => hvalue hkey h
      hostname := fun h => by simp only [previewEntry, previewHost, hvalue (by decide) h]
      user := fun h => by simp only [previewEntry, previewHost, hvalue (by decide) h]
      port := fun h => by simp only [previewEntry, previewHost, port, hvalue (by decide) h]
      identityFile := fun h => by simp only [previewEntry, previewHost, hvalue (by decide) h]
      proxyJump := fun h => hvalue (by decide) h
      connectTimeout := fun h => by
        simp only [previewEntry, previewHost, seconds, hvalue (by decide) h]
      serverAliveInterval := fun h => by
        simp only [previewEntry, previewHost, seconds, hvalue (by decide) h]
      serverAliveCountMax := fun h => by
        simp only [previewEntry, previewHost, seconds, hvalue (by decide) h] }

/-- **What the lines have settled stays settled** when others follow:
the hosts that are named are previewed, each at its place, with every
setting it was given as it was. -/
theorem preview_append (env : Surroundings) (lines more : List String) (limits limits' : Limits) :
    (previewLines env lines limits).entries.map SshImportEntry.«alias» =
        namedHosts (lines.map lineDirective) ∧
      ∃ front rest,
        (previewLines env (lines ++ more) limits').entries = front ++ rest ∧
        List.Forall₂ (SameSettings env (parse lines limits).blocks
            (parse (lines ++ more) limits').blocks)
          (previewLines env lines limits).entries front := by
  obtain ⟨hdirectives, aliases, haliases⟩ :=
    parse_append env lines more limits limits'
  refine ⟨previewLines_aliases env lines limits,
    (parse lines limits).aliases.map (previewEntry env (parse (lines ++ more) limits').blocks),
    aliases.map (previewEntry env (parse (lines ++ more) limits').blocks), ?_, ?_⟩
  · rw [previewLines, ← List.map_append, haliases]
  · rw [previewLines, List.forall₂_map_left_iff, List.forall₂_map_right_iff]
    exact List.forall₂_same.2 fun name _ => previewEntry_same (hdirectives name)

end Import

end TunnelWarden
