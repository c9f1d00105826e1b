import Mathlib.Data.List.ReduceOption
import Mathlib.Logic.Function.Basic
import TunnelWarden.Import.Tree

/-!
# Lines in place

A line is in place where it is read, and the last block that was opened
is the one block in force among the open files (`Place`). OpenSSH goes by
the blocks in force, the import by the last (`Together`): in place that is
the same, and a setting whose lines are in place, up to the one that
counts, has one value in both readings (`listSettings_lookup`); where the
included files open no block that is every setting (`settled_of_plain`).
No condition on where the blocks open lets in more lines: one that is out
of place is misread in some tree of the same shape (`inPlace_iff`).
-/

namespace TunnelWarden

namespace Import

/-- Where a line stands. The blocks are numbered in the order they are
opened in, those that nothing is read of left out. -/
structure Place where
  skim : Skim := {}
  opened : ℕ := 0
  /-- The block the file is in. -/
  block : Option ℕ := none
  /-- Those the `Include` lines of the open files stand in. -/
  enclosing : List (Option ℕ) := []
  /-- The last that was opened. -/
  last : Option ℕ := none
  deriving DecidableEq, Repr

namespace Place

/-- A `Host` or `Match` line. -/
def openBlock (p : Place) : Place :=
  { p with opened := p.opened + 1, block := some p.opened, last := some p.opened }

def step (p : Place) : Token → Place
  | .enter path utf8 =>
    if (p.skim.enter path utf8).skipped = 0 then
      { p with
        skim := p.skim.enter path utf8, block := none, enclosing := p.block :: p.enclosing }
    else { p with skim := p.skim.enter path utf8 }
  | .leave =>
    let skim := { p.skim with skipped := p.skim.skipped - 1 }
    if p.skim.skipped = 0 then
      { p with skim, block := p.enclosing.head?.getD none, enclosing := p.enclosing.tail }
    else { p with skim }
  | .directive (.host _) | .directive .matchBlock => if p.skim.skipped = 0 then p.openBlock else p
  | .directive .other | .directive (.setting ..) => p

/-- The blocks that are in force. -/
def inForce (p : Place) : List ℕ := (p.block :: p.enclosing).reduceOption

/-- **In place**: the line is read, and the last block that was opened is
the one block in force, if there is any. -/
def inPlace (p : Place) : Bool := p.skim.skipped == 0 && p.inForce == p.last.toList

end Place

/-- A line for a setting: whether OpenSSH applies it to the host, and
whether it is in place. -/
structure Site where
  key : String
  value : String
  applies : Bool
  inPlace : Bool
  deriving DecidableEq, Repr

def siteStep (env : Surroundings) (name : String) (s : Scope × Place) (t : Token) :
    List Site × Scope × Place :=
  (match t with
    | .directive (.setting key value) => [⟨key, value, s.1.active, s.2.inPlace⟩]
    | _ => [],
    (s.1.step env name t).2, s.2.step t)

/-- The lines for `key` are in place, up to the first that applies. -/
def settledIn (key : String) : List Site → Bool
  | [] => true
  | site :: rest =>
    if site.key = key then site.inPlace && (site.applies || settledIn key rest)
    else settledIn key rest

/-- **A setting that is settled**: the line OpenSSH takes it from for the
host is in place, and so is every line for it before. -/
def Settled (env : Surroundings) (name key : String) (ts : List Token) : Prop :=
  settledIn key (answers (siteStep env name) ({}, {}) ts) = true

instance {env : Surroundings} {name key : String} {ts : List Token} :
    Decidable (Settled env name key ts) :=
  inferInstanceAs (Decidable (_ = true))

/-! ## Both readings at once -/

variable {env : Surroundings} {name key : String} {ts : List Token} {t : Token}
variable {s : Scope} {p : Place} {active : Bool} {holds : ℕ → Bool}

/-- All blocks of a list apply, where the `n`-th block does if
`holds n`. -/
def inAll (holds : ℕ → Bool) (blocks : List (Option ℕ)) : Bool := blocks.reduceOption.all holds

/-- The same of the list and of each of its ends. -/
def levels (holds : ℕ → Bool) : List (Option ℕ) → List Bool
  | [] => []
  | block :: rest => inAll holds (block :: rest) :: levels holds rest

/-- Whether the block of a `Host` or `Match` line applies. -/
def Token.block (env : Surroundings) (name : String) : Token → Option Bool
  | .directive (.host patterns) => some (matchesAlias env patterns name)
  | .directive .matchBlock => some false
  | _ => none

/-- The numbers of the blocks. -/
structure Place.Numbered (p : Place) : Prop where
  last : ∀ n, p.last = some n → n < p.opened
  inForce : ∀ n ∈ p.inForce, n < p.opened
  descends : p.inForce.Pairwise (· > ·)
  none_last : p.last = none → p.inForce = []

/-- **The two readings at one place**: OpenSSH goes by the blocks in
force, the import by the last that was opened. -/
structure Together (holds : ℕ → Bool) (s : Scope) (p : Place) (active : Bool) : Prop where
  active : active = p.last.all holds
  scopes : (s.active :: s.enclosing).drop p.skim.skipped = levels holds (p.block :: p.enclosing)

theorem numbered_start : ({} : Place).Numbered :=
  ⟨nofun, nofun, List.Pairwise.nil, fun _ => rfl⟩

theorem together_start : Together holds {} {} true := ⟨rfl, rfl⟩

/-- Leaving a file takes blocks away. -/
theorem Place.inForce_leave (p : Place) :
    ((p.enclosing.head?.getD none :: p.enclosing.tail).reduceOption).Sublist p.inForce := by
  unfold Place.inForce
  cases p.enclosing with
  | nil => exact List.nil_sublist _
  | cons block rest =>
      cases p.block with
      | none => exact List.Sublist.refl _
      | some n => exact List.sublist_cons_self _ _

theorem Place.Numbered.openBlock (h : p.Numbered) : p.openBlock.Numbered := by
  have hsub : p.enclosing.reduceOption.Sublist p.inForce := by
    unfold Place.inForce
    cases p.block with
    | none => exact List.Sublist.refl _
    | some n => exact List.sublist_cons_self _ _
  have hlt : ∀ n ∈ p.enclosing.reduceOption, n < p.opened := fun n hn =>
    h.inForce n (hsub.subset hn)
  constructor
  · intro n hn
    obtain rfl := Option.some.inj hn
    exact Nat.lt_succ_self _
  · intro n hn
    rcases List.mem_cons.1 hn with rfl | hn
    · exact Nat.lt_succ_self _
    · exact Nat.lt_succ_of_lt (hlt n hn)
  · exact List.Pairwise.cons hlt (h.descends.sublist hsub)
  · exact fun hnone => by cases hnone

/-- **One token keeps the numbers.** -/
theorem Place.Numbered.step (h : p.Numbered) (t : Token) : (p.step t).Numbered := by
  have hskip (skim : Skim) : ({ p with skim } : Place).Numbered :=
    ⟨h.last, h.inForce, h.descends, h.none_last⟩
  unfold Place.step
  split
  · split
    · exact ⟨h.last, h.inForce, h.descends, h.none_last⟩
    · exact hskip _
  · dsimp only
    split
    · have hsub := p.inForce_leave
      refine ⟨h.last, fun n hn => h.inForce n (hsub.subset hn), h.descends.sublist hsub,
        fun hnone => ?_⟩
      have hnil := h.none_last hnone
      rw [hnil] at hsub
      exact List.sublist_nil.1 hsub
    · exact hskip _
  · split
    · exact h.openBlock
    · exact h
  · split
    · exact h.openBlock
    · exact h
  · exact h
  · exact h

theorem Place.Numbered.run (h : p.Numbered) (ts : List Token) :
    (ts.foldl Place.step p).Numbered := by
  induction ts generalizing p with
  | nil => exact h
  | cons t ts ih => exact ih (h.step t)

theorem levels_congr {holds' : ℕ → Bool} {blocks : List (Option ℕ)}
    (h : ∀ n ∈ blocks.reduceOption, holds' n = holds n) :
    levels holds' blocks = levels holds blocks := by
  induction blocks with
  | nil => rfl
  | cons block rest ih =>
      have hrest : ∀ n ∈ rest.reduceOption, holds' n = holds n := by
        intro n hn
        refine h n ?_
        cases block with
        | none => exact hn
        | some m => exact List.mem_cons_of_mem _ hn
      have hall : inAll holds' (block :: rest) = inAll holds (block :: rest) := by
        unfold inAll
        rw [Bool.eq_iff_iff, List.all_eq_true, List.all_eq_true]
        exact forall₂_congr fun n hn => by rw [h n hn]
      rw [levels, levels, hall, ih hrest]

/-- Blocks that are yet to be opened do not matter. -/
theorem Together.congr {holds' : ℕ → Bool} (h : Together holds s p active) (hn : p.Numbered)
    (hsame : ∀ n < p.opened, holds' n = holds n) : Together holds' s p active := by
  constructor
  · rw [h.active]
    cases hlast : p.last with
    | none => rfl
    | some n => exact (hsame n (hn.last n hlast)).symm
  · rw [h.scopes]
    exact (levels_congr fun n hmem => hsame n (hn.inForce n hmem)).symm

/-- The first level, and those of the files around. -/
theorem levels_cons (block : Option ℕ) (rest : List (Option ℕ)) :
    levels holds (block :: rest) = inAll holds (block :: rest) :: levels holds rest := rfl

theorem Place.step_skim (p : Place) (t : Token) : (p.step t).skim = (p.skim.step t).2 := by
  unfold Place.step
  split
  · split <;> rfl
  · dsimp only
    split <;> rfl
  · split <;> rfl
  · split <;> rfl
  · rfl
  · rfl

/-- A block that is read of is the last, and the one the file is in. -/
theorem Together.openBlock (h : Together holds s p active) (hskipped : p.skim.skipped = 0)
    (matched : Bool) (hmatched : holds p.opened = matched) :
    Together holds { s with active := s.outer && matched } p.openBlock matched := by
  have henclosing : s.enclosing = levels holds p.enclosing := by
    have hlevels := h.scopes
    rw [hskipped, List.drop_zero, levels_cons] at hlevels
    exact (List.cons.inj hlevels).2
  have houter : s.outer = inAll holds p.enclosing := by
    rw [Scope.outer, henclosing]
    cases p.enclosing with
    | nil => rfl
    | cons block rest => rfl
  constructor
  · exact hmatched.symm
  · have hfirst : inAll holds (some p.opened :: p.enclosing) = (s.outer && matched) := by
      rw [houter, Bool.and_comm, ← hmatched]
      rfl
    change ((s.outer && matched) :: s.enclosing).drop p.skim.skipped =
      levels holds (some p.opened :: p.enclosing)
    rw [hskipped, List.drop_zero, levels_cons, hfirst, henclosing]

/-- A block of a file that is skipped is left with the file. -/
theorem Together.skipBlock (h : Together holds s p active) (hskipped : p.skim.skipped ≠ 0)
    (matched : Bool) : Together holds { s with active := matched } p active := by
  refine ⟨h.active, ?_⟩
  obtain ⟨skipped, hsucc⟩ := Nat.exists_eq_succ_of_ne_zero hskipped
  have hlevels := h.scopes
  rw [hsucc, Nat.succ_eq_add_one, List.drop_succ_cons] at hlevels ⊢
  exact hlevels

theorem Together.enter (h : Together holds s p active) (path : PathBuf) (utf8 : Bool) :
    Together holds (s.step env name (.enter path utf8)).2 (p.step (.enter path utf8)) active := by
  have hlevels := h.scopes
  have hskip (skipped : ℕ) (hsucc : skipped = p.skim.skipped + 1) :
      (s.active :: s.active :: s.enclosing).drop skipped =
        levels holds (p.block :: p.enclosing) := by
    rw [hsucc, List.drop_succ_cons]
    exact hlevels
  simp only [Place.step, Skim.enter]
  split
  · rename_i hnew
    cases utf8 with
    | false => exact ⟨h.active, hskip 1 (by omega)⟩
    | true =>
        rw [hnew.1, List.drop_zero] at hlevels
        refine ⟨h.active, ?_⟩
        change s.active :: s.active :: s.enclosing = levels holds (none :: p.block :: p.enclosing)
        rw [levels_cons, ← hlevels]
        rw [levels_cons] at hlevels
        rw [(List.cons.inj hlevels).1]
        rfl
  · split
    · rename_i hzero
      exact absurd hzero (Nat.succ_ne_zero _)
    · exact ⟨h.active, hskip _ rfl⟩

theorem Together.leave (h : Together holds s p active) :
    Together holds (s.step env name .leave).2 (p.step .leave) active := by
  have hlevels := h.scopes
  simp only [Place.step]
  split
  · rename_i hzero
    rw [hzero, List.drop_zero, levels_cons] at hlevels
    have henclosing := (List.cons.inj hlevels).2
    refine ⟨h.active, ?_⟩
    change (s.outer :: s.enclosing.tail).drop (p.skim.skipped - 1) = _
    rw [hzero, Scope.outer, henclosing]
    cases p.enclosing with
    | nil => rfl
    | cons block rest => rfl
  · rename_i hskipped
    obtain ⟨skipped, hsucc⟩ := Nat.exists_eq_succ_of_ne_zero hskipped
    refine ⟨h.active, ?_⟩
    change (s.outer :: s.enclosing.tail).drop (p.skim.skipped - 1) = _
    rw [hsucc, Nat.succ_eq_add_one, List.drop_succ_cons] at hlevels
    rw [hsucc, Nat.succ_eq_add_one, Nat.add_sub_cancel, Scope.outer]
    cases henclosing : s.enclosing with
    | nil =>
        rw [henclosing, List.drop_nil, levels_cons] at hlevels
        nomatch hlevels
    | cons outer rest =>
        rw [henclosing] at hlevels
        exact hlevels

/-- **One token** keeps the two readings together, where a block holds as
its line says. -/
theorem Together.step (env : Surroundings) (name : String) (h : Together holds s p active)
    (t : Token) (hblock : ∀ matched, t.block env name = some matched → p.skim.skipped = 0 →
      holds p.opened = matched) :
    Together holds (s.step env name t).2 (p.step t)
      (runState (listStep env name) active (p.skim.step t).1) := by
  cases t with
  | enter path utf8 => exact h.enter path utf8
  | leave => exact h.leave
  | directive d =>
      by_cases hskipped : p.skim.skipped = 0
      · have hread : (p.skim.step (.directive d)).1 = [d] := if_pos hskipped
        rw [hread]
        cases d with
        | other => exact h
        | setting key value => exact h
        | host patterns =>
            rw [Place.step, if_pos hskipped]
            exact h.openBlock hskipped _ (hblock _ rfl hskipped)
        | matchBlock =>
            rw [Place.step, if_pos hskipped]
            have hopen := h.openBlock hskipped false (hblock _ rfl hskipped)
            rw [Bool.and_false] at hopen
            exact hopen
      · have hread : (p.skim.step (.directive d)).1 = [] := if_neg hskipped
        rw [hread]
        cases d with
        | other => exact h
        | setting key value => exact h
        | host patterns =>
            rw [Place.step, if_neg hskipped]
            exact h.skipBlock hskipped _
        | matchBlock =>
            rw [Place.step, if_neg hskipped]
            exact h.skipBlock hskipped _

/-- The same, with a block that is opened numbered as it holds. -/
theorem Together.next (env : Surroundings) (name : String) (h : Together holds s p active)
    (hn : p.Numbered) (t : Token) :
    ∃ holds', Together holds' (s.step env name t).2 (p.step t)
      (runState (listStep env name) active (p.skim.step t).1) := by
  let holds' := Function.update holds p.opened ((t.block env name).getD true)
  have hsame : ∀ n < p.opened, holds' n = holds n := fun n hn =>
    Function.update_of_ne (Nat.ne_of_lt hn) _ _
  refine ⟨holds', (h.congr hn hsame).step env name t fun matched hmatched _ => ?_⟩
  rw [show holds' p.opened = (t.block env name).getD true from Function.update_self _ _ _,
    hmatched]
  rfl

/-- **A line in place** is read, and the block that counts is one. -/
theorem Together.of_inPlace (h : Together holds s p active) (hp : p.inPlace = true) :
    p.skim.skipped = 0 ∧ s.active = active := by
  unfold Place.inPlace at hp
  rw [Bool.and_eq_true, beq_iff_eq, beq_iff_eq] at hp
  obtain ⟨hskipped, hforce⟩ := hp
  refine ⟨hskipped, ?_⟩
  have hlevels := h.scopes
  rw [hskipped, List.drop_zero, levels_cons] at hlevels
  have hactive : s.active = p.inForce.all holds := (List.cons.inj hlevels).1
  rw [hactive, hforce, h.active]
  cases p.last with
  | none => rfl
  | some n => exact Bool.and_true _

/-! ## Settings -/

theorem lookup_append_of_ne {key' value : String} {more : List (String × String)} (b : Bool)
    (h : key' ≠ key) :
    ((if b then [(key', value)] else []) ++ more).lookup key = more.lookup key := by
  cases b with
  | false => rfl
  | true =>
      change List.lookup key ((key', value) :: more) = _
      rw [List.lookup_cons, beq_false_of_ne (Ne.symm h)]

/-- A token that is no setting gives neither reading one. -/
theorem no_setting (s : Scope) (p : Place) (active : Bool)
    (hnone : ∀ key value, t ≠ .directive (.setting key value)) :
    answers (listStep env name) active (p.skim.step t).1 = [] ∧ (s.step env name t).1 = [] ∧
      (siteStep env name (s, p) t).1 = [] := by
  cases t with
  | enter path utf8 => exact ⟨rfl, rfl, rfl⟩
  | leave => exact ⟨rfl, rfl, rfl⟩
  | directive d =>
      dsimp only [Skim.step]
      cases d with
      | setting key value => exact absurd rfl (hnone key value)
      | other => split <;> exact ⟨rfl, rfl, rfl⟩
      | host patterns => split <;> exact ⟨rfl, rfl, rfl⟩
      | matchBlock => split <;> exact ⟨rfl, rfl, rfl⟩

/-- A line for a setting, as the import takes it. -/
theorem list_setting (p : Place) (active : Bool) (key value : String) :
    answers (listStep env name) active (p.skim.step (.directive (.setting key value))).1 =
      if (active && p.skim.skipped == 0) then [(key, value)] else [] := by
  dsimp only [Skim.step]
  by_cases hskipped : p.skim.skipped = 0
  · rw [if_pos hskipped, hskipped, beq_self_eq_true, Bool.and_true]
    exact List.append_nil _
  · rw [if_neg hskipped, beq_false_of_ne hskipped, Bool.and_false]
    rfl

theorem lookup_settled (h : Together holds s p active) (hn : p.Numbered)
    (hsettled : settledIn key (answers (siteStep env name) (s, p) ts) = true) :
    (answers (listStep env name) active (answers Skim.step p.skim ts)).lookup key =
      (answers (Scope.step env name) s ts).lookup key := by
  induction ts generalizing holds s p active with
  | nil => rfl
  | cons t ts ih =>
      obtain ⟨holds', hnext⟩ := h.next env name hn t
      have hrest := ih hnext (hn.step t)
      rw [Place.step_skim] at hrest
      rw [answers_cons, answers_cons, answers_append]
      rw [answers_cons] at hsettled
      by_cases hset : ∃ key value, t = .directive (.setting key value)
      · obtain ⟨key', value, rfl⟩ := hset
        have hsite : (siteStep env name (s, p) (.directive (.setting key' value))).1 =
            [⟨key', value, s.active, p.inPlace⟩] := rfl
        have hnested : (s.step env name (.directive (.setting key' value))).1 =
            if s.active then [(key', value)] else [] := rfl
        rw [hsite, List.singleton_append, settledIn] at hsettled
        rw [list_setting, hnested]
        by_cases hkey : key' = key
        · -- in place, the line applies in both readings or in neither
          rw [if_pos hkey, Bool.and_eq_true, Bool.or_eq_true] at hsettled
          obtain ⟨hplace, happlies⟩ := hsettled
          obtain ⟨hskipped, hactive⟩ := h.of_inPlace hplace
          rw [hskipped, beq_self_eq_true, Bool.and_true, hactive]
          rw [hactive] at happlies
          by_cases happly : active = true
          · rw [if_pos happly, hkey]
            exact (List.lookup_cons_self).trans (List.lookup_cons_self).symm
          · rw [if_neg happly]
            exact hrest (happlies.resolve_left happly)
        · rw [if_neg hkey] at hsettled
          rw [lookup_append_of_ne _ hkey, lookup_append_of_ne _ hkey]
          exact hrest hsettled
      · obtain ⟨hlist, hnested, hsite⟩ :=
          no_setting s p active fun key value heq => hset ⟨key, value, heq⟩
        rw [hsite] at hsettled
        rw [hlist, hnested]
        exact hrest hsettled

/-- **A setting that is settled has one value.** -/
theorem listSettings_lookup (h : Settled env name key ts) :
    (listSettings env name (skim ts)).lookup key = (nestedSettings env name ts).lookup key :=
  lookup_settled (together_start : Together (fun _ => true) {} {} true) numbered_start h

/-! ## Included files without blocks -/

/-- All files are UTF-8, and none opens a block while `included` files
are open below the first. -/
def Plain : ℕ → List Token → Prop
  | _, [] => True
  | included, .enter _ utf8 :: ts => utf8 = true ∧ Plain (included + 1) ts
  | 0, .leave :: ts => ts = []
  | included + 1, .leave :: ts => Plain included ts
  | included, .directive (.host _) :: ts => included = 0 ∧ Plain included ts
  | included, .directive .matchBlock :: ts => included = 0 ∧ Plain included ts
  | included, .directive .other :: ts => Plain included ts
  | included, .directive (.setting ..) :: ts => Plain included ts

theorem settledIn_of_inPlace {sites : List Site} (h : ∀ site ∈ sites, site.inPlace = true) :
    settledIn key sites = true := by
  induction sites with
  | nil => rfl
  | cons site rest ih =>
      have hrest := ih fun other hother => h other (List.mem_cons_of_mem _ hother)
      rw [settledIn, hrest, h site List.mem_cons_self, Bool.or_true]
      exact ite_self _

/-- A line is in place where only the first file can be in a block. -/
theorem Place.inPlace_of_blocks {included : ℕ} (hskipped : p.skim.skipped = 0)
    (hblocks : p.block :: p.enclosing = List.replicate included none ++ [p.last, none]) :
    p.inPlace = true := by
  have hforce : p.inForce = p.last.toList := by
    rw [Place.inForce, hblocks, List.reduceOption_append]
    cases p.last with
    | none => simp [List.reduceOption]
    | some n => simp [List.reduceOption]
  rw [Place.inPlace, hskipped, hforce, beq_self_eq_true, beq_self_eq_true]
  rfl

/-- Only the first file is in a block. -/
theorem inPlace_of_plain {included : ℕ} (hplain : Plain included ts)
    (hfiles : (p.skim.seen ++ files ts).Nodup) (hskipped : p.skim.skipped = 0)
    (hblocks : p.block :: p.enclosing = List.replicate included none ++ [p.last, none]) :
    ∀ site ∈ answers (siteStep env name) (s, p) ts, site.inPlace = true := by
  induction ts generalizing included s p with
  | nil => intro site hsite; nomatch hsite
  | cons t ts ih =>
      rw [answers_cons]
      refine List.forall_mem_append.2 ?_
      have hopen (hzero : included = 0) (hrest : Plain included ts)
          (hsame : (p.skim.seen ++ files ts).Nodup) (s' : Scope) :
          ∀ site ∈ answers (siteStep env name) (s', p.openBlock) ts, site.inPlace = true := by
        subst hzero
        refine ih hrest hsame hskipped ?_
        exact congrArg (some p.opened :: ·) (List.cons.inj hblocks).2
      cases t with
      | enter path utf8 =>
          obtain ⟨rfl, hrest⟩ := hplain
          have hnew : path ∉ p.skim.seen := by
            intro hmem
            exact (List.nodup_append.1 hfiles).2.2 path hmem path List.mem_cons_self rfl
          have hskim : p.skim.enter path true = { seen := p.skim.seen ++ [path], skipped := 0 } :=
            if_pos ⟨hskipped, hnew⟩
          refine ⟨by nofun, ?_⟩
          dsimp only [siteStep]
          rw [Place.step, hskim, if_pos rfl]
          refine ih hrest ?_ rfl ?_
          · rw [List.append_assoc]
            exact hfiles
          · exact congrArg (none :: ·) hblocks
      | leave =>
          refine ⟨by nofun, ?_⟩
          cases included with
          | zero =>
              obtain rfl := hplain
              exact fun site hsite => by nomatch hsite
          | succ included =>
              dsimp only [siteStep]
              rw [Place.step, if_pos hskipped]
              have henclosing := (List.cons.inj hblocks).2
              refine ih hplain hfiles ?_ ?_
              · show p.skim.skipped - 1 = 0
                omega
              · show p.enclosing.head?.getD none :: p.enclosing.tail = _
                cases henc : p.enclosing with
                | nil =>
                    rw [henc] at henclosing
                    exact absurd henclosing.symm (by simp)
                | cons outer rest => exact henc.symm.trans henclosing
      | directive d =>
          cases d with
          | other => exact ⟨by nofun, ih hplain hfiles hskipped hblocks⟩
          | host patterns =>
              refine ⟨by nofun, ?_⟩
              dsimp only [siteStep]
              rw [Place.step, if_pos hskipped]
              exact hopen hplain.1 hplain.2 hfiles _
          | matchBlock =>
              refine ⟨by nofun, ?_⟩
              dsimp only [siteStep]
              rw [Place.step, if_pos hskipped]
              exact hopen hplain.1 hplain.2 hfiles _
          | setting key value =>
              refine ⟨fun site hsite => ?_, ih hplain hfiles hskipped hblocks⟩
              obtain rfl := List.mem_singleton.1 hsite
              exact p.inPlace_of_blocks hskipped hblocks

/-- **Included files without blocks.** Where they are UTF-8 and open
none, and each is included once, every setting is settled. -/
theorem settled_of_plain {root : PathBuf} (hplain : Plain 0 ts)
    (hfiles : (root :: files ts).Nodup) :
    Settled env name key (.enter root true :: ts) :=
  settledIn_of_inPlace
    (inPlace_of_plain (p := ({} : Place).step (.enter root true)) hplain hfiles rfl rfl)

/-! ## Lines out of place -/

/-- A `Host` or `Match` line, made one of a block that applies or of one
that does not. -/
def Token.relabel (applies : Bool) : Token → Token
  | .directive (.host _) | .directive .matchBlock =>
    .directive (if applies then .host ["*"] else .matchBlock)
  | t => t

/-- **The trees of one shape**: the block that is opened `n`-th applies if
`holds n`, and so does every block that nothing is read of. -/
def relabel (holds : ℕ → Bool) (p : Place) : List Token → List Token
  | [] => []
  | t :: ts =>
    t.relabel (p.skim.skipped != 0 || holds p.opened) :: relabel holds (p.step t) ts

theorem Place.step_relabel (p : Place) (t : Token) (applies : Bool) :
    p.step (t.relabel applies) = p.step t := by
  unfold Token.relabel
  split
  · cases applies <;> rfl
  · cases applies <;> rfl
  · rfl

/-- A block is as it was labelled. -/
theorem Token.block_relabel (hstar : env.patternMatches "*" name = true) {applies matched : Bool}
    (h : (t.relabel applies).block env name = some matched) : matched = applies := by
  have hall : matchesAlias env ["*"] name = true := by
    simp [matchesAlias, matchesFrom, hstar]
  have hlabel : (Token.directive (if applies then .host ["*"] else .matchBlock)).block env name =
      some applies := by
    cases applies with
    | false => rfl
    | true => exact congrArg some hall
  cases t with
  | enter path utf8 => simp [Token.relabel, Token.block] at h
  | leave => simp [Token.relabel, Token.block] at h
  | directive d =>
      cases d with
      | host patterns => exact Option.some.inj (h.symm.trans hlabel)
      | matchBlock => exact Option.some.inj (h.symm.trans hlabel)
      | other => simp [Token.relabel, Token.block] at h
      | setting key value => simp [Token.relabel, Token.block] at h

/-- The two readings of a tree of the shape. -/
theorem Together.run (hstar : env.patternMatches "*" name = true) (h : Together holds s p active)
    (ts : List Token) :
    Together holds (runState (Scope.step env name) s (relabel holds p ts))
      (ts.foldl Place.step p)
      (runState (listStep env name) active (answers Skim.step p.skim (relabel holds p ts))) := by
  induction ts generalizing s p active with
  | nil => exact h
  | cons t ts ih =>
      have hplace := p.step_relabel t (p.skim.skipped != 0 || holds p.opened)
      have hnext := h.step env name
        (t.relabel (p.skim.skipped != 0 || holds p.opened)) fun matched hmatched hskipped => by
          rw [t.block_relabel hstar hmatched, hskipped]
          rfl
      rw [hplace] at hnext
      have hskim := p.step_skim (t.relabel (p.skim.skipped != 0 || holds p.opened))
      rw [hplace] at hskim
      have hrest := ih hnext
      rw [hskim] at hrest
      rw [relabel, runState_cons, answers_cons, runState_append]
      exact hrest

/-- Where every block applies, so does every line. -/
theorem scope_relabel (hstar : env.patternMatches "*" name = true) (ts : List Token)
    (hs : ∀ level ∈ s.active :: s.enclosing, level = true) :
    ∀ level ∈ (runState (Scope.step env name) s (relabel (fun _ => true) p ts)).active ::
      (runState (Scope.step env name) s (relabel (fun _ => true) p ts)).enclosing,
      level = true := by
  induction ts generalizing s p with
  | nil => exact hs
  | cons t ts ih =>
      rw [relabel, runState_cons]
      refine ih ?_
      rw [Bool.or_true]
      have hall : matchesAlias env ["*"] name = true := by
        simp [matchesAlias, matchesFrom, hstar]
      have houter : s.outer = true := by
        unfold Scope.outer
        cases henclosing : s.enclosing with
        | nil => rfl
        | cons outer rest => exact hs outer (by simp [henclosing])
      have hopened : ∀ level ∈ (s.outer && matchesAlias env ["*"] name) :: s.enclosing,
          level = true := by
        rw [houter, hall]
        exact List.forall_mem_cons.2 ⟨rfl, fun level hmem => hs level (List.mem_cons_of_mem _ hmem)⟩
      cases t with
      | enter path utf8 =>
          exact List.forall_mem_cons.2 ⟨hs _ List.mem_cons_self, hs⟩
      | leave =>
          refine List.forall_mem_cons.2 ⟨houter, fun level hmem => hs level ?_⟩
          exact List.mem_cons_of_mem _ (List.mem_of_mem_tail hmem)
      | directive d =>
          cases d with
          | other => exact hs
          | setting key value => exact hs
          | host patterns => exact hopened
          | matchBlock => exact hopened

/-- Blocks in force that are not just the last: one of them alone can
keep a line from the host, or the last can. -/
theorem Together.misread (hn : p.Numbered) (hforce : p.inForce ≠ p.last.toList) :
    ∃ holds : ℕ → Bool, p.inForce.all holds ≠ p.last.all holds := by
  cases hlast : p.last with
  | none =>
      rw [hlast, hn.none_last hlast] at hforce
      exact absurd rfl hforce
  | some n =>
      rw [hlast] at hforce
      by_cases hmem : n ∈ p.inForce
      · -- Another block is in force, and that one does not apply.
        obtain ⟨m, hm, hne⟩ : ∃ m ∈ p.inForce, m ≠ n := by
          by_contra hall
          push Not at hall
          have hrep := List.eq_replicate_of_mem hall
          have hnodup : p.inForce.Nodup := hn.descends.imp fun hgt => Nat.ne_of_gt hgt
          rw [hrep, List.nodup_replicate] at hnodup
          have hpos := List.length_pos_of_mem hmem
          rw [show p.inForce.length = 1 by omega] at hrep
          exact hforce hrep
        refine ⟨fun k => k != m, ?_⟩
        have hfalse : (p.inForce.all fun k => k != m) = false := by
          rw [List.all_eq_false]
          exact ⟨m, hm, by simp⟩
        rw [hfalse]
        simpa using hne.symm
      · -- The last is not in force, and does not apply.
        refine ⟨fun k => k != n, ?_⟩
        have htrue : (p.inForce.all fun k => k != n) = true := by
          rw [List.all_eq_true]
          intro k hk
          simpa using fun heq : k = n => hmem (heq ▸ hk)
        rw [htrue]
        simp

/-- **A line is in place exactly where no tree of the shape has it
misread**: whatever the blocks apply to, it is read where OpenSSH applies
it, and then alone. -/
theorem inPlace_iff (hstar : env.patternMatches "*" name = true) (ts : List Token) :
    (ts.foldl Place.step {}).inPlace = true ↔
      ∀ holds, (runState (Scope.step env name) {} (relabel holds {} ts)).active =
        (runState (listStep env name) true (skim (relabel holds {} ts)) &&
          (ts.foldl Place.step {}).skim.skipped == 0) := by
  have hrun (holds : ℕ → Bool) := Together.run hstar
    (together_start : Together holds {} {} true) ts
  have hnumbered := numbered_start.run ts
  generalize ts.foldl Place.step {} = p at hrun hnumbered ⊢
  constructor
  · intro hp holds
    obtain ⟨hskipped, hactive⟩ := (hrun holds).of_inPlace hp
    rw [hskipped, beq_self_eq_true, Bool.and_true]
    exact hactive
  · intro hsame
    by_cases hskipped : p.skim.skipped = 0
    · unfold Place.inPlace
      rw [hskipped, beq_self_eq_true, Bool.true_and, beq_iff_eq]
      by_contra hforce
      obtain ⟨holds, hne⟩ := Together.misread hnumbered hforce
      have hscopes := (hrun holds).scopes
      rw [hskipped, List.drop_zero, levels_cons] at hscopes
      have hnested := (List.cons.inj hscopes).1
      have hlist := (hrun holds).active
      have heq := hsame holds
      rw [hskipped, beq_self_eq_true, Bool.and_true] at heq
      exact hne (hnested.symm.trans (heq.trans hlist))
    · have heq := hsame fun _ => true
      have hall := scope_relabel (s := {}) (p := {}) hstar ts
        fun level hlevel => List.mem_singleton.1 hlevel
      rw [hall _ List.mem_cons_self, beq_false_of_ne hskipped, Bool.and_false] at heq
      nomatch heq

end Import

end TunnelWarden
