import TunnelWarden.App.Model.Workspace
import TunnelWarden.Store.Checked

/-!
# Edits of the groups

Groups are shown in the order of their `sort_order`, those of the same
order as they stand in the list. A move exchanges a group with its
neighbour as it is shown, and numbers all of them anew. A group that is
deleted takes the reference to it out of its tunnels. Neither is checked
before it is sent, and neither needs to be.
-/

namespace TunnelWarden

/-- A group, but for its place. -/
def TunnelGroup.named (g : TunnelGroup) : GroupId × String := (g.id, g.name)

namespace App

variable {home : Option PathBuf} {current config : DomainConfig} {id : GroupId}
variable {groups front back : List TunnelGroup} {a b : TunnelGroup} {direction : ℤ}

/-- The groups as they are shown. -/
def displayed (c : DomainConfig) : List TunnelGroup :=
  c.groups.insertionSort fun a b => a.sortOrder ≤ b.sortOrder

/-- The sort is stable: of two groups the one that stands first in the
list is shown first, unless its order is the greater one. -/
theorem displayed_stable (horder : a.sortOrder ≤ b.sortOrder)
    (h : [a, b].Sublist current.groups) : [a, b].Sublist (displayed current) :=
  List.pair_sublist_insertionSort horder h

theorem displayed_perm (c : DomainConfig) : (displayed c).Perm c.groups :=
  List.perm_insertionSort _ _

/-! ## Lists -/

section Lists

variable {α : Type} {l pre post : List α} {x y : α} {i : ℕ}

/-- A list at two neighbours. -/
theorem exists_pair (h : i + 1 < l.length) :
    ∃ pre x y post, l = pre ++ x :: y :: post ∧ pre.length = i := by
  have hsecond : l.drop (i + 1) = l[i + 1] :: l.drop (i + 2) := List.drop_eq_getElem_cons h
  have hfirst : l.drop i = l[i] :: l.drop (i + 1) := List.drop_eq_getElem_cons (by omega)
  refine ⟨l.take i, l[i], l[i + 1], l.drop (i + 2), ?_, ?_⟩
  · rw [← hsecond, ← hfirst, List.take_append_drop]
  · rw [List.length_take]
    omega

theorem getElem?_pair (pre : List α) (x y : α) (post : List α) :
    (pre ++ x :: y :: post)[pre.length]? = some x ∧
      (pre ++ x :: y :: post)[pre.length + 1]? = some y := by
  constructor
  · simp
  · rw [List.getElem?_append_right (by omega)]
    simp

/-- Neighbours are exchanged, whichever is named first. -/
theorem swap_pair :
    swap (pre ++ x :: y :: post) pre.length (pre.length + 1) = pre ++ y :: x :: post ∧
      swap (pre ++ x :: y :: post) (pre.length + 1) pre.length = pre ++ y :: x :: post := by
  obtain ⟨hx, hy⟩ := getElem?_pair pre x y post
  unfold swap
  rw [hx, hy]
  constructor
  · simp
  · simp

end Lists

/-! ## The numbers -/

/-- The groups, numbered in their order. -/
def ordered (groups : List TunnelGroup) : List TunnelGroup :=
  groups.mapIdx fun order group => { group with sortOrder := order }

theorem ordered_named (groups : List TunnelGroup) :
    (ordered groups).map TunnelGroup.named = groups.map TunnelGroup.named := by
  refine List.ext_getElem (by simp [ordered]) fun i hi hi' => ?_
  simp [ordered, TunnelGroup.named]

theorem ordered_sortOrder (groups : List TunnelGroup) :
    (ordered groups).map TunnelGroup.sortOrder = List.range groups.length := by
  refine List.ext_getElem (by simp [ordered]) fun i hi hi' => ?_
  simp [ordered]

/-- Numbered groups are shown as they stand. -/
theorem displayed_ordered (c : DomainConfig) (groups : List TunnelGroup) :
    displayed { c with groups := ordered groups } = ordered groups := by
  have hsorted : (ordered groups).Pairwise fun a b => a.sortOrder ≤ b.sortOrder := by
    rw [← List.pairwise_map (f := TunnelGroup.sortOrder) (R := (· ≤ ·)), ordered_sortOrder]
    exact List.pairwise_le_range
  exact hsorted.insertionSort_eq

/-! ## The move -/

/-- The group that is moved and the one it is exchanged with. -/
structure Neighbours (current : DomainConfig) (id : GroupId) (direction : ℤ)
    (front : List TunnelGroup) (a b : TunnelGroup) (back : List TunnelGroup) : Prop where
  displayed : displayed current = front ++ a :: b :: back
  moved : (direction = 1 ∧ a.id = id) ∨ (direction = -1 ∧ b.id = id)

/-- **A move exchanges two neighbours** and numbers the groups. -/
theorem exists_neighbours (hdir : direction = 1 ∨ direction = -1)
    (h : moveGroup id direction current = .ok config) :
    ∃ front a b back, Neighbours current id direction front a b back ∧
      config = { current with groups := ordered (front ++ b :: a :: back) } := by
  unfold moveGroup at h
  rw [← displayed] at h
  dsimp only at h
  split at h
  · cases h
  · rename_i index hfind
    obtain ⟨hlt, hid, -⟩ := List.findIdx?_eq_some_iff_getElem.1 hfind
    have hid : ∀ g, (displayed current)[index]? = some g → g.id = id := by
      intro g hg
      rw [List.getElem?_eq_getElem hlt] at hg
      obtain rfl := Option.some.inj hg
      simpa using hid
    split at h
    · cases h
    · rename_i hrange
      obtain rfl := Except.ok.inj h
      rcases hdir with rfl | rfl
      · obtain ⟨front, a, b, back, hsplit, rfl⟩ :=
          exists_pair (show index + 1 < (displayed current).length by omega)
        have htarget : ((front.length : ℤ) + 1).toNat = front.length + 1 := by omega
        rw [hsplit] at hid ⊢
        rw [htarget, swap_pair.1]
        exact ⟨front, a, b, back, ⟨hsplit, .inl ⟨rfl, hid a (getElem?_pair front a b back).1⟩⟩, rfl⟩
      · obtain ⟨before, rfl⟩ : ∃ before, index = before + 1 := ⟨index - 1, by omega⟩
        obtain ⟨front, a, b, back, hsplit, rfl⟩ := exists_pair hlt
        have htarget : (((front.length + 1 : ℕ) : ℤ) + -1).toNat = front.length := by omega
        rw [hsplit] at hid ⊢
        rw [htarget, swap_pair.2]
        exact ⟨front, a, b, back, ⟨hsplit, .inr ⟨rfl, hid b (getElem?_pair front a b back).2⟩⟩, rfl⟩

/-- Where the ids are distinct a group is found in its place. -/
theorem findIdx?_of_nodup {g : TunnelGroup} (h : ((front ++ g :: back).map TunnelGroup.id).Nodup) :
    (front ++ g :: back).findIdx? (fun group => group.id = g.id) = some front.length := by
  have hnone : front.findIdx? (fun group => group.id = g.id) = none := by
    rw [List.findIdx?_eq_none_iff]
    intro x hx
    rw [List.map_append, List.map_cons, List.nodup_append] at h
    have hne := h.2.2 x.id (List.mem_map_of_mem hx) g.id List.mem_cons_self
    simpa using hne
  rw [List.findIdx?_append, hnone, List.findIdx?_cons]
  simp

/-- **And two neighbours can be exchanged.** -/
theorem moveGroup_of_neighbours (hids : ((displayed current).map TunnelGroup.id).Nodup)
    (h : Neighbours current id direction front a b back) :
    moveGroup id direction current =
      .ok { current with groups := ordered (front ++ b :: a :: back) } := by
  have hlength : (displayed current).length = front.length + (back.length + 2) := by
    rw [h.displayed]
    simp
  unfold moveGroup
  rw [← displayed]
  rcases h.moved with ⟨rfl, rfl⟩ | ⟨rfl, rfl⟩
  · have hfind : (displayed current).findIdx? (fun group => group.id = a.id) =
        some front.length := by
      rw [h.displayed] at hids ⊢
      exact findIdx?_of_nodup hids
    have htarget : ((front.length : ℤ) + 1).toNat = front.length + 1 := by omega
    dsimp only
    rw [hfind]
    dsimp only
    rw [if_neg (by omega), htarget, h.displayed, swap_pair.1]
    rfl
  · have hfind : (displayed current).findIdx? (fun group => group.id = b.id) =
        some (front.length + 1) := by
      have hsplit : front ++ a :: b :: back = (front ++ [a]) ++ b :: back := by simp
      rw [h.displayed, hsplit] at hids ⊢
      rw [findIdx?_of_nodup hids]
      simp
    have htarget : (((front.length + 1 : ℕ) : ℤ) + -1).toNat = front.length := by omega
    dsimp only
    rw [hfind]
    dsimp only
    rw [if_neg (by omega), htarget, h.displayed, swap_pair.2]
    rfl

/-- The ids are those there were, in another order. -/
theorem perm_ids {l : List TunnelGroup}
    (h : (l.map TunnelGroup.named).Perm (current.groups.map TunnelGroup.named)) :
    (l.map TunnelGroup.id).Perm (current.groups.map TunnelGroup.id) := by
  have hfst := h.map Prod.fst
  rwa [List.map_map, List.map_map] at hfst

/-- After a move the groups are those there were. -/
theorem perm_ordered (hsplit : displayed current = front ++ a :: b :: back) :
    ((ordered (front ++ b :: a :: back)).map TunnelGroup.named).Perm
      (current.groups.map TunnelGroup.named) := by
  have hswap : (front ++ b :: a :: back).Perm (front ++ a :: b :: back) :=
    (List.Perm.swap a b back).append_left front
  rw [ordered_named]
  refine List.Perm.map _ (hswap.trans ?_)
  rw [← hsplit]
  exact displayed_perm current

/-- **The opposite move** finds the same neighbours. -/
theorem Neighbours.opposite (h : Neighbours current id direction front a b back) :
    ∃ front' b' a' back',
      Neighbours { current with groups := ordered (front ++ b :: a :: back) } id (-direction)
        front' b' a' back' ∧
      (front' ++ a' :: b' :: back').map TunnelGroup.named =
        (front ++ a :: b :: back).map TunnelGroup.named := by
  have hnames := ordered_named (front ++ b :: a :: back)
  have hpair : front.length + 1 < (ordered (front ++ b :: a :: back)).length := by
    rw [ordered, List.length_mapIdx, List.length_append, List.length_cons, List.length_cons]
    omega
  obtain ⟨front', b', a', back', hsplit, hlength⟩ := exists_pair hpair
  rw [hsplit, List.map_append, List.map_append] at hnames
  obtain ⟨hfront, hrest⟩ := List.append_inj hnames (by rw [List.length_map, List.length_map, hlength])
  obtain ⟨hb, hrest⟩ := List.cons.inj hrest
  obtain ⟨ha, hback⟩ := List.cons.inj hrest
  have haid : a'.id = a.id := congrArg Prod.fst ha
  have hbid : b'.id = b.id := congrArg Prod.fst hb
  refine ⟨front', b', a', back', ⟨?_, ?_⟩, ?_⟩
  · rw [displayed_ordered]
    exact hsplit
  · rcases h.moved with ⟨rfl, hid⟩ | ⟨rfl, hid⟩
    · exact .inr ⟨rfl, haid.trans hid⟩
    · exact .inl ⟨rfl, hbid.trans hid⟩
  · rw [List.map_append, List.map_append, List.map_cons, List.map_cons, List.map_cons, List.map_cons,
      hfront, ha, hb, hback]

/-! ## What the edits submit -/

theorem length_filter_id (groups : List TunnelGroup) (id : GroupId) :
    (groups.filter fun group => group.id = id).length =
      (groups.map TunnelGroup.id).count id := by
  rw [List.count_eq_countP, List.countP_map, List.countP_eq_length_filter]
  rfl

/-- A reference to a group depends on the ids only. -/
theorem checkGroup_congr {groups groups' : List TunnelGroup} {g : Option GroupId}
    (h : (groups'.map TunnelGroup.id).Perm (groups.map TunnelGroup.id))
    (hok : TunnelConfig.checkGroup groups g = .ok ()) :
    TunnelConfig.checkGroup groups' g = .ok () := by
  cases g with
  | none => rfl
  | some id =>
      have hcount : (groups'.filter fun group => group.id = id).length =
          (groups.filter fun group => group.id = id).length := by
        rw [length_filter_id, length_filter_id, h.count_eq]
      unfold TunnelConfig.checkGroup at hok ⊢
      dsimp only at hok ⊢
      rw [hcount]
      exact hok

/-- Or on the group it names. -/
theorem checkGroup_filter {g : Option GroupId} (hok : TunnelConfig.checkGroup groups g = .ok ()) :
    TunnelConfig.checkGroup (groups.filter fun group => group.id ≠ id)
      (if g = some id then none else g) = .ok () := by
  split
  · rfl
  · rename_i hne
    cases g with
    | none => rfl
    | some g =>
        have hother : g ≠ id := fun h => hne (congrArg some h)
        have hsame : (groups.filter fun group => group.id ≠ id).filter (fun group => group.id = g) =
            groups.filter fun group => group.id = g := by
          rw [List.filter_filter]
          refine List.filter_congr fun group _ => ?_
          by_cases hg : group.id = g
          · simp [hg, hother]
          · simp [hg]
        unfold TunnelConfig.checkGroup at hok ⊢
        dsimp only at hok ⊢
        rw [hsame]
        exact hok

/-- The configuration is accepted again, and is again one that a document
is loaded as, if it was. -/
structure StaysAccepted (home : Option PathBuf) (current config : DomainConfig) : Prop where
  accepted : config.Accepted home
  loaded : (∃ doc : ConfigDocument, doc.intoDomain home = .ok current) →
    ∃ doc : ConfigDocument, doc.intoDomain home = .ok config

/-- Other groups, with every tunnel in one of them or in none. -/
theorem staysAccepted_regrouped {f : Option GroupId → Option GroupId} (h : current.Accepted home)
    (hcount : groups.length ≤ maxGroups) (hids : (groups.map TunnelGroup.id).Nodup)
    (hin : ∀ t ∈ current.tunnels, TunnelConfig.checkGroup groups (f t.groupId) = .ok ()) :
    StaysAccepted home current (current.regrouped groups f) where
  accepted := h.regrouped hcount hids hin
  loaded := by
    rintro ⟨doc, hload⟩
    have hacc := ConfigDocument.intoDomain_eq_ok.1 hload
    exact ⟨doc.regrouped groups f,
      ConfigDocument.intoDomain_eq_ok.2 (hacc.regrouped hcount hids hin)⟩

/-- **What a deletion submits.** -/
structure Deletes (home : Option PathBuf) (id : GroupId) (current config : DomainConfig) :
    Prop where
  stays : StaysAccepted home current config
  app : config.app = current.app
  hosts : config.hosts = current.hosts
  groups : config.groups = current.groups.filter fun group => group.id ≠ id
  tunnels : List.Forall₂
    (fun t t' => t' = if t.groupId = some id then { t with groupId := none } else t)
    current.tunnels config.tunnels

theorem deletes_deleteGroup (h : current.Accepted home) (id : GroupId) :
    Deletes home id current (deleteGroup id current) := by
  have hgrouped := h.grouped
  have hregrouped : deleteGroup id current =
      current.regrouped (current.groups.filter fun group => group.id ≠ id)
        fun g => if g = some id then none else g := by
    unfold deleteGroup DomainConfig.regrouped
    congr 1
    refine List.map_congr_left fun t _ => ?_
    by_cases hg : t.groupId = some id
    · simp [hg]
    · simp [hg]
  refine ⟨?_, rfl, rfl, rfl, ?_⟩
  · rw [hregrouped]
    refine staysAccepted_regrouped h ((List.length_filter_le _ _).trans hgrouped.count) ?_
      fun t ht => checkGroup_filter (hgrouped.known t ht)
    exact hgrouped.ids.sublist (List.filter_sublist.map _)
  · rw [deleteGroup, List.forall₂_map_right_iff]
    exact List.forall₂_same.2 fun t _ => rfl

/-- **What a move submits.** -/
structure Moves (home : Option PathBuf) (id : GroupId) (direction : ℤ)
    (current config : DomainConfig) : Prop where
  stays : StaysAccepted home current config
  app : config.app = current.app
  hosts : config.hosts = current.hosts
  tunnels : config.tunnels = current.tunnels
  permuted : (config.groups.map TunnelGroup.named).Perm (current.groups.map TunnelGroup.named)
  numbered : config.groups.map TunnelGroup.sortOrder = List.range current.groups.length
  exchanged : ∃ front a b back, Neighbours current id direction front a b back ∧
    (displayed config).map TunnelGroup.named = (front ++ b :: a :: back).map TunnelGroup.named
  restored : ∃ config', moveGroup id (-direction) config = .ok config' ∧
    (displayed config').map TunnelGroup.named = (displayed current).map TunnelGroup.named

theorem moves_moveGroup (h : current.Accepted home) (hdir : direction = 1 ∨ direction = -1)
    (hmove : moveGroup id direction current = .ok config) :
    Moves home id direction current config := by
  obtain ⟨front, a, b, back, hneighbours, rfl⟩ := exists_neighbours hdir hmove
  have hgrouped := h.grouped
  have hperm := perm_ordered hneighbours.displayed
  have hids := perm_ids hperm
  have hlength : (front ++ b :: a :: back).length = current.groups.length := by
    have hsame := hperm.length_eq
    rwa [List.length_map, List.length_map, ordered, List.length_mapIdx] at hsame
  refine ⟨?_, rfl, rfl, rfl, hperm, ?_, ?_, ?_⟩
  · have hregrouped : { current with groups := ordered (front ++ b :: a :: back) } =
        current.regrouped (ordered (front ++ b :: a :: back)) fun g => g := by
      rw [DomainConfig.regrouped, List.map_id']
    rw [hregrouped]
    refine staysAccepted_regrouped h ?_ (hids.nodup_iff.2 hgrouped.ids)
      fun t ht => checkGroup_congr hids (hgrouped.known t ht)
    rw [ordered, List.length_mapIdx, hlength]
    exact hgrouped.count
  · rw [ordered_sortOrder, hlength]
  · refine ⟨front, a, b, back, hneighbours, ?_⟩
    rw [displayed_ordered, ordered_named]
  · obtain ⟨front', a', b', back', hopposite, hnamed⟩ := hneighbours.opposite
    have hdistinct : ((displayed { current with
        groups := ordered (front ++ b :: a :: back) }).map TunnelGroup.id).Nodup := by
      rw [displayed_ordered]
      exact hids.nodup_iff.2 hgrouped.ids
    refine ⟨_, moveGroup_of_neighbours hdistinct hopposite, ?_⟩
    rw [displayed_ordered, ordered_named, hnamed, hneighbours.displayed]

/-- A move is sent exactly where there is a neighbour. -/
theorem moveGroup_sent_iff (haccepted : current.Accepted home)
    (hdir : direction = 1 ∨ direction = -1) :
    (∃ config, moveGroup id direction current = .ok config) ↔
      ∃ front a b back, Neighbours current id direction front a b back := by
  constructor
  · rintro ⟨config, hmove⟩
    obtain ⟨front, a, b, back, hneighbours, -⟩ := exists_neighbours hdir hmove
    exact ⟨front, a, b, back, hneighbours⟩
  · rintro ⟨front, a, b, back, hneighbours⟩
    have hids : ((displayed current).map TunnelGroup.id).Nodup :=
      (((displayed_perm current).map TunnelGroup.id).nodup_iff).2 haccepted.grouped.ids
    exact ⟨_, moveGroup_of_neighbours hids hneighbours⟩

/-- **Edits of the groups keep the configuration valid**, and change what
they are for. A group is always deleted, and moved where it has a
neighbour on that side. -/
theorem group_edits_accepted (haccepted : current.Accepted home) (id : GroupId) :
    (∃ config, applyEdit home current (.deleteGroup id) = .ok config) ∧
    (∀ config, applyEdit home current (.deleteGroup id) = .ok config →
      Deletes home id current config) ∧
    ∀ direction : ℤ, direction = 1 ∨ direction = -1 →
      ((∃ config, applyEdit home current (.moveGroup id direction) = .ok config) ↔
        ∃ front a b back, Neighbours current id direction front a b back) ∧
      ∀ config, applyEdit home current (.moveGroup id direction) = .ok config →
        Moves home id direction current config := by
  refine ⟨⟨_, rfl⟩, fun config h => ?_, fun direction hdir => ?_⟩
  · obtain rfl := Except.ok.inj h
    exact deletes_deleteGroup haccepted id
  · exact ⟨moveGroup_sent_iff haccepted hdir, fun config h => moves_moveGroup haccepted hdir h⟩

/-! ## Two groups of the same order -/

/-- Two groups have the same order, and a tunnel is in one of them. -/
def tiedConfig : DomainConfig where
  hosts := [{
    id := ⟨"lab"⟩
    name := "Lab"
    hostname := "example.test"
    port := 22
    username := "operator"
    auth := .agent none
    hostKeyPolicy := .strict
    connectTimeout := .fromSecs 10
    keepaliveInterval := .fromSecs 30
    keepaliveMax := 3
    notes := "" }]
  groups := [⟨⟨"office"⟩, "Office", 4⟩, ⟨⟨"home"⟩, "Home", 4⟩, ⟨⟨"lab"⟩, "Lab", 0⟩]
  tunnels := [{
    id := ⟨"socks"⟩
    name := "SOCKS"
    groupId := some ⟨"office"⟩
    mode := .dynamic
    jumpChain := [⟨"lab"⟩]
    localEnd := ⟨"127.0.0.1", 1080⟩
    remote := none
    autoStart := false
    reconnect := {}
    description := "" }]

theorem tiedConfig_accepted : tiedConfig.Accepted none := by
  have hcheck : (ConfigDocument.tryFrom tiedConfig).bind (ConfigDocument.intoDomain none) =
      .ok tiedConfig := by decide +kernel
  obtain ⟨doc, hdoc, hload⟩ := bind_eq_ok.1 hcheck
  exact ⟨doc, tiedConfig, hdoc, hload⟩

theorem group_edits_accepted_tied :
    Deletes none ⟨"office"⟩ tiedConfig (deleteGroup ⟨"office"⟩ tiedConfig) ∧
    ∃ config, applyEdit none tiedConfig (.moveGroup ⟨"office"⟩ 1) = .ok config ∧
      displayed config = [⟨⟨"lab"⟩, "Lab", 0⟩, ⟨⟨"home"⟩, "Home", 1⟩, ⟨⟨"office"⟩, "Office", 2⟩] ∧
      Moves none ⟨"office"⟩ 1 tiedConfig config := by
  have hedits := group_edits_accepted tiedConfig_accepted ⟨"office"⟩
  have hmove : applyEdit none tiedConfig (.moveGroup ⟨"office"⟩ 1) = .ok { tiedConfig with
      groups := [⟨⟨"lab"⟩, "Lab", 0⟩, ⟨⟨"home"⟩, "Home", 1⟩, ⟨⟨"office"⟩, "Office", 2⟩] } := by
    decide +kernel
  exact ⟨hedits.2.1 _ rfl, _, hmove, by decide +kernel, (hedits.2.2 1 (.inl rfl)).2 _ hmove⟩

end App

end TunnelWarden
