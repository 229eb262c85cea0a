import Mathlib
import Taskboard.Proofs.Graph.Chains

/-!
# Taskboard — the groups on cycles

The groups of items that wait for one another are found by searches, one from each place. Nothing
in them follows a cycle: two places belong together if each search finds the other. That makes the
groups the strongly connected components with more than one member. No id leads to itself by a
single link, so these are the components with a cycle in them, and the ids in a group are those on
some ring of different ids each of which blocks the next.

* `IsRing` — different ids, each of which blocks the next one, and the last the first;
* `onCycle_iff_exists_ring` — links lead from an id back to itself exactly if it is on a ring;
* `IsComponent` — the strongly connected components of some links;
* `DependencyGraph.mem_cycles_iff_onCycle` — the groups are those of the ids on cycles;
* `ListsComponents` — lists of ids that are the components with more than one member;
* `DependencyGraph.cycles_are_components` — the groups of a board are such lists.
-/

namespace Taskboard

/-! ## Rings -/

/-- Different ids, each of which blocks the next one, and the last one the first. -/
structure IsRing (links : Set Link) (ring : Cycle String) : Prop where
  distinct : ring.Nodup
  linked   : ring.Chain fun a b => ⟨a, b⟩ ∈ links

variable {links : Set Link} {a b c id : String}

theorem exists_mem_of_ne_nil {ring : Cycle String} (hNe : ring ≠ Cycle.nil) : ∃ id, id ∈ ring := by
  induction ring using Quotient.inductionOn' with
  | h ids =>
    rw [Cycle.mk''_eq_coe, Ne, Cycle.coe_eq_nil] at hNe
    obtain ⟨id, hId⟩ := List.exists_mem_of_ne_nil ids hNe
    exact ⟨id, Cycle.mem_coe_iff.mpr hId⟩

/-- A way can be cut short until it passes no id twice. -/
theorem exists_simple_chain (h : Leads links a b) :
    ∃ chain, ChainTo links b chain ∧ chain.head? = some a ∧ chain.Nodup := by
  induction h using Relation.ReflTransGen.head_induction_on with
  | refl => exact ⟨[b], ⟨rfl, List.isChain_singleton _⟩, rfl, List.nodup_singleton _⟩
  | @head x c hLink _ ih =>
    obtain ⟨chain, ⟨hEnds, hLinked⟩, hHead, hNodup⟩ := ih
    by_cases ha : x ∈ chain
    · -- the way comes back to where it starts, so it may start there
      obtain ⟨front, back, rfl⟩ := List.append_of_mem ha
      refine ⟨x :: back, ⟨?_, (List.isChain_append.mp hLinked).2.1⟩, rfl,
        hNodup.sublist (List.sublist_append_right front _)⟩
      rwa [List.getLast?_append_of_ne_nil _ (List.cons_ne_nil x back)] at hEnds
    · refine ⟨x :: chain, ⟨?_, List.isChain_cons.mpr ⟨?_, hLinked⟩⟩, rfl,
        List.nodup_cons.mpr ⟨ha, hNodup⟩⟩
      · rw [List.getLast?_cons, hEnds]
        rfl
      · intro y hy
        obtain rfl : c = y := Option.some.inj (hHead.symm.trans hy)
        exact hLink

/-- Along a list of ids with a link between neighbours some links lead to what follows the first. -/
theorem transGen_of_isChain {r : String → String → Prop} {chain : List String}
    (h : (a :: chain).IsChain r) (hb : b ∈ chain) : Relation.TransGen r a b := by
  have hPairwise : (a :: chain).Pairwise (Relation.TransGen r) :=
    (h.imp fun _ _ hStep => Relation.TransGen.single hStep).pairwise
  exact List.rel_of_pairwise_cons hPairwise hb

/-- **Links lead from an id back to itself exactly if it is on a ring.** -/
theorem onCycle_iff_exists_ring : OnCycle links id ↔ ∃ ring, IsRing links ring ∧ id ∈ ring := by
  constructor
  · intro hCycle
    -- the way back from the next id, cut short, is closed by the first link
    obtain ⟨next, hLink, hBack⟩ := Relation.TransGen.head'_iff.mp hCycle
    obtain ⟨chain, ⟨hEnds, hLinked⟩, hHead, hNodup⟩ := exists_simple_chain hBack
    obtain ⟨rest, rfl⟩ := List.head?_eq_some_iff.mp hHead
    refine ⟨(next :: rest : List String), ⟨Cycle.nodup_coe_iff.mpr hNodup, ?_⟩,
      Cycle.mem_coe_iff.mpr (List.mem_of_getLast? hEnds)⟩
    rw [Cycle.chain_coe_cons, ← List.cons_append]
    refine List.isChain_append.mpr ⟨hLinked, List.isChain_singleton _, ?_⟩
    intro x hx y hy
    obtain rfl : id = x := Option.some.inj (hEnds.symm.trans hx)
    obtain rfl : next = y := Option.some.inj hy
    exact hLink
  · rintro ⟨ring, ⟨-, hLinked⟩, hMem⟩
    induction ring using Quotient.inductionOn' with
    | h ids =>
      obtain ⟨front, back, rfl⟩ := List.append_of_mem (Cycle.mem_coe_iff.mp hMem)
      -- the ring is turned until the id is the first one
      have hTurned : ((front ++ id :: back : List String) : Cycle String) =
          ((id :: (back ++ front) : List String) : Cycle String) :=
        Cycle.coe_eq_coe.mpr List.isRotated_append
      rw [Cycle.mk''_eq_coe, hTurned, Cycle.chain_coe_cons] at hLinked
      exact transGen_of_isChain hLinked (by simp)

/-! ## Components -/

/-- The ids that an id leads to and that lead back to it. -/
def classOf (links : Set Link) (id : String) : Set String :=
  {other | Leads links id other ∧ Leads links other id}

/-- The strongly connected components of some links. -/
def IsComponent (links : Set Link) (s : Set String) : Prop :=
  ∃ id, classOf links id = s

theorem OnCycle.of_leads (h : OnCycle links a) (hab : Leads links a b) (hba : Leads links b a) :
    OnCycle links b :=
  (Relation.TransGen.trans_right hba h).trans_left hab

/-- Different ids that lead to one another are on a cycle. -/
theorem onCycle_of_ne (hNe : a ≠ b) (hab : Leads links a b) (hba : Leads links b a) :
    OnCycle links a := by
  -- the way there has a link at least
  rcases Relation.reflTransGen_iff_eq_or_transGen.mp hab with hEq | hSome
  · exact absurd hEq.symm hNe
  · exact hSome.trans_left hba

/-- **The components with more than one member are those of the ids on cycles**, if no link leads
from an id to itself. -/
theorem nontrivial_classOf (hProper : ∀ l ∈ links, l.blocker ≠ l.blocked) :
    (classOf links id).Nontrivial ↔ OnCycle links id := by
  constructor
  · intro hMany
    obtain ⟨other, ⟨hThere, hBack⟩, hNe⟩ := hMany.exists_ne id
    exact onCycle_of_ne hNe.symm hThere hBack
  · intro hCycle
    obtain ⟨next, hLink, hBack⟩ := Relation.TransGen.head'_iff.mp hCycle
    exact ⟨id, ⟨Relation.ReflTransGen.refl, Relation.ReflTransGen.refl⟩, next,
      ⟨Relation.ReflTransGen.single hLink, hBack⟩, hProper _ hLink⟩

/-! ## Groups -/

namespace DependencyGraph

variable {g : DependencyGraph} {v : Fin g.size}

theorem proper_linkSet : ∀ l ∈ g.linkSet, l.blocker ≠ l.blocked :=
  g.proper

/-- An id on a cycle has a place. -/
theorem exists_id_eq_of_onCycle (h : OnCycle g.linkSet id) : ∃ v, g.id v = id := by
  obtain ⟨next, hLink, -⟩ := Relation.TransGen.head'_iff.mp h
  exact ⟨g.node id (g.known _ hLink).1, id_node _ _⟩

theorem leads_id_iff {u v : Fin g.size} :
    Leads g.linkSet (g.id u) (g.id v) ↔ g.digraph.Reaches u v := by
  rw [leads_iff]
  constructor
  · rintro ⟨w, hId, hPath⟩
    rwa [← id_injective g hId]
  · intro hPath
    exact ⟨v, rfl, hPath⟩

/-- The group of a place is the component of its id. -/
theorem mem_groupOf_iff_leads : id ∈ g.groupOf v ↔ id ∈ classOf g.linkSet (g.id v) := by
  rw [mem_groupOf]
  constructor
  · rintro ⟨w, hw, rfl⟩
    obtain ⟨hvw, hwv⟩ := Digraph.mem_componentOf.mp hw
    exact ⟨leads_id_iff.mpr hvw, leads_id_iff.mpr hwv⟩
  · rintro ⟨hThere, hBack⟩
    obtain ⟨w, rfl, hvw⟩ := leads_iff.mp hThere
    exact ⟨w, Digraph.mem_componentOf.mpr ⟨hvw, leads_id_iff.mp hBack⟩, rfl⟩

/-- A component has another place in it exactly if its ids are on a cycle. -/
theorem one_lt_length_componentOf_iff :
    1 < (g.digraph.componentOf v).length ↔ OnCycle g.linkSet (g.id v) := by
  rw [Digraph.one_lt_length_componentOf]
  constructor
  · rintro ⟨w, hNe, hvw, hwv⟩
    exact onCycle_of_ne (fun hId => hNe (id_injective g hId).symm) (leads_id_iff.mpr hvw)
      (leads_id_iff.mpr hwv)
  · intro hCycle
    obtain ⟨next, ⟨hThere, hBack⟩, hNe⟩ :=
      ((nontrivial_classOf proper_linkSet).mpr hCycle).exists_ne (g.id v)
    obtain ⟨w, rfl, hvw⟩ := leads_iff.mp hThere
    exact ⟨w, fun h => hNe (congrArg g.id h), hvw, leads_id_iff.mp hBack⟩

/-- **The groups are those of the ids on cycles.** -/
theorem mem_cycles_iff_onCycle {group : List String} :
    group ∈ g.cycles ↔ ∃ v, OnCycle g.linkSet (g.id v) ∧ g.groupOf v = group := by
  simp only [mem_cycles, one_lt_length_componentOf_iff]

/-- Two ids are in one group if the one is on a cycle and they lead to one another. -/
theorem exists_group_iff : (∃ group ∈ g.cycles, a ∈ group ∧ b ∈ group) ↔
    OnCycle g.linkSet a ∧ Leads g.linkSet a b ∧ Leads g.linkSet b a := by
  constructor
  · rintro ⟨group, hGroup, ha, hb⟩
    obtain ⟨v, hCycle, rfl⟩ := mem_cycles_iff_onCycle.mp hGroup
    obtain ⟨hva, hav⟩ := mem_groupOf_iff_leads.mp ha
    obtain ⟨hvb, hbv⟩ := mem_groupOf_iff_leads.mp hb
    exact ⟨hCycle.of_leads hva hav, hav.trans hvb, hbv.trans hva⟩
  · rintro ⟨hCycle, hab, hba⟩
    obtain ⟨v, rfl⟩ := exists_id_eq_of_onCycle hCycle
    exact ⟨g.groupOf v, mem_cycles_iff_onCycle.mpr ⟨v, hCycle, rfl⟩,
      mem_groupOf_iff_leads.mpr ⟨Relation.ReflTransGen.refl, Relation.ReflTransGen.refl⟩,
      mem_groupOf_iff_leads.mpr ⟨hab, hba⟩⟩

/-- Places whose ids lead to one another have one group. -/
theorem groupOf_eq_of_mem {u : Fin g.size} (hu : id ∈ g.groupOf u) (hv : id ∈ g.groupOf v) :
    g.groupOf u = g.groupOf v := by
  obtain ⟨hThere, hBack⟩ := mem_groupOf_iff_leads.mp hu
  obtain ⟨hThere', hBack'⟩ := mem_groupOf_iff_leads.mp hv
  refine sortIds_eq_iff.mpr (List.Perm.map _ ?_)
  rw [List.perm_ext_iff_of_nodup (Digraph.nodup_componentOf u) (Digraph.nodup_componentOf v)]
  intro w
  have huv := leads_id_iff.mp (hThere.trans hBack')
  have hvu := leads_id_iff.mp (hThere'.trans hBack)
  rw [Digraph.mem_componentOf, Digraph.mem_componentOf]
  exact ⟨fun h => ⟨hvu.trans h.1, h.2.trans huv⟩, fun h => ⟨huv.trans h.1, h.2.trans hvu⟩⟩

/-- A group is in strictly ascending order. -/
theorem sorted_groupOf (v : Fin g.size) : (g.groupOf v).Pairwise (· < ·) := by
  have hNodup : (g.groupOf v).Nodup :=
    (List.mergeSort_perm _ _).nodup_iff.mpr ((Digraph.nodup_componentOf v).map (id_injective g))
  exact ((pairwise_sortIds _).and hNodup).imp fun h => lt_of_le_of_ne h.1 h.2

/-- Lists of ids that are the strongly connected components with more than one member, all of them,
each once, in ascending order. So they hold the ids on rings. -/
structure ListsComponents (links : Set Link) (groups : List (List String)) : Prop where
  components : ∀ s : Set String,
    (∃ group ∈ groups, {id | id ∈ group} = s) ↔ IsComponent links s ∧ s.Nontrivial
  onRings    : ∀ id, (∃ group ∈ groups, id ∈ group) ↔ ∃ ring, IsRing links ring ∧ id ∈ ring
  once       : ∀ id, (∃ group ∈ groups, id ∈ group) → ∃! group, group ∈ groups ∧ id ∈ group
  together   : ∀ a b, a ≠ b →
    ((∃ group ∈ groups, a ∈ group ∧ b ∈ group) ↔ Leads links a b ∧ Leads links b a)
  eachSorted : ∀ group ∈ groups, group.Pairwise (· < ·) ∧ 2 ≤ group.length
  sorted     : groups.Pairwise (· < ·)

theorem listsComponents (g : DependencyGraph) : ListsComponents g.linkSet g.cycles where
  components s := by
    constructor
    · rintro ⟨group, hGroup, rfl⟩
      obtain ⟨v, hCycle, rfl⟩ := mem_cycles_iff_onCycle.mp hGroup
      have hClass : {id | id ∈ g.groupOf v} = classOf g.linkSet (g.id v) :=
        Set.ext fun _ => mem_groupOf_iff_leads
      rw [hClass]
      exact ⟨⟨_, rfl⟩, (nontrivial_classOf proper_linkSet).mpr hCycle⟩
    · rintro ⟨⟨id, rfl⟩, hMany⟩
      have hCycle := (nontrivial_classOf proper_linkSet).mp hMany
      obtain ⟨v, rfl⟩ := exists_id_eq_of_onCycle hCycle
      exact ⟨g.groupOf v, mem_cycles_iff_onCycle.mpr ⟨v, hCycle, rfl⟩,
        Set.ext fun _ => mem_groupOf_iff_leads⟩
  onRings id := by
    rw [← onCycle_iff_exists_ring]
    constructor
    · rintro ⟨group, hGroup, hId⟩
      exact (exists_group_iff.mp ⟨group, hGroup, hId, hId⟩).1
    · intro hCycle
      obtain ⟨group, hGroup, hId, -⟩ := exists_group_iff.mpr
        ⟨hCycle, Relation.ReflTransGen.refl, Relation.ReflTransGen.refl⟩
      exact ⟨group, hGroup, hId⟩
  once id := by
    rintro ⟨group, hGroup, hId⟩
    refine ⟨group, ⟨hGroup, hId⟩, ?_⟩
    rintro other ⟨hOther, hId'⟩
    obtain ⟨u, -, rfl⟩ := mem_cycles_iff_onCycle.mp hGroup
    obtain ⟨v, -, rfl⟩ := mem_cycles_iff_onCycle.mp hOther
    exact groupOf_eq_of_mem hId' hId
  together a b hNe := by
    rw [exists_group_iff]
    exact ⟨fun h => h.2, fun h => ⟨onCycle_of_ne hNe h.1 h.2, h⟩⟩
  eachSorted group hGroup := by
    obtain ⟨v, hLen, rfl⟩ := mem_cycles.mp hGroup
    exact ⟨sorted_groupOf v, length_groupOf v ▸ hLen⟩
  sorted := (sorted_cycles.and nodup_cycles).imp fun h => lt_of_le_of_ne h.1 h.2

/--
**The groups of a board are its strongly connected components with more than one member.** An id is
in a group if it is on a ring of different ids each of which blocks the next, and it is in one group
only. Two ids are in one group if each leads to the other. Each group has two ids at least, and both
the ids of a group and the groups ascend. So there is no group exactly if there is no ring, and the
groups do not depend on the order of the board.
-/
theorem cycles_are_components (board : Board) :
    let graph := ofBoard board
    ListsComponents graph.linkSet graph.cycles ∧
    (graph.cycles = [] ↔ ∀ ring, IsRing graph.linkSet ring → ring = Cycle.nil) ∧
    ∀ other : Board, other.Perm board → (ofBoard other).cycles = graph.cycles := by
  intro graph
  have hLists := graph.listsComponents
  refine ⟨hLists, ⟨?_, ?_⟩, ?_⟩
  · intro hNil ring hRing
    by_contra hNe
    -- a ring with an id in it would make a group
    obtain ⟨id, hId⟩ := exists_mem_of_ne_nil hNe
    obtain ⟨group, hGroup, -⟩ := (hLists.onRings id).mpr ⟨ring, hRing, hId⟩
    rw [hNil] at hGroup
    cases hGroup
  · intro hNone
    rw [List.eq_nil_iff_forall_not_mem]
    intro group hGroup
    obtain ⟨id, hId⟩ := List.exists_mem_of_length_pos
      (Nat.zero_lt_of_lt (hLists.eachSorted group hGroup).2)
    obtain ⟨ring, hRing, hMem⟩ := (hLists.onRings id).mp ⟨group, hGroup, hId⟩
    rw [hNone ring hRing] at hMem
    exact Cycle.notMem_nil id hMem
  · intro other hPerm
    exact cycles_eq (mem_ids_perm hPerm) (links_perm hPerm)

end DependencyGraph

end Taskboard
