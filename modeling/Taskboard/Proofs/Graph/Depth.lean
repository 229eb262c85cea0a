import Mathlib
import Taskboard.Graph.Depth
import Taskboard.Proofs.Graph.Reach

/-!
# Taskboard — what depths are

The depths of a graph are found by one depth-first search against the edges. A node is done when
everything in front of it has been looked at, and what has been looked at was done itself, unless
it was still active. Active nodes lie on the way back from the search to its start, so such an
edge closes a cycle.

So a depth is one more than that of some node in front, or zero if there is none to count, and it
exceeds the depth of every node in front except those that can be reached from the node itself.
Without cycles that is the longest chain, in whatever order the search went.

* `Digraph.Weighs` — a depth is the greatest one that some nodes in front of a node give;
* `Digraph.visited_visit` — what a search from one node does, by induction on its fuel;
* `Digraph.weighs_depths`, `Digraph.depth_lt` — the depths of a graph, and how great they can be;
* `Digraph.layered_depths`, `Digraph.Layered.unique` — without cycles they grow along every edge,
  and nothing else does so.
-/

namespace Taskboard

namespace Digraph

variable {n : Nat} {g : Digraph n}

/-! ## Marks -/

/-- A number is the greatest depth that some nodes in front of `v` give to it: each that is done
gives one more than its own, and each other one can be reached from `v`. -/
structure Weighs (g : Digraph n) (marks : Vector Mark n) (v : Fin n) (seen : List (Fin n))
    (d : Nat) : Prop where
  attained : d = 0 ∨ ∃ u ∈ seen, ∃ e, marks.get u = .done e ∧ d = e + 1
  bounded  : ∀ u ∈ seen, (∃ e, marks.get u = .done e ∧ e + 1 ≤ d) ∨ g.Reaches v u

/-- Every node that is done has the depth that the nodes in front of it give. -/
def Settled (g : Digraph n) (marks : Vector Mark n) : Prop :=
  ∀ v d, marks.get v = .done d → g.Weighs marks v (g.prev v) d

/-- How marks change in a search: what is done stays so, and the same nodes are active. -/
structure Extends (before after : Vector Mark n) : Prop where
  done   : ∀ v d, before.get v = .done d → after.get v = .done d
  active : ∀ v, after.get v = .active ↔ before.get v = .active

/-- The nodes that have not been met. -/
def fresh (marks : Vector Mark n) : Finset (Fin n) :=
  Finset.univ.filter fun v => marks.get v = .fresh

/-- To mark a node that is not done leaves alone what is. -/
theorem done_set {marks : Vector Mark n} {v : Fin n} (hv : ∀ d, marks.get v ≠ .done d) (m : Mark) :
    ∀ u e, marks.get u = .done e → (marks.set v m v.isLt).get u = .done e := by
  intro u e hMark
  have hNe : v ≠ u := by
    rintro rfl
    exact hv e hMark
  rw [get_set, if_neg hNe, hMark]

theorem Extends.refl (marks : Vector Mark n) : Extends marks marks :=
  ⟨fun _ _ h => h, fun _ => Iff.rfl⟩

theorem Extends.trans {a b c : Vector Mark n} (hab : Extends a b) (hbc : Extends b c) :
    Extends a c :=
  ⟨fun v d h => hbc.done v d (hab.done v d h), fun v => (hbc.active v).trans (hab.active v)⟩

theorem Extends.fresh_of_fresh {before after : Vector Mark n} (h : Extends before after)
    {v : Fin n} (hv : after.get v = .fresh) : before.get v = .fresh := by
  cases hMark : before.get v with
  | fresh => rfl
  | active =>
    rw [(h.active v).mpr hMark] at hv
    cases hv
  | done d =>
    rw [h.done v d hMark] at hv
    cases hv

theorem Extends.fresh_subset {before after : Vector Mark n} (h : Extends before after) :
    fresh after ⊆ fresh before := by
  intro v hv
  simp only [fresh, Finset.mem_filter, Finset.mem_univ, true_and] at *
  exact h.fresh_of_fresh hv

theorem card_fresh_set_lt {marks : Vector Mark n} {v : Fin n} (hv : marks.get v = .fresh) :
    (fresh (marks.set v .active v.isLt)).card < (fresh marks).card := by
  refine Finset.card_lt_card (Finset.ssubset_iff_of_subset ?_ |>.mpr ⟨v, ?_, ?_⟩)
  · intro w hw
    simp only [fresh, Finset.mem_filter, Finset.mem_univ, true_and, get_set] at *
    split at hw
    · cases hw
    · exact hw
  · simpa [fresh] using hv
  · simp [fresh, get_set]

theorem Weighs.extend {before after : Vector Mark n} {v : Fin n} {seen : List (Fin n)} {d : Nat}
    (h : g.Weighs before v seen d) (hDone : ∀ u e, before.get u = .done e → after.get u = .done e) :
    g.Weighs after v seen d where
  attained := by
    rcases h.attained with h | ⟨u, hu, e, hMark, hd⟩
    · exact Or.inl h
    · exact Or.inr ⟨u, hu, e, hDone u e hMark, hd⟩
  bounded := by
    intro u hu
    rcases h.bounded u hu with ⟨e, hMark, hd⟩ | hPath
    · exact Or.inl ⟨e, hDone u e hMark, hd⟩
    · exact Or.inr hPath

/-! ## One search -/

/-- What a search from a fresh node leads to. -/
structure Visited (g : Digraph n) (before : Vector Mark n) (v : Fin n)
    (after : Vector Mark n) : Prop where
  kept    : Extends before after
  done    : ∃ d, after.get v = .done d
  settled : g.Settled after

/-- Looking at one node in front of `v`, with a search if it is fresh. -/
def look (search : Vector Mark n → Fin n → Vector Mark n) (state : Vector Mark n × Nat)
    (u : Fin n) : Vector Mark n × Nat :=
  let marks := onFresh search state.1 u
  (marks, (marks.get u).deepen state.2)

theorem visit_succ (fuel : Nat) (marks : Vector Mark n) (v : Fin n) :
    g.visit (fuel + 1) marks v =
      ((g.prev v).foldl (look (g.visit fuel)) (marks.set v .active v.isLt, 0)).1.set v
        (.done ((g.prev v).foldl (look (g.visit fuel)) (marks.set v .active v.isLt, 0)).2) v.isLt :=
  rfl

/-- Where a search from `v` stands when it has looked at some of the nodes in front. -/
structure Looked (g : Digraph n) (start : Vector Mark n) (v : Fin n) (seen : List (Fin n))
    (state : Vector Mark n × Nat) : Prop where
  kept    : Extends start state.1
  settled : g.Settled state.1
  weighs  : g.Weighs state.1 v seen state.2

/-- What is looked at counts with its depth, or else the edge closes a cycle. -/
theorem Weighs.deepen {marks : Vector Mark n} {v u : Fin n} {seen : List (Fin n)} {d : Nat}
    (h : g.Weighs marks v seen d) (hMet : (∃ e, marks.get u = .done e) ∨
      marks.get u = .active ∧ g.Reaches v u) :
    g.Weighs marks v (seen ++ [u]) ((marks.get u).deepen d) := by
  rcases hMet with ⟨e, hDone⟩ | ⟨hActive, hPath⟩
  · rw [hDone, Mark.deepen]
    constructor
    · -- the greater of the two is attained where it comes from
      rcases Nat.le_total d (e + 1) with hLe | hLe
      · exact Or.inr ⟨u, by simp, e, hDone, Nat.max_eq_right hLe⟩
      · rw [Nat.max_eq_left hLe]
        rcases h.attained with hZero | ⟨w, hw, f, hMark, hd⟩
        · exact Or.inl hZero
        · exact Or.inr ⟨w, by simp [hw], f, hMark, hd⟩
    · intro w hw
      rw [List.mem_append, List.mem_singleton] at hw
      rcases hw with hw | rfl
      · rcases h.bounded w hw with ⟨f, hMark, hd⟩ | hPath
        · exact Or.inl ⟨f, hMark, Nat.le_trans hd (Nat.le_max_left _ _)⟩
        · exact Or.inr hPath
      · exact Or.inl ⟨e, hDone, Nat.le_max_right _ _⟩
  · have hSame : (marks.get u).deepen d = d := by rw [hActive]; rfl
    rw [hSame]
    constructor
    · rcases h.attained with hZero | ⟨w, hw, f, hMark, hd⟩
      · exact Or.inl hZero
      · exact Or.inr ⟨w, by simp [hw], f, hMark, hd⟩
    · intro w hw
      rw [List.mem_append, List.mem_singleton] at hw
      rcases hw with hw | rfl
      · exact h.bounded w hw
      · exact Or.inr hPath

section Search

variable {fuel : Nat}
  (hVisit : ∀ marks u, marks.get u = .fresh → (fresh marks).card ≤ fuel →
    (∀ w, marks.get w = .active → g.Reaches u w) → g.Settled marks →
    g.Visited marks u (g.visit fuel marks u))

include hVisit

/-- One look keeps the standing of a search. -/
theorem Looked.look {start : Vector Mark n} {v u : Fin n} {seen : List (Fin n)}
    {state : Vector Mark n × Nat} (h : g.Looked start v seen state) (hu : u ∈ g.prev v)
    (hFuel : (fresh start).card ≤ fuel) (hActive : ∀ w, start.get w = .active → g.Reaches v w) :
    g.Looked start v (seen ++ [u]) (look (g.visit fuel) state u) := by
  obtain ⟨marks, best⟩ := state
  obtain ⟨hKept, hSettled, hWeighs⟩ := h
  have hBack : ∀ w, marks.get w = .active → g.Reaches v w :=
    fun w hw => hActive w ((hKept.active w).mp hw)
  by_cases hFresh : marks.get u = .fresh
  · -- what is active leads back to `v` still, and `u` is one edge away
    have hEdge : g.Reaches u v := Relation.ReflTransGen.single (g.mem_next_iff_mem_prev.mpr hu)
    have hVisited : g.Visited marks u (g.visit fuel marks u) :=
      hVisit marks u hFresh (Nat.le_trans (Finset.card_le_card hKept.fresh_subset) hFuel)
        (fun w hw => hEdge.trans (hBack w hw)) hSettled
    have hLook : Digraph.look (g.visit fuel) (marks, best) u =
        (g.visit fuel marks u, ((g.visit fuel marks u).get u).deepen best) := by
      simp only [Digraph.look, onFresh, if_pos hFresh]
    rw [hLook]
    exact ⟨hKept.trans hVisited.kept, hVisited.settled,
      (hWeighs.extend hVisited.kept.done).deepen (Or.inl hVisited.done)⟩
  · have hLook : Digraph.look (g.visit fuel) (marks, best) u =
        (marks, (marks.get u).deepen best) := by
      simp only [Digraph.look, onFresh, if_neg hFresh]
    rw [hLook]
    refine ⟨hKept, hSettled, hWeighs.deepen ?_⟩
    cases hMark : marks.get u with
    | fresh => exact absurd hMark hFresh
    | active => exact Or.inr ⟨rfl, hBack u hMark⟩
    | done e => exact Or.inl ⟨e, rfl⟩

theorem Looked.foldl {start : Vector Mark n} {v : Fin n} (hFuel : (fresh start).card ≤ fuel)
    (hActive : ∀ w, start.get w = .active → g.Reaches v w) (us : List (Fin n))
    (hus : ∀ u ∈ us, u ∈ g.prev v) {seen : List (Fin n)} {state : Vector Mark n × Nat}
    (h : g.Looked start v seen state) :
    g.Looked start v (seen ++ us) (us.foldl (Digraph.look (g.visit fuel)) state) := by
  induction us generalizing seen state with
  | nil => simpa using h
  | cons u us ih =>
    have hStep := h.look hVisit (hus u List.mem_cons_self) hFuel hActive
    have hRest := ih (fun w hw => hus w (List.mem_cons_of_mem _ hw)) hStep
    rwa [List.append_assoc, List.singleton_append] at hRest

end Search

theorem looked_start {marks : Vector Mark n} {v : Fin n} (hFresh : marks.get v = .fresh)
    (hSettled : g.Settled marks) :
    g.Looked (marks.set v .active v.isLt) v [] (marks.set v .active v.isLt, 0) := by
  refine ⟨Extends.refl _, ?_, ⟨Or.inl rfl, by simp⟩⟩
  intro w d hDone
  have hNe : v ≠ w := by
    rintro rfl
    simp [get_set] at hDone
  rw [get_set, if_neg hNe] at hDone
  exact (hSettled w d hDone).extend (done_set (by simp [hFresh]) _)

/-- A search ends when everything in front of the node has been looked at. -/
theorem Looked.finish {marks : Vector Mark n} {v : Fin n} {state : Vector Mark n × Nat}
    (hFresh : marks.get v = .fresh)
    (h : g.Looked (marks.set v .active v.isLt) v (g.prev v) state) :
    g.Visited marks v (state.1.set v (.done state.2) v.isLt) := by
  obtain ⟨hKept, hSettled, hWeighs⟩ := h
  -- the node itself has been active up to now
  have hSelf : state.1.get v = .active := (hKept.active v).mpr (by simp [get_set])
  have hDone : ∀ u e, state.1.get u = .done e →
      (state.1.set v (.done state.2) v.isLt).get u = .done e := done_set (by simp [hSelf]) _
  refine ⟨⟨?_, ?_⟩, ⟨state.2, by simp [get_set]⟩, ?_⟩
  · intro w d hMark
    exact hDone w d (hKept.done w d (done_set (by simp [hFresh]) _ w d hMark))
  · intro w
    by_cases hEq : v = w
    · subst hEq
      simp [get_set, hFresh]
    · rw [get_set, if_neg hEq, hKept.active w, get_set, if_neg hEq]
  · intro w d hMark
    by_cases hEq : v = w
    · subst hEq
      rw [get_set, if_pos rfl, Mark.done.injEq] at hMark
      exact hMark ▸ hWeighs.extend hDone
    · rw [get_set, if_neg hEq] at hMark
      exact (hSettled w d hMark).extend hDone

/-- **A search finishes its node**, with the depth that the nodes in front of it give, and leaves
alone what was done or active before. -/
theorem visited_visit : ∀ (fuel : Nat) (marks : Vector Mark n) (v : Fin n),
    marks.get v = .fresh → (fresh marks).card ≤ fuel →
    (∀ w, marks.get w = .active → g.Reaches v w) → g.Settled marks →
    g.Visited marks v (g.visit fuel marks v)
  | 0, marks, v, hFresh, hFuel, _, _ => by
    -- without fuel nothing is fresh
    have hMem : v ∈ fresh marks := by simpa [fresh] using hFresh
    rw [Finset.card_eq_zero.mp (Nat.le_zero.mp hFuel)] at hMem
    cases hMem
  | fuel + 1, marks, v, hFresh, hFuel, hActive, hSettled => by
    have hLess := card_fresh_set_lt hFresh
    have hBack : ∀ w, (marks.set v Mark.active v.isLt).get w = .active → g.Reaches v w := by
      intro w hw
      rw [get_set] at hw
      split at hw
      · rename_i hEq
        exact hEq ▸ Relation.ReflTransGen.refl
      · exact hActive w hw
    -- the looks are an inner induction, on the nodes in front (`Looked.foldl`)
    have hEnd := (looked_start hFresh hSettled).foldl (visited_visit fuel) (by omega) hBack
      (g.prev v) fun u hu => hu
    rw [visit_succ]
    exact hEnd.finish hFresh

/-! ## All searches -/

/-- Searches one after another, each from a node that is still fresh then, finish their nodes. -/
theorem settled_foldl (vs : List (Fin n)) {marks : Vector Mark n} (hSettled : g.Settled marks)
    (hActive : ∀ w, marks.get w ≠ .active) :
    let after := vs.foldl (onFresh (g.visit n)) marks
    Extends marks after ∧ g.Settled after ∧ ∀ v ∈ vs, ∃ d, after.get v = .done d := by
  induction vs generalizing marks with
  | nil => exact ⟨Extends.refl marks, hSettled, by simp⟩
  | cons v vs ih =>
    have hCard : (fresh marks).card ≤ n := by
      simpa using Finset.card_le_univ (fresh marks)
    -- the first search, if there is one
    have hFirst : g.Visited marks v (onFresh (g.visit n) marks v) := by
      rw [onFresh]
      split
      · rename_i hFresh
        exact visited_visit n marks v hFresh hCard (fun w hw => absurd hw (hActive w)) hSettled
      · rename_i hMet
        refine ⟨Extends.refl marks, ?_, hSettled⟩
        cases hMark : marks.get v with
        | fresh => exact absurd hMark hMet
        | active => exact absurd hMark (hActive v)
        | done d => exact ⟨d, rfl⟩
    obtain ⟨hKept, hEnd, hAll⟩ := ih hFirst.settled
      fun w hw => hActive w ((hFirst.kept.active w).mp hw)
    refine ⟨hFirst.kept.trans hKept, hEnd, ?_⟩
    intro w hw
    rcases List.mem_cons.mp hw with rfl | hw
    · obtain ⟨d, hDone⟩ := hFirst.done
      exact ⟨d, hKept.done w d hDone⟩
    · exact hAll w hw

/-- The marks at the end of all searches, each of them with some fuel. -/
def searched (g : Digraph n) (fuel : Nat) : Vector Mark n :=
  (List.finRange n).foldl (onFresh (g.visit fuel)) (Vector.replicate n .fresh)

/-- At the end every node is done, with its depth. -/
theorem settled_searched :
    g.Settled (g.searched n) ∧ ∀ v, (g.searched n).get v = .done (g.depths.get v) := by
  have hStart : g.Settled (Vector.replicate n Mark.fresh) := by
    intro w d hDone
    simp [Vector.get_eq_getElem] at hDone
  obtain ⟨-, hSettled, hAll⟩ := settled_foldl (List.finRange n) hStart
    (by simp [Vector.get_eq_getElem])
  refine ⟨hSettled, fun v => ?_⟩
  obtain ⟨d, hDone⟩ : ∃ d, (g.searched n).get v = .done d := hAll v (List.mem_finRange v)
  have hDepth : g.depths.get v = ((g.searched n).get v).depth := by
    simp [depths, searched, Vector.get_eq_getElem]
  rw [hDepth, hDone]
  rfl

/-- **The depth of a node.** It is zero or one more than the depth of some node in front, and it
exceeds the depth of each node in front that cannot be reached from the node itself. -/
theorem weighs_depths (v : Fin n) :
    (g.depths.get v = 0 ∨ ∃ u ∈ g.prev v, g.depths.get v = g.depths.get u + 1) ∧
    ∀ u ∈ g.prev v, g.depths.get u + 1 ≤ g.depths.get v ∨ g.Reaches v u := by
  obtain ⟨hSettled, hDone⟩ := settled_searched (g := g)
  have hWeighs := hSettled v _ (hDone v)
  have hDepth : ∀ u e, (g.searched n).get u = .done e → e = g.depths.get u := by
    intro u e hMark
    exact Mark.done.inj (hMark.symm.trans (hDone u))
  constructor
  · rcases hWeighs.attained with hZero | ⟨u, hu, e, hMark, hd⟩
    · exact Or.inl hZero
    · exact Or.inr ⟨u, hu, by rw [hd, hDepth u e hMark]⟩
  · intro u hu
    rcases hWeighs.bounded u hu with ⟨e, hMark, hd⟩ | hPath
    · exact Or.inl (by rw [← hDepth u e hMark]; exact hd)
    · exact Or.inr hPath

/-- Nothing between zero and a depth is left out. -/
theorem exists_depth_eq {v : Fin n} {k : Nat} (hk : k ≤ g.depths.get v) :
    ∃ u, g.depths.get u = k := by
  induction hd : g.depths.get v generalizing v with
  | zero => exact ⟨v, by omega⟩
  | succ d ih =>
    rcases Nat.eq_or_lt_of_le hk with hEq | hLess
    · exact ⟨v, hEq.symm⟩
    · -- some node in front is one less deep
      rcases (weighs_depths (g := g) v).1 with hZero | ⟨u, -, hStep⟩
      · omega
      · exact ih (v := u) (by omega) (by omega)

/-- **There are more nodes than the depth of any of them.** -/
theorem depth_lt (v : Fin n) : g.depths.get v < n := by
  have hRange : Finset.range (g.depths.get v + 1) ⊆ Finset.univ.image g.depths.get := by
    intro k hk
    obtain ⟨u, hu⟩ := exists_depth_eq (Nat.le_of_lt_succ (Finset.mem_range.mp hk))
    exact Finset.mem_image.mpr ⟨u, Finset.mem_univ u, hu⟩
  have hCard := (Finset.card_le_card hRange).trans Finset.card_image_le
  simpa using hCard

/-! ## Without cycles -/

/-- Numbers that grow along every edge, and no faster than one of the edges demands. -/
structure Layered (g : Digraph n) (depth : Fin n → Nat) : Prop where
  attained : ∀ v, depth v = 0 ∨ ∃ u ∈ g.prev v, depth v = depth u + 1
  grows    : ∀ v, ∀ u ∈ g.prev v, depth u + 1 ≤ depth v

theorem Layered.le {d e : Fin n → Nat} (hd : g.Layered d) (he : g.Layered e) (v : Fin n) :
    d v ≤ e v := by
  induction hk : d v generalizing v with
  | zero => exact Nat.zero_le _
  | succ k ih =>
    rcases hd.attained v with hZero | ⟨u, hu, hEq⟩
    · omega
    · -- a node in front has depth `k`, and `e` grows from it to `v`
      have hPrev := ih u (by omega)
      have hGrows := he.grows v u hu
      omega

theorem Layered.unique {d e : Fin n → Nat} (hd : g.Layered d) (he : g.Layered e) : d = e :=
  funext fun v => Nat.le_antisymm (hd.le he v) (he.le hd v)

/-- **Without cycles the depths grow along every edge.** -/
theorem layered_depths (hAcyclic : g.Acyclic) (hLoop : ∀ v, v ∉ g.prev v) :
    g.Layered g.depths.get where
  attained v := (weighs_depths v).1
  grows v u hu := by
    rcases (weighs_depths v).2 u hu with hLe | hPath
    · exact hLe
    · have hEdge : g.Reaches u v := Relation.ReflTransGen.single (g.mem_next_iff_mem_prev.mpr hu)
      have hEq : u = v := hAcyclic u v hEdge hPath
      exact absurd (hEq ▸ hu) (hLoop v)

/-- **Without cycles the order of the edges does not matter** for the depths. -/
theorem depths_eq_of_same_edges {h : Digraph n} (hAcyclic : g.Acyclic) (hLoop : ∀ v, v ∉ g.prev v)
    (hSame : ∀ u v, v ∈ h.next u ↔ v ∈ g.next u) : h.depths = g.depths := by
  have hPrev : ∀ u v, u ∈ h.prev v ↔ u ∈ g.prev v := by
    intro u v
    rw [← mem_next_iff_mem_prev, ← mem_next_iff_mem_prev, hSame]
  have hReaches : h.Reaches = g.Reaches := by
    unfold Reaches
    simp only [hSame]
  have hLayered : h.Layered h.depths.get := by
    refine layered_depths ?_ fun v hv => hLoop v ((hPrev v v).mp hv)
    unfold Acyclic
    rwa [hReaches]
  -- both depths grow along the same edges
  have hMoved : g.Layered h.depths.get := by
    obtain ⟨hAttained, hGrows⟩ := hLayered
    simp only [hPrev] at hAttained hGrows
    exact ⟨hAttained, hGrows⟩
  have hGet := hMoved.unique (layered_depths hAcyclic hLoop)
  ext i hi
  simpa [Vector.get_eq_getElem] using congrFun hGet ⟨i, hi⟩

end Digraph

end Taskboard
