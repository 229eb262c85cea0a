import Mathlib
import Taskboard.Proofs.Graph.Depth

/-!
# Taskboard — parts of a graph

A part of a graph is joined to the rest of it by no edge. A search that starts in a part never
leaves it, so it finds what it would find in the part alone. That holds of depths too, on a cycle
as well: the search meets the same nodes in the same order, and it neither reads nor changes the
marks of any other node.

* `Digraph.Embeds` — one graph is a part of another;
* `Digraph.Embeds.perm_reach`, `Digraph.Embeds.perm_componentOf` — what is reached in a part;
* `Digraph.Embeds.visit` — a depth-first search in a part, by induction on its fuel;
* `Digraph.searched_of_le` — what fuel is left over makes no difference;
* `Digraph.Joins` — a graph that consists of two parts;
* `Digraph.Joins.depths_left`, `Digraph.Joins.depths_right` — the depths in each part.
-/

namespace Taskboard

namespace Digraph

variable {n m k : Nat} {σ : Fin n → Fin m} {g : Digraph n} {h : Digraph m}

/-- `σ` places the nodes of `g` among those of `h`. Each keeps its neighbours, in their order, and
has no other ones. -/
structure Embeds (σ : Fin n → Fin m) (g : Digraph n) (h : Digraph m) : Prop where
  injective : Function.Injective σ
  next      : ∀ u, h.next (σ u) = (g.next u).map σ
  prev      : ∀ v, h.prev (σ v) = (g.prev v).map σ

namespace Embeds

/-! ## What is reached -/

/-- A path that starts in a part stays in it. -/
theorem reaches_iff (hE : Embeds σ g h) {u : Fin n} {w : Fin m} :
    h.Reaches (σ u) w ↔ ∃ v, σ v = w ∧ g.Reaches u v := by
  constructor
  · intro hPath
    induction hPath with
    | refl => exact ⟨u, rfl, Relation.ReflTransGen.refl⟩
    | tail _ hEdge ih =>
      obtain ⟨x, rfl, hFront⟩ := ih
      rw [hE.next, List.mem_map] at hEdge
      obtain ⟨v, hv, rfl⟩ := hEdge
      exact ⟨v, rfl, hFront.tail hv⟩
  · rintro ⟨v, rfl, hPath⟩
    induction hPath with
    | refl => exact Relation.ReflTransGen.refl
    | tail _ hEdge ih =>
      refine ih.tail ?_
      rw [hE.next]
      exact List.mem_map_of_mem hEdge

theorem reaches (hE : Embeds σ g h) {u v : Fin n} : h.Reaches (σ u) (σ v) ↔ g.Reaches u v := by
  rw [hE.reaches_iff]
  constructor
  · rintro ⟨x, hx, hPath⟩
    rwa [← hE.injective hx]
  · intro hPath
    exact ⟨v, rfl, hPath⟩

/-- **A search in a part** finds what it finds in the part alone. -/
theorem perm_reach (hE : Embeds σ g h) (v : Fin n) :
    (h.reach (σ v)).Perm ((g.reach v).map σ) := by
  rw [List.perm_ext_iff_of_nodup (nodup_reach _) ((nodup_reach v).map hE.injective)]
  intro w
  rw [mem_reach, hE.reaches_iff, List.mem_map]
  simp only [mem_reach, and_comm]

theorem perm_componentOf (hE : Embeds σ g h) (v : Fin n) :
    (h.componentOf (σ v)).Perm ((g.componentOf v).map σ) := by
  rw [List.perm_ext_iff_of_nodup (nodup_componentOf _) ((nodup_componentOf v).map hE.injective)]
  intro w
  rw [mem_componentOf, hE.reaches_iff, List.mem_map]
  constructor
  · rintro ⟨⟨u, rfl, hvu⟩, huv⟩
    exact ⟨u, mem_componentOf.mpr ⟨hvu, hE.reaches.mp huv⟩, rfl⟩
  · rintro ⟨u, hu, rfl⟩
    obtain ⟨hvu, huv⟩ := mem_componentOf.mp hu
    exact ⟨⟨u, rfl, hvu⟩, hE.reaches.mpr huv⟩

end Embeds

/-! ## What a search makes fresh -/

theorem fresh_of_fresh_foldl {search : Vector Mark n → Fin n → Vector Mark n}
    (hSearch : ∀ marks u w, (search marks u).get w = .fresh → marks.get w = .fresh)
    (us : List (Fin n)) (state : Vector Mark n × Nat) (w : Fin n)
    (hFresh : (us.foldl (look search) state).1.get w = .fresh) : state.1.get w = .fresh := by
  induction us generalizing state with
  | nil => exact hFresh
  | cons u us ih =>
    have hLooked : (onFresh search state.1 u).get w = .fresh := ih (look search state u) hFresh
    rw [onFresh] at hLooked
    split at hLooked
    · exact hSearch state.1 u w hLooked
    · exact hLooked

/-- A search makes no node fresh. -/
theorem fresh_of_fresh_visit (fuel : Nat) (marks : Vector Mark n) (v w : Fin n)
    (hFresh : (g.visit fuel marks v).get w = .fresh) : marks.get w = .fresh := by
  induction fuel generalizing marks v w with
  | zero => exact hFresh
  | succ fuel ih =>
    rw [visit_succ, get_set] at hFresh
    -- the node itself ends as done
    split at hFresh
    · cases hFresh
    · rename_i hNe
      have hStart := fresh_of_fresh_foldl ih _ _ w hFresh
      rwa [get_set, if_neg hNe] at hStart

theorem card_fresh_onFresh_le (fuel : Nat) (marks : Vector Mark n) (v : Fin n) :
    (fresh (onFresh (g.visit fuel) marks v)).card ≤ (fresh marks).card := by
  refine Finset.card_le_card ?_
  intro w hw
  simp only [fresh, Finset.mem_filter, Finset.mem_univ, true_and] at *
  rw [onFresh] at hw
  split at hw
  · exact fresh_of_fresh_visit fuel marks v w hw
  · exact hw

/-! ## Depth-first search -/

/-- The marks `large` are the marks `base`, with the marks `small` laid over a part. -/
structure Overlay (σ : Fin n → Fin m) (base : Vector Mark m) (small : Vector Mark n)
    (large : Vector Mark m) : Prop where
  inside  : ∀ v, large.get (σ v) = small.get v
  outside : ∀ w, (∀ v, σ v ≠ w) → large.get w = base.get w

theorem Overlay.set {base large : Vector Mark m} {small : Vector Mark n}
    (hInjective : Function.Injective σ) (hLaid : Overlay σ base small large) (v : Fin n)
    (x : Mark) : Overlay σ base (small.set v x v.isLt) (large.set (σ v) x (σ v).isLt) where
  inside u := by
    rw [get_set, get_set]
    simp only [hInjective.eq_iff, hLaid.inside]
  outside w hw := by
    rw [get_set, if_neg (hw v), hLaid.outside w hw]

namespace Embeds

section Search

variable {base : Vector Mark m} {fuel fuel' : Nat}
  (hVisit : ∀ small large u, small.get u = .fresh → (fresh small).card ≤ fuel →
    Overlay σ base small large →
    Overlay σ base (g.visit fuel small u) (h.visit fuel' large (σ u)))

include hVisit

theorem onFresh {small : Vector Mark n} {large : Vector Mark m}
    (hLaid : Overlay σ base small large) (hFuel : (fresh small).card ≤ fuel) (u : Fin n) :
    Overlay σ base (Digraph.onFresh (g.visit fuel) small u)
      (Digraph.onFresh (h.visit fuel') large (σ u)) := by
  rw [Digraph.onFresh, Digraph.onFresh, hLaid.inside u]
  split
  · rename_i hFresh
    exact hVisit small large u hFresh hFuel hLaid
  · exact hLaid

/-- The looks at the nodes in front of a node, in a part and in the part alone. -/
theorem foldl_look (us : List (Fin n)) {small : Vector Mark n} {large : Vector Mark m}
    (hLaid : Overlay σ base small large) (hFuel : (fresh small).card ≤ fuel) (best : Nat) :
    let alone := us.foldl (look (g.visit fuel)) (small, best)
    let inPart := (us.map σ).foldl (look (h.visit fuel')) (large, best)
    Overlay σ base alone.1 inPart.1 ∧ inPart.2 = alone.2 := by
  induction us generalizing small large best with
  | nil => exact ⟨hLaid, rfl⟩
  | cons u us ih =>
    have hLooked := onFresh hVisit hLaid hFuel u
    have hLess := (card_fresh_onFresh_le (g := g) fuel small u).trans hFuel
    rw [List.map_cons, List.foldl_cons, List.foldl_cons]
    simp only [look]
    -- what is looked at has one mark in both searches
    rw [hLooked.inside u]
    exact ih hLooked hLess _

end Search

/-- **A depth-first search in a part** leaves the marks that it leaves in the part alone, and leaves
the other marks as they are. It may have more fuel than it needs. -/
theorem visit (hE : Embeds σ g h) {base : Vector Mark m} : ∀ (fuel fuel' : Nat), fuel ≤ fuel' →
    ∀ small large u, small.get u = .fresh → (fresh small).card ≤ fuel →
      Overlay σ base small large →
      Overlay σ base (g.visit fuel small u) (h.visit fuel' large (σ u))
  | 0, _, _, small, large, u, hFresh, hFuel, _ => by
    -- without fuel nothing is fresh
    have hMem : u ∈ fresh small := by simpa [fresh] using hFresh
    rw [Finset.card_eq_zero.mp (Nat.le_zero.mp hFuel)] at hMem
    cases hMem
  | fuel + 1, 0, hLe, _, _, _, _, _, _ => absurd hLe (Nat.not_succ_le_zero fuel)
  | fuel + 1, fuel' + 1, hLe, small, large, u, hFresh, hFuel, hLaid => by
    have hLess := card_fresh_set_lt hFresh
    obtain ⟨hMarks, hBest⟩ := foldl_look (hE.visit fuel fuel' (Nat.le_of_succ_le_succ hLe))
      (g.prev u) (hLaid.set hE.injective u .active) (by omega) 0
    rw [visit_succ, visit_succ, hE.prev, hBest]
    exact hMarks.set hE.injective u _

/-- Searches from nodes of a part, one after another. -/
theorem searches (hE : Embeds σ g h) (vs : List (Fin n)) {base large : Vector Mark m}
    {small : Vector Mark n} (hLaid : Overlay σ base small large) :
    Overlay σ base (vs.foldl (Digraph.onFresh (g.visit n)) small)
      ((vs.map σ).foldl (Digraph.onFresh (h.visit m)) large) := by
  have hSize : n ≤ m := by
    simpa using Fintype.card_le_of_injective σ hE.injective
  induction vs generalizing small large with
  | nil => exact hLaid
  | cons v vs ih =>
    have hCard : (fresh small).card ≤ n := by
      simpa using Finset.card_le_univ (fresh small)
    exact ih (onFresh (hE.visit n m hSize) hLaid hCard v)

/-- A graph is a part of itself. -/
theorem refl (g : Digraph n) : Embeds id g g where
  injective := Function.injective_id
  next _ := (List.map_id _).symm
  prev _ := (List.map_id _).symm

end Embeds

/-- More fuel than a search needs changes nothing. -/
theorem visit_of_le {fuel fuel' : Nat} {marks : Vector Mark n} {v : Fin n} (hLe : fuel ≤ fuel')
    (hFresh : marks.get v = .fresh) (hFuel : (fresh marks).card ≤ fuel) :
    g.visit fuel' marks v = g.visit fuel marks v := by
  have hLaid : Overlay id marks marks marks := ⟨fun _ => rfl, fun _ _ => rfl⟩
  have hSame := (Embeds.refl g).visit fuel fuel' hLe marks marks v hFresh hFuel hLaid
  ext i hi
  simpa [Vector.get_eq_getElem] using hSame.inside ⟨i, hi⟩

/-- **As much fuel as there are nodes is enough** for all searches. -/
theorem searched_of_le {fuel : Nat} (hLe : n ≤ fuel) : g.searched fuel = g.searched n := by
  have hSearch : onFresh (g.visit fuel) = onFresh (g.visit n) := by
    funext marks v
    have hCard : (fresh marks).card ≤ n := by
      simpa using Finset.card_le_univ (fresh marks)
    rw [onFresh, onFresh]
    split
    · rename_i hFresh
      exact visit_of_le hLe hFresh hCard
    · rfl
  rw [searched, searched, hSearch]

/-! ## Two parts -/

/-- `h` consists of `g` and `f`: it has the nodes of the one, then those of the other, and no edge
between them. -/
structure Joins (σ : Fin n → Fin m) (τ : Fin k → Fin m) (g : Digraph n) (f : Digraph k)
    (h : Digraph m) : Prop where
  left  : Embeds σ g h
  right : Embeds τ f h
  nodes : List.finRange m = (List.finRange n).map σ ++ (List.finRange k).map τ

namespace Joins

variable {τ : Fin k → Fin m} {f : Digraph k}

theorem ne (hJ : Joins σ τ g f h) (u : Fin n) (v : Fin k) : σ u ≠ τ v := by
  have hNodup := List.nodup_finRange m
  rw [hJ.nodes, List.nodup_append] at hNodup
  exact hNodup.2.2 _ (List.mem_map_of_mem (List.mem_finRange u)) _
    (List.mem_map_of_mem (List.mem_finRange v))

theorem exists_place (hJ : Joins σ τ g f h) (w : Fin m) : (∃ u, σ u = w) ∨ ∃ v, τ v = w := by
  have hMem := List.mem_finRange w
  rw [hJ.nodes, List.mem_append, List.mem_map, List.mem_map] at hMem
  simpa using hMem

/-- The marks at the end of all searches are those of the parts, side by side. -/
theorem marks (hJ : Joins σ τ g f h) :
    let all := (List.finRange m).foldl (onFresh (h.visit m)) (Vector.replicate m .fresh)
    (∀ u, all.get (σ u) =
      ((List.finRange n).foldl (onFresh (g.visit n)) (Vector.replicate n .fresh)).get u) ∧
    ∀ v, all.get (τ v) =
      ((List.finRange k).foldl (onFresh (f.visit k)) (Vector.replicate k .fresh)).get v := by
  intro all
  have hFresh : ∀ (l : Nat) (v : Fin l), (Vector.replicate l Mark.fresh).get v = .fresh := by
    intro l v
    simp [Vector.get_eq_getElem]
  have hStart : Overlay σ (.replicate m .fresh) (.replicate n .fresh) (.replicate m .fresh) :=
    ⟨fun v => by rw [hFresh, hFresh], fun _ _ => rfl⟩
  have hFirst := hJ.left.searches (List.finRange n) hStart
  set half := ((List.finRange n).map σ).foldl (onFresh (h.visit m)) (.replicate m .fresh)
  -- the first searches have left the second part fresh, and the second ones leave the first alone
  have hHalf : Overlay τ half (.replicate k .fresh) half := by
    refine ⟨fun v => ?_, fun _ _ => rfl⟩
    rw [hFirst.outside (τ v) fun u => hJ.ne u v, hFresh, hFresh]
  have hSecond := hJ.right.searches (List.finRange k) hHalf
  have hAll : all = ((List.finRange k).map τ).foldl (onFresh (h.visit m)) half := by
    simp only [all, hJ.nodes, List.foldl_append, half]
  rw [hAll]
  constructor
  · intro u
    rw [hSecond.outside (σ u) fun v => (hJ.ne u v).symm, hFirst.inside]
  · intro v
    rw [hSecond.inside]

/-- **The depths in the first part** are its own. -/
theorem depths_left (hJ : Joins σ τ g f h) (u : Fin n) : h.depths.get (σ u) = g.depths.get u := by
  have hMarks := hJ.marks.1 u
  simp only [Vector.get_eq_getElem] at hMarks
  simp [depths, Vector.get_eq_getElem, hMarks]

/-- **The depths in the second part** are its own, although its searches come later. -/
theorem depths_right (hJ : Joins σ τ g f h) (v : Fin k) : h.depths.get (τ v) = f.depths.get v := by
  have hMarks := hJ.marks.2 v
  simp only [Vector.get_eq_getElem] at hMarks
  simp [depths, Vector.get_eq_getElem, hMarks]

end Joins

end Digraph

end Taskboard
