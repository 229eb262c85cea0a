import Mathlib
import Taskboard.Proofs.Board.Structure
import Taskboard.Proofs.Graph.Relation

/-!
# Taskboard — what the digest tells about the links

The digest of a graph is taken of its links in order, each id with a zero byte behind it. Nothing
is escaped and no length is written, so where an id ends is known only as long as no id holds a
zero character itself. Then the bytes can be taken apart again and belong to one set of links. An
id with a zero character reads as two ids, and boards with different links share a digest.

* `DependencyGraph.content_eq_flatMap` — the bytes are a text in UTF-8 (`written`);
* `DependencyGraph.written_inj` — a text of plain ids can be taken apart;
* `DependencyGraph.contentHash_eq_iff_links` — for plain ids the digest changes exactly when the
  links do;
* `DependencyGraph.content_eq_of_zero_in_id` — two boards with different links and one digest.
-/

namespace Taskboard

/-- A link whose ids hold no zero character. -/
def Link.Plain (l : Link) : Prop :=
  '\x00' ∉ l.blocker.toList ∧ '\x00' ∉ l.blocked.toList

instance (l : Link) : Decidable l.Plain :=
  inferInstanceAs (Decidable (_ ∧ _))

namespace DependencyGraph

/-! ## Bytes and texts -/

/-- A text is known from its bytes. -/
theorem flatMap_utf8EncodeChar_injective :
    Function.Injective fun cs : List Char => cs.flatMap String.utf8EncodeChar := by
  intro cs ds h
  have hBytes : (String.ofList cs).toByteArray = (String.ofList ds).toByteArray := by
    show cs.utf8Encode = ds.utf8Encode
    rw [List.utf8Encode, List.utf8Encode]
    exact congrArg List.toByteArray h
  exact String.ofList_injective (String.toByteArray_inj.mp hBytes)

/-- What the digest is taken of, as a text: the ids of each link, a zero character behind each. -/
def written (links : List Link) : List Char :=
  links.flatMap fun l => l.blocker.toList ++ '\x00' :: (l.blocked.toList ++ ['\x00'])

theorem content_eq_flatMap (g : DependencyGraph) :
    g.content = (written g.links).flatMap String.utf8EncodeChar := by
  have hZero : String.utf8EncodeChar '\x00' = [0] := rfl
  rw [content, written, List.flatMap_assoc]
  refine congrArg (fun f => g.links.flatMap f) (funext fun l => ?_)
  simp [terminated, hZero]

/-- A text of plain ids can be taken apart: the first zero character ends the first id. -/
theorem written_inj : ∀ {ls ms : List Link}, (∀ l ∈ ls, l.Plain) → (∀ m ∈ ms, m.Plain) →
    written ls = written ms → ls = ms
  | [], [], _, _, _ => rfl
  | [], m :: ms, _, _, h => by simp [written] at h
  | l :: ls, [], _, _, h => by simp [written] at h
  | l :: ls, m :: ms, hls, hms, h => by
    obtain ⟨hlBlocker, hlBlocked⟩ := hls l List.mem_cons_self
    obtain ⟨hmBlocker, hmBlocked⟩ := hms m List.mem_cons_self
    simp only [written, List.flatMap_cons, List.append_assoc, List.cons_append,
      List.nil_append] at h
    obtain ⟨hBlocker, h⟩ := append_cons_inj hlBlocker hmBlocker h
    obtain ⟨hBlocked, h⟩ := append_cons_inj hlBlocked hmBlocked h
    have hLink : l = m := by
      cases l
      cases m
      rw [Link.mk.injEq]
      exact ⟨String.toList_inj.mp hBlocker, String.toList_inj.mp hBlocked⟩
    have hRest : ls = ms :=
      written_inj (fun k hk => hls k (List.mem_cons_of_mem _ hk))
        (fun k hk => hms k (List.mem_cons_of_mem _ hk)) h
    rw [hLink, hRest]

/-! ## Links and digests -/

theorem content_eq_iff {g h : DependencyGraph} (hg : ∀ l ∈ g.links, l.Plain)
    (hh : ∀ l ∈ h.links, l.Plain) : g.content = h.content ↔ g.links = h.links := by
  rw [content_eq_flatMap, content_eq_flatMap, flatMap_utf8EncodeChar_injective.eq_iff]
  constructor
  · exact written_inj hg hh
  · intro hLinks
    rw [hLinks]

/--
**The digest tells links apart if no linked id holds a zero character.** For boards of such ids
the bytes that the digest is taken of are equal exactly if the same ids block the same ids; and
so are the digests, unless these very bytes collide.
-/
theorem contentHash_eq_iff_links {xs ys : Board} (hx : ∀ l ∈ (ofBoard xs).links, l.Plain)
    (hy : ∀ l ∈ (ofBoard ys).links, l.Plain) :
    ((ofBoard xs).content = (ofBoard ys).content ↔
      ∀ a b, ⟨a, b⟩ ∈ (ofBoard xs).links ↔ ⟨a, b⟩ ∈ (ofBoard ys).links) ∧
    ((Blake3.hexDigest (ofBoard xs).content = Blake3.hexDigest (ofBoard ys).content →
        (ofBoard xs).content = (ofBoard ys).content) →
      ((ofBoard xs).contentHash = (ofBoard ys).contentHash ↔
        ∀ a b, ⟨a, b⟩ ∈ (ofBoard xs).links ↔ ⟨a, b⟩ ∈ (ofBoard ys).links)) := by
  have hContent := content_eq_iff hx hy
  rw [links_eq_iff] at hContent
  refine ⟨hContent, ?_⟩
  intro hCollision
  rw [← hContent, contentHash, contentHash, String.append_right_inj]
  exact ⟨hCollision, congrArg Blake3.hexDigest⟩

/-- A link recorded by the item that is blocked, then by the one that blocks it: the digest is
taken of the same bytes. -/
theorem content_eq_of_other_side :
    let xs : Board := [{ id := "a b" }, { id := "é", blockedBy := some ["a b", "ghost"] }]
    let ys : Board := [{ id := "é" }, { id := "a b", blocking := some ["é", "é"] }]
    (∀ l ∈ (ofBoard xs).links, l.Plain) ∧ (∀ l ∈ (ofBoard ys).links, l.Plain) ∧
      (ofBoard xs).content = (ofBoard ys).content := by
  intro xs ys
  have hx : ∀ l ∈ (ofBoard xs).links, l.Plain := by decide +kernel
  have hy : ∀ l ∈ (ofBoard ys).links, l.Plain := by decide +kernel
  have hLinks : (ofBoard xs).links = (ofBoard ys).links := by decide +kernel
  refine ⟨hx, hy, (contentHash_eq_iff_links hx hy).1.mpr ?_⟩
  intro a b
  rw [hLinks]

/-- **An id with a zero character reads as two.** These boards record different links, and their
digests are taken of the same bytes. -/
theorem content_eq_of_zero_in_id :
    let xs : Board := [{ id := "a\x00b", blocking := some ["c"] }, { id := "c" }]
    let ys : Board := [{ id := "a", blocking := some ["b\x00c"] }, { id := "b\x00c" }]
    (ofBoard xs).content = (ofBoard ys).content ∧
      ⟨"a\x00b", "c"⟩ ∈ (ofBoard xs).links ∧ ⟨"a\x00b", "c"⟩ ∉ (ofBoard ys).links := by
  decide +kernel

end DependencyGraph

end Taskboard
