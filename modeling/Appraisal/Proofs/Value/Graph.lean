import Appraisal.Proofs.Value.Canonical
import Appraisal.Value.Graph
import Mathlib.Data.List.Permutation
import Mathlib.Logic.Relation
import Mathlib.Tactic.Choose

/-! Unfolding graphs. A node unfolds to a tree in which a reference is cut where it leads back to a node on the way to
    it, and is written out everywhere else (`Unfolds`). Every node has exactly one such tree, because the way to a
    node holds no node twice, and a visit makes it up to the order of keys. -/

namespace Appraisal.Graph
open Relation

/-! ### Nodes with their references replaced -/

/-- The item with a tree in place of its reference. -/
def Item.filled (tree : Nat → Value) : Item → Value
  | .value v => v
  | .node j => tree j

theorem Item.filled_congr {β : Type} (f : Value → β) {s t : Nat → Value} {item : Item}
    (h : ∀ j, item = .node j → f (s j) = f (t j)) : f (item.filled s) = f (item.filled t) := by
  cases item with
  | value v => rfl
  | node j => exact h j rfl

namespace Node

def Refers : Node → Nat → Prop
  | list items, j => .node j ∈ items
  | map entries, j => ∃ key, (key, .node j) ∈ entries

/-- The node with trees in place of its references. -/
def filled (tree : Nat → Value) : Node → Value
  | list items => .list (items.map (Item.filled tree))
  | map entries => .map (entries.map fun e => (e.1, e.2.filled tree))

variable {node : Node} {s t : Nat → Value}

theorem filled_congr (h : ∀ j, node.Refers j → s j = t j) : node.filled s = node.filled t := by
  cases node with
  | list items =>
    refine congrArg Value.list (List.map_congr_left fun item hitem => Item.filled_congr id ?_)
    rintro j rfl
    exact h j hitem
  | map entries =>
    refine congrArg Value.map (List.map_congr_left fun e he => ?_)
    exact congrArg (e.1, ·) (Item.filled_congr id fun j hj => h j ⟨e.1, hj ▸ he⟩)

theorem withItems_map (entries : List (String × Item)) (f : Item → Value) :
    (map entries).withItems ((map entries).items.map f) =
      .map ((Value.sortEntries entries).map fun e => (e.1, f e.2)) := by
  rw [withItems, items, List.map_map, List.zip_map']
  rfl

/-- A visit takes the items of a mapping in another order than they have, and the text is the same if the texts of the
    references are. -/
theorem canonical_withItems (h : ∀ j, node.Refers j → (s j).canonical = (t j).canonical) :
    (node.withItems (node.items.map (Item.filled s))).canonical = (node.filled t).canonical := by
  cases node with
  | list items =>
    rw [withItems, Node.items, filled, Value.canonical_list, Value.canonical_list, List.map_map, List.map_map]
    congr 3
    refine List.map_congr_left fun item hitem => Item.filled_congr Value.canonical ?_
    rintro j rfl
    exact h j hitem
  | map entries =>
    have hsort : ∀ (tree : Nat → Value) (es : List (String × Item)),
        Value.sortEntries (es.map fun e => (e.1, e.2.filled tree)) =
          (Value.sortEntries es).map fun e => (e.1, e.2.filled tree) :=
      fun tree => Value.sortEntries_map fun e : String × Item => e.2.filled tree
    rw [withItems_map, filled, Value.canonical_map, Value.canonical_map, hsort, hsort, Value.sortEntries_sortEntries,
      List.map_map, List.map_map]
    congr 3
    refine List.map_congr_left fun e he => congrArg (fun text => Value.member (e.1, text)) ?_
    refine Item.filled_congr Value.canonical fun j hj => h j ⟨e.1, ?_⟩
    exact hj ▸ Value.mem_sortEntries.1 he

end Node

/-! ### Trees -/

variable {g : Graph} {path : List Nat} {i : Nat} {t : Value}

/-- Node `i` unfolds to the tree below the nodes of the path. It is cut exactly if it is one of them. -/
inductive Unfolds (g : Graph) : (path : List Nat) → (i : Nat) → Value → Prop where
  | cut {path : List Nat} {i : Nat} (above : i ∈ path) : Unfolds g path i .null
  | missing {path : List Nat} {i : Nat} (below : i ∉ path) (absent : g.nodes[i]? = none) : Unfolds g path i .null
  | node {path : List Nat} {i : Nat} {node : Node} {tree : Nat → Value} (below : i ∉ path)
      (found : g.nodes[i]? = some node) (each : ∀ j, node.Refers j → Unfolds g (i :: path) j (tree j)) :
      Unfolds g path i (node.filled tree)

/-- Node `i` unfolds to the tree, and nothing is cut. -/
inductive UnfoldsWhole (g : Graph) : (i : Nat) → Value → Prop where
  | missing {i : Nat} (absent : g.nodes[i]? = none) : UnfoldsWhole g i .null
  | node {i : Nat} {node : Node} {tree : Nat → Value} (found : g.nodes[i]? = some node)
      (each : ∀ j, node.Refers j → UnfoldsWhole g j (tree j)) : UnfoldsWhole g i (node.filled tree)

/-- Node `i` has a reference to node `j`. -/
def Refers (g : Graph) (i j : Nat) : Prop := ∃ node, g.nodes[i]? = some node ∧ node.Refers j

/-- No node that can be reached from the first one can be reached from itself. -/
def Acyclic (g : Graph) : Prop := ∀ i, ReflTransGen g.Refers 0 i → ¬ TransGen g.Refers i i

theorem exists_unfolds (g : Graph) (path : List Nat) (i : Nat) : ∃ t, Unfolds g path i t := by
  by_cases hp : i ∈ path
  · exact ⟨.null, .cut hp⟩
  by_cases hi : i < g.nodes.length
  · have hbelow : ∀ j, ∃ t, Unfolds g (i :: path) j t := fun j => exists_unfolds g (i :: path) j
    choose tree htree using hbelow
    exact ⟨_, .node hp (List.getElem?_eq_getElem hi) fun j _ => htree j⟩
  · exact ⟨.null, .missing hp (List.getElem?_eq_none (Nat.le_of_not_lt hi))⟩
  termination_by g.offPath path
  decreasing_by exact offPath_cons_lt hi hp

theorem Unfolds.unique {u : Value} (ht : Unfolds g path i t) (hu : Unfolds g path i u) : u = t := by
  induction ht generalizing u with
  | cut above =>
    cases hu with
    | cut => rfl
    | missing => rfl
    | node below => exact absurd above below
  | missing below absent =>
    cases hu with
    | cut => rfl
    | missing => rfl
    | node _ found =>
      rw [absent] at found
      cases found
  | node below found _ ih =>
    cases hu with
    | cut above => exact absurd above below
    | missing _ absent =>
      rw [absent] at found
      cases found
    | node _ found' each =>
      rw [found] at found'
      cases found'
      exact Node.filled_congr fun j hj => ih j hj (each j hj)

theorem UnfoldsWhole.unique {u : Value} (ht : UnfoldsWhole g i t) (hu : UnfoldsWhole g i u) : u = t := by
  induction ht generalizing u with
  | missing absent =>
    cases hu with
    | missing => rfl
    | node found =>
      rw [absent] at found
      cases found
  | node found _ ih =>
    cases hu with
    | missing absent =>
      rw [absent] at found
      cases found
    | node found' each =>
      rw [found] at found'
      cases found'
      exact Node.filled_congr fun j hj => ih j hj (each j hj)

/-- Nothing is cut if neither the node leads back to the path nor a node below it leads back to itself. -/
theorem Unfolds.whole (h : Unfolds g path i t) (hback : ∀ j ∈ path, ¬ ReflTransGen g.Refers i j)
    (hacyclic : ∀ j, ReflTransGen g.Refers i j → ¬ TransGen g.Refers j j) : UnfoldsWhole g i t := by
  induction h with
  | cut above => exact absurd .refl (hback _ above)
  | missing _ absent => exact .missing absent
  | @node path i node tree below found each ih =>
    refine .node found fun j hj => ih j hj (fun k hk hreach => ?_) fun k hreach => ?_
    · have hij : g.Refers i j := ⟨node, found, hj⟩
      rcases List.mem_cons.1 hk with rfl | hk
      · exact hacyclic k .refl (.head' hij hreach)
      · exact hback k hk (.head hij hreach)
    · exact hacyclic k (.head ⟨node, found, hj⟩ hreach)

/-! ### Visits -/

/-- The items after a reference find the path that the reference found. -/
theorem visitItems_node (g : Graph) (path : List Nat) (j : Nat) (rest : List Item) :
    (g.visitItems path (.node j :: rest)).1.1 = (g.visit path j).1.1 :: (g.visitItems path rest).1.1 := by
  have hsame : ∀ p, p = path → (g.visitItems p rest).1.1 = (g.visitItems path rest).1.1 := by
    rintro p rfl
    rfl
  rw [visitItems]
  exact congrArg _ (hsame _ (g.visit path j).2)

theorem visitItems_eq (g : Graph) (path : List Nat) (items : List Item) :
    (g.visitItems path items).1.1 = items.map (Item.filled fun j => (g.visit path j).1.1) := by
  induction items with
  | nil => rw [visitItems, List.map_nil]
  | cons item rest ih =>
    cases item with
    | value v =>
      rw [visitItems, List.map_cons, ← ih]
      rfl
    | node j =>
      rw [visitItems_node, List.map_cons, ← ih]
      rfl

theorem visit_of_mem (h : i ∈ path) : (g.visit path i).1.1 = .null := by
  rw [visit, dif_pos h]

theorem visit_of_missing (h : g.nodes[i]? = none) : (g.visit path i).1.1 = .null := by
  rw [visit, dif_neg (Nat.not_lt.2 (List.getElem?_eq_none_iff.1 h))]
  split <;> rfl

theorem visit_of_node {node : Node} (hp : i ∉ path) (h : g.nodes[i]? = some node) :
    (g.visit path i).1.1 = node.withItems (node.items.map (Item.filled fun j => (g.visit (i :: path) j).1.1)) := by
  obtain ⟨hi, rfl⟩ := List.getElem?_eq_some_iff.1 h
  rw [visit, dif_neg hp, dif_pos hi, ← visitItems_eq]

/-- A visit makes the tree that its node unfolds to, but for the order of keys, which the text does not show. -/
theorem Unfolds.canonical_visit (h : Unfolds g path i t) : (g.visit path i).1.1.canonical = t.canonical := by
  induction h with
  | cut above => rw [visit_of_mem above]
  | missing _ absent => rw [visit_of_missing absent]
  | node below found _ ih => rw [visit_of_node below found, Node.canonical_withItems ih]

/-- Whatever nodes a graph shares and whatever cycles it has, its first node unfolds to exactly one tree, and the text of
    the graph is the text of this tree: a reference is `null` if it leads to a node on the way to it, and is written out
    otherwise. Without cycles it is the tree in which nothing is cut. -/
theorem canonical_of_unfolding (g : Graph) : ∃ tree, Unfolds g [] 0 tree ∧ (∀ other, Unfolds g [] 0 other → other = tree) ∧
    g.canonical = tree.canonical ∧
    (g.Acyclic → UnfoldsWhole g 0 tree ∧ ∀ other, UnfoldsWhole g 0 other → other = tree) := by
  obtain ⟨tree, htree⟩ := exists_unfolds g [] 0
  refine ⟨tree, htree, fun other hother => htree.unique hother, htree.canonical_visit, fun hacyclic => ?_⟩
  have hwhole : UnfoldsWhole g 0 tree := htree.whole (by simp) hacyclic
  exact ⟨hwhole, fun other hother => hwhole.unique hother⟩

/-- Two nodes refer to a third one, which has no items. -/
def shared : Graph := ⟨[.map [("b", .node 1), ("a", .node 2)], .list [.node 2, .value (.int 1), .node 2], .list []]⟩

theorem canonical_of_unfolding_shared : shared.Acyclic ∧
    ∃ tree, UnfoldsWhole shared 0 tree ∧ tree.canonical = "\x7b\"a\":[],\"b\":[[],1,[]]\x7d".toList := by
  obtain ⟨tree, -, -, htext, hwhole⟩ := canonical_of_unfolding shared
  have hlater : ∀ i j, shared.Refers i j → i < j := by
    rintro i j ⟨node, hnode, hj⟩
    obtain ⟨hi, rfl⟩ := List.getElem?_eq_some_iff.1 hnode
    match i, hi with
    | 0, _ =>
      obtain ⟨key, hkey⟩ := hj
      simp at hkey
      omega
    | 1, _ =>
      simp [shared, Node.Refers] at hj
      omega
    | 2, _ => simp [shared, Node.Refers] at hj
  have hacyclic : shared.Acyclic := by
    intro i _ hi
    have hlt : ∀ j, TransGen shared.Refers i j → i < j := fun j hj => by
      induction hj with
      | single h => exact hlater _ _ h
      | tail _ h ih => exact ih.trans (hlater _ _ h)
    exact Nat.lt_irrefl i (hlt i hi)
  exact ⟨hacyclic, tree, (hwhole hacyclic).1, htext ▸ (by cbv)⟩

/-- A node is written out again after a reference to it was cut. -/
example : canonical ⟨[.list [.node 1, .node 0, .node 1], .list [.node 1]]⟩ = "[[null],null,[null]]".toList := by cbv

end Appraisal.Graph
