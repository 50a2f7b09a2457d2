import Appraisal.Value.Canonical

/-! Values with sharing and cycles. A graph is a list of nodes; the items of a node are values or references to
    nodes. A visit of a node puts it on the path, makes the values of its items one after another, and takes it off
    the path again; a reference to a node on the path becomes `null`. There is one path, which every visit changes
    and gives back as it was. -/

namespace Appraisal

inductive Graph.Item where
  | value (v : Value)
  | node (index : Nat)
  deriving Inhabited

/-- A list or a mapping whose items may refer to nodes. -/
inductive Graph.Node where
  | list (items : List Graph.Item)
  | map (entries : List (String × Graph.Item))
  deriving Inhabited

namespace Graph.Node

/-- The items in the order in which they are visited: those of a mapping in ascending order of their keys. -/
def items : Node → List Item
  | list items => items
  | map entries => (Value.sortEntries entries).map Prod.snd

/-- The node with values in place of its items, which are in the order of `items`. -/
def withItems : Node → List Value → Value
  | list _, values => .list values
  | map entries, values => .map (((Value.sortEntries entries).map Prod.fst).zip values)

end Graph.Node

/-- Nodes, referred to by their index. -/
structure Graph where
  nodes : List Graph.Node

namespace Graph

/-- The nodes that are not on the path. -/
def offPath (g : Graph) (path : List Nat) : Nat := (List.range g.nodes.length).countP fun i => !path.contains i

theorem countP_lt_countP {α : Type} {p q : α → Bool} (hpq : ∀ x, p x = true → q x = true) {a : α} (hq : q a = true)
    (hp : p a = false) : ∀ {l : List α}, a ∈ l → l.countP p < l.countP q
  | [], h => nomatch h
  | x :: l, h => by
    have le : l.countP p ≤ l.countP q := List.countP_mono_left fun y _ => hpq y
    rcases List.mem_cons.1 h with rfl | h
    · simp only [List.countP_cons, hp, hq]
      exact Nat.lt_succ_of_le le
    · have lt := countP_lt_countP hpq hq hp h
      simp only [List.countP_cons]
      cases hx : p x with
      | false => exact Nat.lt_of_lt_of_le lt (Nat.le_add_right _ _)
      | true => rw [hpq x hx]; exact Nat.succ_lt_succ lt

theorem offPath_cons_lt {g : Graph} {path : List Nat} {i : Nat} (hi : i < g.nodes.length) (hp : i ∉ path) :
    g.offPath (i :: path) < g.offPath path :=
  countP_lt_countP (fun j hj => by simp_all) (a := i) (by simpa using hp) (by simp) (List.mem_range.2 hi)

/-- What was made on a path, and the path afterwards, which is the same. -/
abbrev Made (path : List Nat) (α : Type) : Type := { r : α × List Nat // r.2 = path }

mutual

/-- Visits node `i`. A node that does not exist becomes `null`. -/
def visit (g : Graph) (path : List Nat) (i : Nat) : Made path Value :=
  if hp : i ∈ path then ⟨(.null, path), rfl⟩
  else if hi : i < g.nodes.length then
    let below := g.visitItems (i :: path) g.nodes[i].items
    ⟨(g.nodes[i].withItems below.1.1, below.1.2.erase i), by rw [below.2, List.erase_cons_head]⟩
  else ⟨(.null, path), rfl⟩
  termination_by (g.offPath path, 0)
  decreasing_by exact Prod.Lex.left _ _ (offPath_cons_lt hi hp)

/-- The values of items, of which each finds the path as the one before has left it. -/
def visitItems (g : Graph) (path : List Nat) : List Item → Made path (List Value)
  | [] => ⟨([], path), rfl⟩
  | .value v :: rest =>
    let others := g.visitItems path rest
    ⟨(v :: others.1.1, others.1.2), others.2⟩
  | .node j :: rest =>
    let first := g.visit path j
    let others := g.visitItems first.1.2 rest
    ⟨(first.1.1 :: others.1.1, others.1.2), others.2.trans first.2⟩
  termination_by items => (g.offPath path, items.length)
  decreasing_by
    · exact Prod.Lex.right _ (Nat.lt_succ_self _)
    · exact Prod.Lex.right _ (Nat.succ_pos _)
    · rw [first.2]
      exact Prod.Lex.right _ (Nat.lt_succ_self _)

end

/-- The canonical text of what a visit of the first node makes. -/
def canonical (g : Graph) : List Char := (g.visit [] 0).1.1.canonical

end Graph
end Appraisal
