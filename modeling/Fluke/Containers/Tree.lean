import Fluke.Klib
import Fluke.Library.Outcome

/-!
# Intrusive trees

A node of a `Tree` knows its parent, its two children, the side of the parent that it hangs from
(`false` is left, `true` is right) and a random priority. Nodes are known by their addresses. The
two recursions of the source follow the links; their models get a bound on the depth, so that
they may be run on any links.
-/

namespace Fluke

open Outcome

variable {N : Type}

/-- `Tree::Node` -/
structure TreeNode (N : Type) where
  parent : Option N
  child : Bool → Option N
  priority : ℤ
  dir : Bool

/-- `Tree`, with all nodes there are -/
structure Tree (N : Type) where
  node : N → TreeNode N
  root : Option N

/-- What `memset` leaves of a node. -/
def TreeNode.zero : TreeNode N := ⟨none, fun _ => none, 0, false⟩

/-- `DIR_LEFT` -/
abbrev dirLeft : Bool := false
/-- `DIR_RIGHT` -/
abbrev dirRight : Bool := true

section

variable [DecidableEq N]

namespace Tree

/-- Overwrite a node. -/
def setNode (t : Tree N) (n : N) (node : TreeNode N) : Tree N :=
  { t with node := Function.update t.node n node }

/-- `n->parent = parent` -/
def setParent (t : Tree N) (n : N) (parent : Option N) : Tree N :=
  t.setNode n { t.node n with parent := parent }

/-- `n->dir = dir` -/
def setDir (t : Tree N) (n : N) (dir : Bool) : Tree N := t.setNode n { t.node n with dir := dir }

/-- `n->child[dir] = child` -/
def setChild (t : Tree N) (n : N) (dir : Bool) (child : Option N) : Tree N :=
  t.setNode n { t.node n with child := Function.update (t.node n).child dir child }

/-- `if (y) { y->parent = parent; y->dir = dir; }` -/
def hang (t : Tree N) (y : Option N) (parent : N) (dir : Bool) : Tree N :=
  match y with
  | some y => (t.setParent y (some parent)).setDir y dir
  | none => t

end Tree

/-- The links that `rotate_up` writes -/
def Tree.rotate (parent child : N) (tree : Tree N) : Tree N :=
  let dir := (tree.node child).dir
  let G := (tree.node parent).parent
  let tree := tree.setParent child G
  let tree := tree.setDir child (tree.node parent).dir
  let y := (tree.node child).child (!dir)
  let tree := tree.setChild parent dir y
  let tree := tree.hang y parent dir
  let tree := tree.setChild child (!dir) (some parent)
  let tree := tree.setParent parent (some child)
  let tree := tree.setDir parent (!dir)
  match G with
  | some G => tree.setChild G (tree.node child).dir (some child)
  | none => { tree with root := some child }

/-- `rotate_up` -/
def rotateUp : ℕ → N → N → Tree N → Except Panic (Tree N)
  | 0, _, _, _ => .error .outOfFuel
  | fuel + 1, parent, child, tree =>
    let G := (tree.node parent).parent
    let tree := tree.rotate parent child
    match G with
    | some G =>
      if (tree.node child).priority > (tree.node G).priority then rotateUp fuel G child tree
      else .ok tree
    | none => .ok tree

/-- `Tree::insert_root`; `priority` is what `rng` yields. -/
def Tree.insertRoot (node : N) (priority : ℤ) (tree : Tree N) : Except Panic (Tree N) := do
  assert (tree.root = none) .treeEmpty
  assert ((tree.node node).parent = none) .treeNodeFree
  let tree := { tree with root := some node }
  .ok (tree.setNode node
    { parent := none, child := fun _ => none, priority := priority, dir := dirLeft })

/-- `Tree::insert_at`; `priority` is what `rng` yields. -/
def Tree.insertAt (fuel : ℕ) (parent : Option N) (dir : Bool) (child : N) (priority : ℤ)
    (tree : Tree N) : Except Panic (Tree N) :=
  match parent with
  | none => tree.insertRoot child priority
  | some parent => do
    assert ((tree.node parent).child dir = none) .treeChildFree
    assert ((tree.node child).parent = none) .treeNodeFree
    let tree := tree.setChild parent dir (some child)
    let tree := tree.setNode child
      { parent := some parent, child := fun _ => none, priority := priority, dir := dir }
    if (tree.node child).priority > (tree.node parent).priority then
      rotateUp fuel parent child tree
    else .ok tree

/-- The two kinds of `parent_ptr`: to the root, or to a child of a node. -/
inductive TreePtr (N : Type) where
  | root
  | child (parent : N) (dir : Bool)

/-- `*parent_ptr` -/
def Tree.read (tree : Tree N) : TreePtr N → Option N
  | .root => tree.root
  | .child parent dir => (tree.node parent).child dir

/-- `*parent_ptr = n` -/
def Tree.write (tree : Tree N) (ptr : TreePtr N) (n : Option N) : Tree N :=
  match ptr with
  | .root => { tree with root := n }
  | .child parent dir => tree.setChild parent dir n

/-- A node takes the place of another one below the same parent. -/
def Tree.takePlace (tree : Tree N) (ptr : TreePtr N) (node C : N) : Tree N :=
  let tree := tree.write ptr (some C)
  let tree := tree.setParent C (tree.node node).parent
  tree.setDir C (tree.node node).dir

/-- The links that `tree_remove_at` writes before it goes down: the child `C`, which is
`node->child[!dir]`, comes up in the place of the node. -/
def Tree.rotateDown (parentPtr : TreePtr N) (node C : N) (dir : Bool) (tree : Tree N) : Tree N :=
  let y := (tree.node C).child dir
  let tree := tree.takePlace parentPtr node C
  let tree := tree.setChild C dir (some node)
  let tree := tree.setDir node dir
  let tree := tree.setParent node (some C)
  let tree := tree.setChild node (!dir) y
  tree.hang y node (!dir)

/-- `tree_remove_at` -/
def treeRemoveAt : ℕ → TreePtr N → N → Tree N → Except Panic (Tree N)
  | 0, _, _, _ => .error .outOfFuel
  | fuel + 1, parentPtr, node, tree => do
    assert (tree.read parentPtr = some node) .treeParentPointer
    match (tree.node node).child dirLeft, (tree.node node).child dirRight with
    | none, none => .ok (tree.write parentPtr none)
    | some left, none => .ok (tree.takePlace parentPtr node left)
    | none, some right => .ok (tree.takePlace parentPtr node right)
    | some left, some right =>
      let dir : Bool := (tree.node left).priority > (tree.node right).priority
      let C := if dir then left else right
      treeRemoveAt fuel (.child C dir) node (tree.rotateDown parentPtr node C dir)

/-- `Tree::remove` -/
def Tree.remove (fuel : ℕ) (node : N) (tree : Tree N) : Except Panic (Tree N) := do
  assert tree.root.isSome .treeNonempty
  let parentPtr := match (tree.node node).parent with
    | some parent => .child parent (tree.node node).dir
    | none => .root
  let tree ← treeRemoveAt fuel parentPtr node tree
  .ok (tree.setNode node .zero)

end

end Fluke
