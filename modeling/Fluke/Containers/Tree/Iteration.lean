import Fluke.Containers.Tree.Runs

/-!
# Going through a tree

`Tree::begin` yields the leftmost node and `Tree::Node::next` the node behind a node: the leftmost
one below its right child, or else the first one above it that it does not lie to the right of. The
way up ends at the root, whose side is the left one.
-/

namespace Fluke

open Outcome

variable {N : Type}

/-- `leftmost` -/
def leftmost : ℕ → N → Tree N → Except Panic N
  | 0, _, _ => .error .outOfFuel
  | fuel + 1, node, tree =>
    match (tree.node node).child dirLeft with
    | some left => leftmost fuel left tree
    | none => .ok node

/-- `Tree::begin` -/
def Tree.begin (fuel : ℕ) (tree : Tree N) : Except Panic (Option N) :=
  match tree.root with
  | none => .ok none
  | some root => do
    let node ← leftmost fuel root tree
    .ok (some node)

/-- The loop of `Tree::Node::next` on the way up, and the node above where it stops. -/
def climb : ℕ → N → Tree N → Except Panic (Option N)
  | 0, _, _ => .error .outOfFuel
  | fuel + 1, n, tree =>
    if (tree.node n).dir = dirRight then
      match (tree.node n).parent with
      | none => .error .invalidPointer
      | some parent => climb fuel parent tree
    else .ok (tree.node n).parent

/-- `Tree::Node::next` -/
def Tree.next (fuel : ℕ) (node : N) (tree : Tree N) : Except Panic (Option N) :=
  match (tree.node node).child dirRight with
  | some right => do
    let next ← leftmost fuel right tree
    .ok (some next)
  | none => climb fuel node tree

/-- The nodes that are met from a node on, in at most `steps` steps, until there is none -/
def Tree.visit (fuel : ℕ) (tree : Tree N) : ℕ → Option N → Except Panic (List N)
  | _, none => .ok []
  | 0, some _ => .error .outOfFuel
  | steps + 1, some node => do
    let next ← tree.next fuel node
    let nodes ← tree.visit fuel steps next
    .ok (node :: nodes)

section

open BinTree

variable {t : Tree N} {b : BinTree N} {cs : List (Crumb N)} {parent : Option N} {dir : Bool}
  {fuel : ℕ}

/-- The leftmost node below a node -/
lemma Holds.leftmost (h : Holds t b parent dir) (hfuel : b.inorder.length ≤ fuel) {n : N}
    (hn : b.root = some n) :
    ∃ m, Fluke.leftmost fuel n t = .ok m ∧ b.inorder.head? = some m := by
  induction b generalizing parent dir fuel n with
  | nil => simp at hn
  | node l a r ihl ihr =>
    rw [root_node, Option.some.injEq] at hn
    subst hn
    obtain ⟨⟨-, -, hleft, -⟩, hl, -⟩ := h
    rw [inorder_node, List.length_append, List.length_cons] at hfuel
    obtain ⟨fuel, rfl⟩ : ∃ k, fuel = k + 1 := ⟨fuel - 1, by omega⟩
    rw [Fluke.leftmost, hleft]
    cases hroot : l.root with
    | none =>
      have hnil : l = .nil := by
        cases l with
        | nil => rfl
        | node _ _ _ => simp at hroot
      exact ⟨a, rfl, by simp [hnil]⟩
    | some left =>
      have hlength : l.inorder.length ≤ fuel := by omega
      obtain ⟨m, hm, hhead⟩ := ihl hl hlength hroot
      refine ⟨m, hm, ?_⟩
      rw [inorder_node, List.head?_append, hhead]
      rfl

/-- The way up ends below the first node to the right of the place. -/
lemma HoldsAround.climb (h : HoldsAround t cs (some n)) (hparent : (t.node n).parent = parentOf cs)
    (hdir : (t.node n).dir = dirOf cs) (hfuel : cs.length < fuel) :
    Fluke.climb fuel n t = .ok (rightOf cs).head? := by
  induction cs generalizing n fuel with
  | nil =>
    obtain ⟨fuel, rfl⟩ : ∃ k, fuel = k + 1 := ⟨fuel - 1, by omega⟩
    rw [Fluke.climb, hdir, hparent]
    rfl
  | cons c cs ih =>
    obtain ⟨fuel, rfl⟩ : ∃ k, fuel = k + 1 := ⟨fuel - 1, by omega⟩
    rw [List.length_cons] at hfuel
    obtain ⟨⟨hcparent, hcdir, -, -⟩, -, hcs⟩ := h
    rw [Fluke.climb, hdir, hparent, dirOf_cons, parentOf_cons]
    cases hc : c.dir with
    | false => simp [rightOf, hc]
    | true =>
      have hup := ih hcs hcparent hcdir (Nat.lt_of_succ_lt_succ hfuel)
      simpa [rightOf, hc] using hup

/-- The node behind a node -/
lemma TreeHolds.next {l r : BinTree N} {n : N} (h : TreeHolds t (plug cs (.node l n r)))
    (hfuel : (plug cs (.node l n r)).inorder.length ≤ fuel) :
    t.next fuel n = .ok (r.inorder ++ rightOf cs).head? := by
  obtain ⟨haround, ⟨⟨hparent, hdir, -, hright⟩, -, hr⟩, -⟩ := h.split
  have hlength := (inorder_plug_perm cs (.node l n r)).length_eq
  have hcs := length_le_length_around cs
  rw [inorder_node, List.length_append, List.length_append, List.length_cons] at hlength
  rw [Tree.next, hright]
  cases hroot : r.root with
  | none =>
    have hnil : r = .nil := by
      cases r with
      | nil => rfl
      | node _ _ _ => simp at hroot
    rw [hnil, inorder_nil, List.nil_append]
    exact haround.climb hparent hdir (by omega)
  | some right =>
    obtain ⟨m, hm, hhead⟩ := hr.leftmost (by omega : r.inorder.length ≤ fuel) hroot
    dsimp only
    rw [hm, List.head?_append, hhead]
    rfl

/-- The node behind a node, on the nodes from left to right -/
lemma TreeHolds.next_inorder (h : TreeHolds t b) (hfuel : b.inorder.length ≤ fuel)
    {before after : List N} {n : N} (hsplit : b.inorder = before ++ n :: after) :
    t.next fuel n = .ok after.head? := by
  have hn : n ∈ b.inorder := by
    rw [hsplit]
    simp
  obtain ⟨cs, l, r, rfl⟩ := exists_plug hn
  have hnodup := h.nodup
  rw [h.next hfuel]
  rw [inorder_plug_node] at hsplit hnodup
  have hsame : leftOf cs ++ l.inorder = before ∧ n = n ∧ r.inorder ++ rightOf cs = after := by
    rw [List.nodup_append, List.nodup_cons] at hnodup
    refine (List.append_cons_inj_of_notMem (fun hmem => ?_) hnodup.2.1.1).mp hsplit
    exact hnodup.2.2 n hmem n List.mem_cons_self rfl
  rw [hsame.2.2]

lemma TreeHolds.begin (h : TreeHolds t b) (hfuel : b.inorder.length ≤ fuel) :
    t.begin fuel = .ok b.inorder.head? := by
  rw [Tree.begin, h.root]
  cases hroot : b.root with
  | none =>
    cases b with
    | nil => rfl
    | node _ _ _ => simp at hroot
  | some root =>
    obtain ⟨m, hm, hhead⟩ := h.links.leftmost hfuel hroot
    dsimp only
    rw [hm, hhead]
    rfl

lemma TreeHolds.visit (h : TreeHolds t b) (hfuel : b.inorder.length ≤ fuel) {after : List N} :
    ∀ {before : List N} {steps : ℕ}, b.inorder = before ++ after → after.length ≤ steps →
      t.visit fuel steps after.head? = .ok after := by
  induction after with
  | nil =>
    intro before steps _ _
    cases steps <;> rfl
  | cons n after ih =>
    intro before steps hsplit hsteps
    rw [List.length_cons] at hsteps
    obtain ⟨steps, rfl⟩ : ∃ k, steps = k + 1 := ⟨steps - 1, by omega⟩
    have hrest : t.visit fuel steps after.head? = .ok after :=
      @ih (before ++ [n]) steps (by simpa using hsplit) (by omega)
    rw [List.head?_cons, Tree.visit, h.next_inorder hfuel hsplit, ok_bind, hrest]
    rfl

/-- Going through the whole tree -/
lemma TreeHolds.iteration_visit (h : TreeHolds t b) (hfuel : b.inorder.length ≤ fuel) :
    (do t.visit fuel fuel (← t.begin fuel)) = .ok b.inorder := by
  rw [h.begin hfuel, ok_bind]
  exact h.visit hfuel (List.nil_append _).symm hfuel

end

/-- Going through a tree meets every node once, from left to right, and ends there. No null pointer
is followed, and no loop is longer than the tree. -/
theorem TreeHolds.iteration {t : Tree N} {b : BinTree N} (h : TreeHolds t b) {fuel : ℕ}
    (hfuel : b.inorder.length ≤ fuel) :
    b.inorder.Nodup ∧ t.begin fuel = .ok b.inorder.head? ∧
      (∀ before n after, b.inorder = before ++ n :: after →
        t.next fuel n = .ok after.head?) ∧
      (do t.visit fuel fuel (← t.begin fuel)) = .ok b.inorder := by
  exact ⟨h.nodup, h.begin hfuel, fun _ _ _ hsplit => h.next_inorder hfuel hsplit,
    h.iteration_visit hfuel⟩

/-- Two nodes, with the root on the left -/
def twoNodes : Tree ℕ :=
  ⟨fun n => if n = 1 then ⟨none, fun dir => if dir then some 2 else none, 7, dirLeft⟩
    else if n = 2 then ⟨some 1, fun _ => none, 3, dirRight⟩ else .zero, some 1⟩

/-- Going through two nodes -/
theorem TreeHolds.iteration_two :
    [1, 2].Nodup ∧ twoNodes.begin 2 = .ok (some 1) ∧
      (∀ before n after, [1, 2] = before ++ n :: after → twoNodes.next 2 n = .ok after.head?) ∧
      (do twoNodes.visit 2 2 (← twoNodes.begin 2)) = .ok [1, 2] := by
  have h : TreeHolds twoNodes (.node .nil 1 (.node .nil 2 .nil)) := by
    refine ⟨by simp [twoNodes], ?_, by simp⟩
    simp [Holds, twoNodes]
  have hfuel : (BinTree.node .nil 1 (.node .nil 2 .nil)).inorder.length ≤ 2 := by simp
  simpa using TreeHolds.iteration h hfuel

end Fluke
