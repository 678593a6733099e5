import Fluke.Containers.Tree.Treap

/-!
# Runs of tree operations

Any sequence of insertions and removals, with any priorities, keeps the treap, and does to the
nodes from left to right what the same sequence does to a list.
-/

namespace Fluke

open Outcome BinTree

variable {N : Type}

/-! ### What the links of a treap are -/

/-- A node is reached from the root. -/
inductive Tree.Reached (t : Tree N) : N → Prop where
  | root {n : N} : t.root = some n → Reached t n
  | child {n c : N} {dir : Bool} : Reached t n → (t.node n).child dir = some c → Reached t c

/-- The links agree with each other, and priorities do not grow on the way down. -/
structure Tree.Consistent (t : Tree N) (nodes : List N) : Prop where
  root : ∀ n, t.root = some n → n ∈ nodes ∧ (t.node n).parent = none ∧ (t.node n).dir = dirLeft
  child : ∀ n ∈ nodes, ∀ dir c, (t.node n).child dir = some c →
    c ∈ nodes ∧ (t.node c).parent = some n ∧ (t.node c).dir = dir ∧ t.prio c ≤ t.prio n
  reached : ∀ n ∈ nodes, t.Reached n
  nodup : nodes.Nodup

lemma Holds.root {t : Tree N} {b : BinTree N} {parent : Option N} {dir : Bool} {n : N}
    (h : Holds t b parent dir) (hn : b.root = some n) :
    (t.node n).parent = parent ∧ (t.node n).dir = dir := by
  cases b with
  | nil => simp at hn
  | node l m r =>
    rw [root_node, Option.some.injEq] at hn
    subst hn
    exact ⟨h.1.1, h.1.2.1⟩

lemma Holds.reached {t : Tree N} {b : BinTree N} {parent : Option N} {dir : Bool}
    (h : Holds t b parent dir) (hroot : ∀ n, b.root = some n → t.Reached n) :
    ∀ n ∈ b.inorder, t.Reached n := by
  induction b generalizing parent dir with
  | nil => simp
  | node l m r ihl ihr =>
    obtain ⟨⟨-, -, hleft, hright⟩, hl, hr⟩ := h
    have hm : t.Reached m := hroot m (root_node l m r)
    intro n hn
    rw [inorder_node, List.mem_append, List.mem_cons] at hn
    rcases hn with hn | rfl | hn
    · exact ihl hl (fun c hc => hm.child (hleft.trans hc)) n hn
    · exact hm
    · exact ihr hr (fun c hc => hm.child (hright.trans hc)) n hn

lemma IsTreap.consistent {t : Tree N} {nodes : List N} (h : IsTreap t nodes) :
    t.Consistent nodes := by
  obtain ⟨b, hb, hheap, rfl⟩ := h
  refine ⟨fun n hn => ?_, fun n hn dir c hc => ?_, hb.links.reached fun n hn => ?_, hb.nodup⟩
  · rw [hb.root] at hn
    exact ⟨mem_inorder_of_root hn, hb.links.root hn⟩
  · obtain ⟨cs, l, r, rfl⟩ := exists_plug hn
    obtain ⟨inner, outer, hjoin⟩ := exists_join l n r dir
    rw [hjoin] at hb hheap ⊢
    obtain ⟨⟨-, -, hchild, -⟩, hinner, -⟩ := holds_join.mp hb.split.2.1
    rw [hc] at hchild
    obtain ⟨hparent, hdir⟩ := hinner.root hchild.symm
    refine ⟨(inorder_plug_perm _ _).mem_iff.mpr ?_, hparent, hdir, ?_⟩
    · refine List.mem_append_left _ ((inorder_join_perm _ _ _ _).mem_iff.mpr ?_)
      simp [mem_inorder_of_root hchild.symm]
    · exact (heap_join.mp (heap_plug.mp hheap).2.1).1.1 c hchild.symm
  · exact .root (hb.root.trans hn)

/-! ### Runs -/

/-- A call of one of the three functions, with the priority that `rng` yields in it -/
inductive TreeOp (N : Type) where
  | insertRoot (node : N) (priority : ℤ)
  | insertAt (parent : N) (dir : Bool) (node : N) (priority : ℤ)
  | remove (node : N)

/-- The node that is put in or taken out. -/
def TreeOp.node : TreeOp N → N
  | .insertRoot node _ => node
  | .insertAt _ _ node _ => node
  | .remove node => node

/-- What may be asked of a tree of these nodes. -/
def TreeOp.Admitted (t : Tree N) (nodes : List N) : TreeOp N → Prop
  | .insertRoot _ _ => nodes = []
  | .insertAt parent dir node _ =>
    parent ∈ nodes ∧ (t.node parent).child dir = none ∧ node ∉ nodes
  | .remove node => node ∈ nodes

section

variable [DecidableEq N]

/-- One call. -/
def Tree.step (fuel : ℕ) (tree : Tree N) : TreeOp N → Except Panic (Tree N)
  | .insertRoot node priority => tree.insertRoot node priority
  | .insertAt parent dir node priority => tree.insertAt fuel (some parent) dir node priority
  | .remove node => tree.remove fuel node

/-- Calls in order. -/
def Tree.run (fuel : ℕ) : List (TreeOp N) → Tree N → Except Panic (Tree N)
  | [], tree => .ok tree
  | op :: ops, tree => do
    let tree ← tree.step fuel op
    tree.run fuel ops

/-- The same call on the nodes from left to right. -/
def sequenceStep (nodes : List N) : TreeOp N → List N
  | .insertRoot n _ => [n]
  | .insertAt parent dir n _ => insertBeside dir parent n nodes
  | .remove n => nodes.erase n

/-- Calls in order on the nodes from left to right. -/
def sequenceRun (nodes : List N) (ops : List (TreeOp N)) : List N := ops.foldl sequenceStep nodes

/-- Every call of the run is admitted in the tree that it meets. -/
def AdmittedTreeRun (fuel : ℕ) : List (TreeOp N) → Tree N → List N → Prop
  | [], _, _ => True
  | op :: ops, t, nodes => op.Admitted t nodes ∧
      ∀ t', t.step fuel op = .ok t' → AdmittedTreeRun fuel ops t' (sequenceStep nodes op)

lemma length_insertBeside_le (dir : Bool) (p n : N) (nodes : List N) :
    (insertBeside dir p n nodes).length ≤ nodes.length + 1 := by
  induction nodes with
  | nil => simp [insertBeside]
  | cons m ms ih =>
    unfold insertBeside
    split_ifs <;> simp [ih]

lemma length_sequenceStep_le (nodes : List N) (op : TreeOp N) :
    (sequenceStep nodes op).length ≤ nodes.length + 1 := by
  cases op with
  | insertRoot n priority => simp [sequenceStep]
  | insertAt p dir n priority => exact length_insertBeside_le dir p n nodes
  | remove n => exact List.length_erase_le.trans (Nat.le_succ _)

/-- A node next to another one is in the list, and so are the others. -/
lemma mem_insertBeside {dir : Bool} {p n m : N} {nodes : List N} (hp : p ∈ nodes) :
    m ∈ insertBeside dir p n nodes ↔ m = n ∨ m ∈ nodes := by
  induction nodes with
  | nil => simp at hp
  | cons a nodes ih =>
    unfold insertBeside
    split_ifs with hap hdir
    · simp
      tauto
    · simp
    · rw [List.mem_cons, ih ((List.mem_cons.mp hp).resolve_left (Ne.symm hap)), List.mem_cons]
      tauto

lemma mem_sequenceStep {t : Tree N} {nodes : List N} {op : TreeOp N} {m : N}
    (hop : op.Admitted t nodes) (hm : m ∈ sequenceStep nodes op) : m = op.node ∨ m ∈ nodes := by
  cases op with
  | insertRoot n priority => exact .inl (List.mem_singleton.mp hm)
  | insertAt p dir n priority => exact (mem_insertBeside hop.1).mp hm
  | remove n => exact .inr (List.mem_of_mem_erase hm)

/-- The tree is a treap, and the other nodes have no parent. -/
structure TreeInv (t : Tree N) (nodes : List N) : Prop where
  treap : IsTreap t nodes
  outside : ∀ m, m ∉ nodes → (t.node m).parent = none

/-- What one call does. -/
lemma TreeInv.step {t : Tree N} {nodes : List N} {op : TreeOp N} {fuel : ℕ} (h : TreeInv t nodes)
    (hop : op.Admitted t nodes) (hfuel : nodes.length < fuel) :
    ∃ t', t.step fuel op = .ok t' ∧ TreeInv t' (sequenceStep nodes op) ∧
      ∀ m, m ∉ sequenceStep nodes op →
        if m = op.node then t'.node m = .zero else m ∉ nodes ∧ t'.node m = t.node m := by
  cases op with
  | insertRoot n priority =>
    obtain rfl : nodes = [] := hop
    obtain ⟨t', heq, htreap, hothers⟩ := @insertRoot_spec _ _ t n priority h.treap
      (h.outside n List.not_mem_nil)
    refine ⟨t', heq, ⟨htreap, fun m hm => ?_⟩, fun m hm => ?_⟩
    · rw [hothers m (by simpa [sequenceStep] using hm)]
      exact h.outside m List.not_mem_nil
    · have hmn : m ≠ n := by simpa [sequenceStep] using hm
      rw [TreeOp.node, if_neg hmn]
      exact ⟨List.not_mem_nil, hothers m hmn⟩
  | insertAt p dir n priority =>
    obtain ⟨hp, hchild, hn⟩ := hop
    obtain ⟨t', heq, htreap, hothers⟩ := @insertAt_spec _ _ t nodes p n dir priority fuel h.treap
      hfuel hp hchild hn (h.outside n hn)
    have hout : ∀ m, m ∉ insertBeside dir p n nodes → m ≠ n ∧ m ∉ nodes := fun m hm => by
      rwa [mem_insertBeside hp, not_or] at hm
    refine ⟨t', heq, ⟨htreap, fun m hm => ?_⟩, fun m hm => ?_⟩
    · rw [hothers m (hout m hm).1 (hout m hm).2]
      exact h.outside m (hout m hm).2
    · rw [TreeOp.node, if_neg (hout m hm).1]
      exact ⟨(hout m hm).2, hothers m (hout m hm).1 (hout m hm).2⟩
  | remove n =>
    have hnodup : nodes.Nodup := h.treap.consistent.nodup
    obtain ⟨t', heq, htreap, hzero, hothers⟩ := remove_spec h.treap hfuel hop
    have hout : ∀ m, m ∉ nodes.erase n → m ≠ n → m ∉ nodes := fun m hm hmn hmem =>
      hm ((List.mem_erase_of_ne hmn).mpr hmem)
    refine ⟨t', heq, ⟨htreap, fun m hm => ?_⟩, fun m hm => ?_⟩
    · by_cases hmn : m = n
      · rw [hmn, hzero]
        rfl
      · rw [hothers m hmn (hout m hm hmn)]
        exact h.outside m (hout m hm hmn)
    · by_cases hmn : m = n
      · rw [TreeOp.node, if_pos hmn, hmn]
        exact hzero
      · rw [TreeOp.node, if_neg hmn]
        exact ⟨hout m hm hmn, hothers m hmn (hout m hm hmn)⟩

lemma TreeInv.run {ops : List (TreeOp N)} {t : Tree N} {nodes : List N} {fuel : ℕ}
    (h : TreeInv t nodes) (hops : AdmittedTreeRun fuel ops t nodes)
    (hfuel : nodes.length + ops.length ≤ fuel) :
    ∃ t', t.run fuel ops = .ok t' ∧ TreeInv t' (sequenceRun nodes ops) ∧
      ∀ m, m ∉ sequenceRun nodes ops →
        (m ∈ nodes ∨ m ∈ ops.map TreeOp.node → t'.node m = .zero) ∧
        (m ∉ nodes → m ∉ ops.map TreeOp.node → t'.node m = t.node m) := by
  induction ops generalizing t nodes with
  | nil =>
    refine ⟨t, rfl, h, fun m hm => ⟨fun hor => ?_, fun _ _ => rfl⟩⟩
    exact absurd (hor.resolve_right (by simp)) hm
  | cons op ops ih =>
    rw [List.length_cons] at hfuel
    obtain ⟨t₁, hstep, h₁, hout₁⟩ := h.step hops.1 (by omega : nodes.length < fuel)
    have hlength := length_sequenceStep_le nodes op
    obtain ⟨t₂, hrun, h₂, hout₂⟩ := ih h₁ (hops.2 t₁ hstep) (by omega)
    refine ⟨t₂, ?_, h₂, fun m hm => ?_⟩
    · rw [Tree.run, hstep, ok_bind, hrun]
    · obtain ⟨hzero, hsame⟩ := hout₂ m hm
      by_cases hmem : m ∈ sequenceStep nodes op ∨ m ∈ ops.map TreeOp.node
      · refine ⟨fun _ => hzero hmem, fun hn hops' => ?_⟩
        rw [List.map_cons, List.mem_cons, not_or] at hops'
        rcases hmem with hmem | hmem
        · exact absurd (mem_sequenceStep hops.1 hmem) (not_or.mpr ⟨hops'.1, hn⟩)
        · exact absurd hmem hops'.2
      · rw [not_or] at hmem
        have hstep' := hout₁ m hmem.1
        rw [hsame hmem.1 hmem.2, List.map_cons, List.mem_cons]
        split_ifs at hstep' with hmop
        · exact ⟨fun _ => hstep', fun _ hne => absurd (Or.inl hmop) hne⟩
        · refine ⟨fun hor => ?_, fun _ _ => hstep'.2⟩
          rcases hor with hn | hop | hops'
          · exact absurd hn hstep'.1
          · exact absurd hop hmop
          · exact absurd hops' hmem.2

/-- Every run of admitted calls, whatever the priorities, ends without a failed assertion. Its tree
is a treap with consistent links, the nodes from left to right are those of the run on lists, and
what was taken out is zero. -/
theorem treap_operations {t : Tree N} (hroot : t.root = none)
    (hfree : ∀ n, (t.node n).parent = none) {ops : List (TreeOp N)} {fuel : ℕ}
    (hfuel : ops.length ≤ fuel) (hops : AdmittedTreeRun fuel ops t []) :
    ∃ t', t.run fuel ops = .ok t' ∧ IsTreap t' (sequenceRun [] ops) ∧
      t'.Consistent (sequenceRun [] ops) ∧
      ∀ n, n ∉ sequenceRun [] ops →
        t'.node n = if n ∈ ops.map TreeOp.node then .zero else t.node n := by
  have h : TreeInv t [] := ⟨⟨.nil, ⟨hroot, trivial, by simp⟩, trivial, rfl⟩, fun n _ => hfree n⟩
  obtain ⟨t', hrun, h', hout⟩ := h.run hops (by simpa using hfuel)
  refine ⟨t', hrun, h'.treap, h'.treap.consistent, fun n hn => ?_⟩
  obtain ⟨hzero, hsame⟩ := hout n hn
  split_ifs with hmem
  · exact hzero (.inr hmem)
  · exact hsame List.not_mem_nil hmem

end

/-- A tree and nodes that were never used. -/
def Tree.zero : Tree N := ⟨fun _ => .zero, none⟩

/-- A node comes above the root and the old root is taken out. -/
theorem treap_operations_three : ∃ t' : Tree ℕ,
    Tree.zero.run 3 [.insertRoot 1 5, .insertAt 1 dirLeft 2 9, .remove 1] = .ok t' ∧
      IsTreap t' [2] ∧ t'.node 1 = .zero := by
  have hops : AdmittedTreeRun 3 [.insertRoot 1 5, .insertAt 1 dirLeft 2 9, .remove 1]
      (Tree.zero : Tree ℕ) [] := by
    refine ⟨rfl, fun t₁ h₁ => ⟨⟨?_, ?_, ?_⟩, fun t₂ _ => ⟨?_, fun _ _ => trivial⟩⟩⟩
    · simp [sequenceStep]
    · obtain rfl := Except.ok.inj h₁
      rfl
    · simp [sequenceStep]
    · change 1 ∈ [2, 1]
      simp
  obtain ⟨t', hrun, htreap, -, hout⟩ := treap_operations rfl (fun _ => rfl) (by simp) hops
  exact ⟨t', hrun, htreap, hout 1 (by simp [sequenceRun, sequenceStep, insertBeside])⟩

end Fluke
