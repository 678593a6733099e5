import Fluke.Containers.Tree.Links

/-!
# The tree is a treap
-/

namespace Fluke

open Outcome BinTree

variable {N : Type}

/-- No priority changes, and no node that is not in the tree. -/
structure TreeFrame (b : BinTree N) (t t' : Tree N) : Prop where
  priority : ∀ m, (t'.node m).priority = (t.node m).priority
  others : ∀ m, m ∉ b.inorder → t'.node m = t.node m

lemma TreeFrame.trans {b b' : BinTree N} {t t' t'' : Tree N} (h : TreeFrame b t t')
    (h' : TreeFrame b' t' t'') (hb : b'.inorder = b.inorder) : TreeFrame b t t'' :=
  ⟨fun m => (h'.priority m).trans (h.priority m),
    fun m hm => (h'.others m (hb ▸ hm)).trans (h.others m hm)⟩

/-- The priorities of the nodes. -/
def Tree.prio (t : Tree N) (n : N) : ℤ := (t.node n).priority

lemma TreeFrame.prio_eq {b : BinTree N} {t t' : Tree N} (h : TreeFrame b t t') :
    t'.prio = t.prio := funext h.priority

/-- The nodes of a rotation and the parts around them, each once. -/
lemma TreeHolds.regions {t : Tree N} {P C : N} {dir : Bool} {inner outer sib : BinTree N}
    {cs : List (Crumb N)}
    (h : TreeHolds t (plug (⟨P, dir, sib⟩ :: cs) (join C (!dir) inner outer))) :
    (C :: (inner.inorder ++ outer.inorder) ++ P :: (sib.inorder ++ around cs)).Nodup :=
  ((inorder_join_perm C (!dir) inner outer).append_right _).nodup_iff.mp h.split.2.2

/-- The nodes that a rotation writes to are different ones. -/
structure RotationApart (P C : N) (dir : Bool) (t : Tree N) : Prop where
  ne : P ≠ C
  inner : (t.node C).child (!dir) ≠ some P ∧ (t.node C).child (!dir) ≠ some C
  above : (t.node P).parent ≠ some P ∧ (t.node P).parent ≠ some C
  apart : ∀ G, (t.node P).parent = some G → (t.node C).child (!dir) ≠ some G

lemma TreeHolds.rotationApart {t : Tree N} {c : Crumb N} {cs : List (Crumb N)} {C : N}
    {l r : BinTree N} (h : TreeHolds t (plug (c :: cs) (.node l C r))) :
    (t.node C).dir = c.dir ∧ RotationApart c.label C c.dir t := by
  obtain ⟨P, dir, sib⟩ := c
  obtain ⟨inner, outer, hjoin⟩ := exists_join l C r (!dir)
  rw [hjoin] at h
  have hapart := (List.nodup_append.mp h.regions).2.2
  have hleft := (List.nodup_append.mp h.regions).1
  have hright := (List.nodup_append.mp h.regions).2.1
  rw [List.nodup_cons, List.mem_append, not_or] at hleft hright
  obtain ⟨⟨⟨hPp, -⟩, -⟩, hC, -⟩ := h.split
  rw [parentOf_cons, dirOf_cons] at hC
  obtain ⟨⟨-, hCd, hCi, -⟩, -⟩ := holds_join.mp hC
  dsimp only at hPp hCd ⊢
  refine ⟨hCd, fun heq => hapart C (by simp) P (by simp) heq.symm, ⟨?_, ?_⟩, ⟨?_, ?_⟩,
    fun G hG => ?_⟩
  · rw [hCi]
    exact fun hm => hapart P (by simp [mem_inorder_of_root hm]) P (by simp) rfl
  · rw [hCi]
    exact fun hm => hleft.1.1 (mem_inorder_of_root hm)
  · rw [hPp]
    exact fun hm => hright.1.2 (mem_around_of_parentOf hm)
  · rw [hPp]
    exact fun hm => hapart C (by simp) C (by simp [mem_around_of_parentOf hm]) rfl
  · rw [hPp] at hG
    rw [hCi]
    exact fun hm => hapart G (by simp [mem_inorder_of_root hm]) G
      (by simp [mem_around_of_parentOf hG]) rfl

lemma inorder_plug_rotate (c : Crumb N) (cs : List (Crumb N)) (b : BinTree N) :
    (plug cs (BinTree.rotate c b)).inorder = (plug (c :: cs) b).inorder := by
  rw [plug_cons, inorder_plug, inorder_plug, BinTree.inorder_rotate]

variable [DecidableEq N]

namespace Tree

variable (t : Tree N) (n m : N)

@[simp] lemma setNode_node (node : TreeNode N) :
    (t.setNode n node).node m = if m = n then node else t.node m := by
  simp [setNode, Function.update_apply]

@[simp] lemma setNode_root (node : TreeNode N) : (t.setNode n node).root = t.root := rfl

@[simp] lemma setParent_node (p : Option N) :
    (t.setParent n p).node m = if m = n then { t.node m with parent := p } else t.node m := by
  unfold setParent
  rw [setNode_node]
  split_ifs with h
  · rw [h]
  · rfl

@[simp] lemma setParent_root (p : Option N) : (t.setParent n p).root = t.root := rfl

@[simp] lemma setDir_node (dir : Bool) :
    (t.setDir n dir).node m = if m = n then { t.node m with dir := dir } else t.node m := by
  unfold setDir
  rw [setNode_node]
  split_ifs with h
  · rw [h]
  · rfl

@[simp] lemma setDir_root (dir : Bool) : (t.setDir n dir).root = t.root := rfl

@[simp] lemma setChild_node (dir : Bool) (c : Option N) : (t.setChild n dir c).node m =
    if m = n then { t.node m with child := Function.update (t.node m).child dir c }
    else t.node m := by
  unfold setChild
  rw [setNode_node]
  split_ifs with h
  · rw [h]
  · rfl

@[simp] lemma setChild_root (dir : Bool) (c : Option N) : (t.setChild n dir c).root = t.root := rfl

@[simp] lemma hang_node (y : Option N) (dir : Bool) : (t.hang y n dir).node m =
    if y = some m then { t.node m with parent := some n, dir := dir } else t.node m := by
  unfold hang
  cases y with
  | none => simp
  | some y =>
    by_cases h : m = y
    · simp [h]
    · simp [h, Ne.symm h]

@[simp] lemma hang_root (y : Option N) (dir : Bool) : (t.hang y n dir).root = t.root := by
  unfold hang
  cases y <;> rfl

end Tree

/-! ### `rotate_up` -/

/-- What one rotation writes. -/
structure RotatedUp (P C : N) (dir : Bool) (t t' : Tree N) : Prop where
  child : t'.node C =
    { t.node C with
      parent := (t.node P).parent
      child := Function.update (t.node C).child (!dir) (some P)
      dir := (t.node P).dir }
  parent : t'.node P =
    { t.node P with
      parent := some C
      child := Function.update (t.node P).child dir ((t.node C).child (!dir))
      dir := !dir }
  inner : ∀ y, (t.node C).child (!dir) = some y →
    t'.node y = { t.node y with parent := some P, dir := dir }
  above : ∀ G, (t.node P).parent = some G → t'.node G =
    { t.node G with child := Function.update (t.node G).child (t.node P).dir (some C) }
  others : ∀ m, m ≠ C → m ≠ P → (t.node C).child (!dir) ≠ some m → (t.node P).parent ≠ some m →
    t'.node m = t.node m
  root : t'.root = if (t.node P).parent = none then some C else t.root

lemma Tree.rotate_spec {t : Tree N} {P C : N} {dir : Bool} (hdir : (t.node C).dir = dir)
    (h : RotationApart P C dir t) : RotatedUp P C dir t (t.rotate P C) := by
  obtain ⟨hne, ⟨hyP, hyC⟩, ⟨hGP, hGC⟩, hGy⟩ := h
  unfold Tree.rotate
  dsimp only
  rw [hdir]
  cases hG : (t.node P).parent with
  | none =>
    refine ⟨?_, ?_, fun y hy => ?_, fun G hG' => ?_, fun m h1 h2 h3 h4 => ?_, ?_⟩
    · simp [hne, Ne.symm hne, hyC, hG]
    · simp [hne, hyP]
    · have hy1 : y ≠ P := fun heq => hyP (heq ▸ hy)
      have hy2 : y ≠ C := fun heq => hyC (heq ▸ hy)
      simp [hy, hy1, hy2, hne]
    · rw [hG] at hG'
      cases hG'
    · simp [h1, h2, h3]
    · simp [hG]
  | some G =>
    have hGP' : G ≠ P := fun heq => hGP (heq ▸ hG)
    have hGC' : G ≠ C := fun heq => hGC (heq ▸ hG)
    have hGy' := hGy G hG
    refine ⟨?_, ?_, fun y hy => ?_, fun G' hG' => ?_, fun m h1 h2 h3 h4 => ?_, ?_⟩
    · simp [hne, Ne.symm hne, hyC, hG, Ne.symm hGC']
    · simp [hne, Ne.symm hne, hyP, hyC, Ne.symm hGP']
    · have hy1 : y ≠ P := fun heq => hyP (heq ▸ hy)
      have hy2 : y ≠ C := fun heq => hyC (heq ▸ hy)
      have hy3 : y ≠ G := fun heq => hGy' (heq ▸ hy)
      simp [hy, hy1, hy2, hy3, hne, Ne.symm hne]
    · rw [hG, Option.some.injEq] at hG'
      subst hG'
      simp [hGP', hGC', hGy', hne, Ne.symm hne, hyC]
    · rw [hG, ne_eq, Option.some.injEq] at h4
      simp [h1, h2, h3, Ne.symm h4]
    · simp [hG]

lemma RotatedUp.priority {P C : N} {dir : Bool} {t t' : Tree N} (h : RotatedUp P C dir t t')
    (m : N) : (t'.node m).priority = (t.node m).priority := by
  by_cases h1 : m = C
  · rw [h1, h.child]
  by_cases h2 : m = P
  · rw [h2, h.parent]
  by_cases h3 : (t.node C).child (!dir) = some m
  · rw [h.inner m h3]
  by_cases h4 : (t.node P).parent = some m
  · rw [h.above m h4]
  · rw [h.others m h1 h2 h3 h4]

/-- One rotation of the tree. -/
lemma TreeHolds.rotated {t t' : Tree N} {c : Crumb N} {cs : List (Crumb N)} {C : N}
    {l r : BinTree N} (h : TreeHolds t (plug (c :: cs) (.node l C r)))
    (hrot : RotatedUp c.label C c.dir t t') :
    TreeHolds t' (plug cs (rotate c (.node l C r))) ∧
      TreeFrame (plug (c :: cs) (.node l C r)) t t' := by
  obtain ⟨P, dir, sib⟩ := c
  obtain ⟨inner, outer, hjoin⟩ := exists_join l C r (!dir)
  rw [hjoin] at h ⊢
  obtain ⟨⟨⟨hPp, hPd, -, hPo⟩, hsib, haround⟩, hC, hnodup⟩ := h.split
  rw [parentOf_cons, dirOf_cons] at hC
  obtain ⟨⟨-, -, hCi, hCo⟩, hinner, houter⟩ := holds_join.mp hC
  dsimp only at hPp hPd hPo hsib haround hrot
  obtain ⟨hleft, hright, hapart⟩ := List.nodup_append.mp h.regions
  obtain ⟨hCleft, hio⟩ := List.nodup_cons.mp hleft
  obtain ⟨hPright, hsa⟩ := List.nodup_cons.mp hright
  rw [List.mem_append, not_or] at hCleft hPright
  obtain ⟨hinodup, honodup, hioapart⟩ := List.nodup_append.mp hio
  obtain ⟨hsnodup, hanodup, hsaapart⟩ := List.nodup_append.mp hsa
  have hPC : P ≠ C := fun heq => hapart C (by simp) P (by simp) heq.symm
  have hCright : C ∉ sib.inorder ∧ C ∉ around cs :=
    ⟨fun hm => hapart C (by simp) C (by simp [hm]) rfl,
      fun hm => hapart C (by simp) C (by simp [hm]) rfl⟩
  have hPleft : P ∉ inner.inorder ∧ P ∉ outer.inorder :=
    ⟨fun hm => hapart P (by simp [hm]) P (by simp) rfl,
      fun hm => hapart P (by simp [hm]) P (by simp) rfl⟩
  have hinner_root : ∀ m, inner.root = some m → m ∈ inner.inorder :=
    fun m hm => mem_inorder_of_root hm
  have habove : ∀ m, parentOf cs = some m → m ∈ around cs :=
    fun m hm => mem_around_of_parentOf hm
  have hothers : ∀ m, m ≠ C → m ≠ P → inner.root ≠ some m → parentOf cs ≠ some m →
      t'.node m = t.node m := fun m h1 h2 h3 h4 =>
    hrot.others m h1 h2 (by rwa [hCi]) (by rwa [hPp])
  have houter' : Holds t' outer (some C) (!!dir) := by
    refine houter.congr fun m hm => hothers m ?_ ?_ (fun hroot => ?_) fun hg => ?_
    · exact fun heq => hCleft.2 (heq ▸ hm)
    · exact fun heq => hPleft.2 (heq ▸ hm)
    · exact hioapart m (hinner_root m hroot) m hm rfl
    · exact hapart m (by simp [hm]) m (by simp [habove m hg]) rfl
  have hsib' : Holds t' sib (some P) (!dir) := by
    refine hsib.congr fun m hm => hothers m ?_ ?_ (fun hroot => ?_) fun hg => ?_
    · exact fun heq => hCright.1 (heq ▸ hm)
    · exact fun heq => hPright.1 (heq ▸ hm)
    · exact hapart m (by simp [hinner_root m hroot]) m (by simp [hm]) rfl
    · exact hsaapart m hm m (habove m hg) rfl
  have hinner' : Holds t' inner (some P) dir := by
    refine hinner.move hinodup (fun m hm => hrot.inner m (by rw [hCi, hm])) fun m hm hroot => ?_
    refine hothers m ?_ ?_ hroot fun hg => ?_
    · exact fun heq => hCleft.1 (heq ▸ hm)
    · exact fun heq => hPleft.1 (heq ▸ hm)
    · exact hapart m (by simp [hm]) m (by simp [habove m hg]) rfl
  have haround' : HoldsAround t' cs (some C) := by
    refine haround.replace hanodup ?_ (fun g hg => ?_) fun m hm hg => hothers m ?_ ?_ ?_ hg
    · rw [hrot.root, hPp]
      cases cs with
      | nil => rfl
      | cons c cs => rfl
    · rw [hrot.above g (by rw [hPp, hg]), hPd]
    · exact fun heq => hCright.2 (heq ▸ hm)
    · exact fun heq => hPright.2 (heq ▸ hm)
    · exact fun hroot => hapart m (by simp [hinner_root m hroot]) m (by simp [hm]) rfl
  refine ⟨?_, hrot.priority, fun m hm => ?_⟩
  · have hshape := BinTree.rotate_join ⟨P, dir, sib⟩ C inner outer
    dsimp only at hshape
    rw [hshape]
    refine TreeHolds.of_split (by rwa [root_join]) (holds_join.mpr ⟨?_,
      holds_join.mpr ⟨?_, hinner', hsib'⟩, houter'⟩) ?_
    · rw [hrot.child, root_join]
      refine ⟨hPp, hPd, Function.update_self _ _ _, ?_⟩
      rw [← hCo]
      exact Function.update_of_ne (by simp) _ _
    · rw [hrot.parent, hCi]
      refine ⟨rfl, rfl, Function.update_self _ _ _, ?_⟩
      rw [← hPo]
      exact Function.update_of_ne (by simp) _ _
    · rw [← hshape]
      have hperm := inorder_plug_perm cs (BinTree.rotate ⟨P, dir, sib⟩ (join C (!dir) inner outer))
      rw [← hperm.nodup_iff, inorder_plug, BinTree.inorder_rotate, ← inorder_plug]
      exact h.nodup
  · have hmem : m ∉ (C :: (inner.inorder ++ outer.inorder) ++ P :: (sib.inorder ++ around cs)) := by
      refine fun hmem => hm ((inorder_plug_perm _ _).mem_iff.mpr ?_)
      exact ((inorder_join_perm C (!dir) inner outer).append_right _).mem_iff.mpr hmem
    simp only [List.cons_append, List.mem_cons, List.mem_append, not_or] at hmem
    exact hothers m hmem.1 hmem.2.2.1 (fun hroot => hmem.2.1.1 (hinner_root m hroot))
      fun hg => hmem.2.2.2.2 (habove m hg)

/-- One rotation, and whether the next one follows. -/
lemma rotateUp_succ {cs : List (Crumb N)} {t : Tree N} {c : Crumb N} {C : N} {l r : BinTree N}
    (h : TreeHolds t (plug (c :: cs) (.node l C r))) (fuel : ℕ) :
    ∃ t', TreeHolds t' (plug cs (BinTree.rotate c (.node l C r))) ∧
      TreeFrame (plug (c :: cs) (.node l C r)) t t' ∧
      rotateUp (fuel + 1) c.label C t =
        match parentOf cs with
        | some G => if t.prio C > t.prio G then rotateUp fuel G C t' else .ok t'
        | none => .ok t' := by
  obtain ⟨hdir, hapart⟩ := h.rotationApart
  obtain ⟨hholds, hframe⟩ := h.rotated (Tree.rotate_spec hdir hapart)
  have hparent : (t.node c.label).parent = parentOf cs := h.split.1.1.1
  refine ⟨_, hholds, hframe, ?_⟩
  rw [rotateUp, hparent]
  cases parentOf cs with
  | none => rfl
  | some G =>
    dsimp only
    rw [hframe.priority C, hframe.priority G]
    rfl

lemma rotateUp_spec {cs : List (Crumb N)} {t : Tree N} {c : Crumb N} {C : N} {l r : BinTree N}
    {fuel : ℕ} (hfuel : cs.length < fuel) (h : TreeHolds t (plug (c :: cs) (.node l C r))) :
    ∃ t', rotateUp fuel c.label C t = .ok t' ∧
      TreeHolds t' (siftUp t.prio cs (BinTree.rotate c (.node l C r))) ∧
        TreeFrame (plug (c :: cs) (.node l C r)) t t' := by
  induction cs generalizing t c l r fuel with
  | nil =>
    obtain ⟨fuel, rfl⟩ : ∃ k, fuel = k + 1 := Nat.exists_eq_succ_of_ne_zero (by omega)
    obtain ⟨t₁, hholds, hframe, heq⟩ := rotateUp_succ h fuel
    exact ⟨t₁, heq, hholds, hframe⟩
  | cons g cs ih =>
    obtain ⟨fuel, rfl⟩ : ∃ k, fuel = k + 1 := Nat.exists_eq_succ_of_ne_zero (by omega)
    obtain ⟨t₁, hholds, hframe, heq⟩ := rotateUp_succ h fuel
    have hinorder := inorder_plug_rotate c (g :: cs) (.node l C r)
    obtain ⟨l', r', hrot⟩ := BinTree.rotate_node c l C r
    rw [hrot] at hholds hinorder ⊢
    rw [heq, siftUp, root_node, parentOf_cons]
    dsimp only
    split_ifs with hlt
    · have hfuel' : cs.length < fuel := by
        rw [List.length_cons] at hfuel
        omega
      obtain ⟨t₂, heq₂, hholds₂, hframe₂⟩ := ih hfuel' hholds
      rw [hframe.prio_eq] at hholds₂
      exact ⟨t₂, heq₂, hholds₂, hframe.trans hframe₂ hinorder⟩
    · exact ⟨t₁, rfl, hholds, hframe⟩

/-! ### `tree_remove_at` -/

/-- Coming up in the place of a node is a rotation. -/
lemma Tree.rotateDown_spec {t : Tree N} {cs : List (Crumb N)} {n C : N} {dir : Bool}
    {p : Option N} (haround : HoldsAround t cs p) (hparent : (t.node n).parent = parentOf cs)
    (hdir : (t.node n).dir = dirOf cs) (h : RotationApart n C (!dir) t) :
    RotatedUp n C (!dir) t (t.rotateDown (ptrOf cs) n C dir) := by
  obtain ⟨hne, ⟨hyP, hyC⟩, ⟨hGP, hGC⟩, hGy⟩ := h
  rw [Bool.not_not] at hyP hyC hGy
  unfold Tree.rotateDown Tree.takePlace
  dsimp only
  cases cs with
  | nil =>
    rw [ptrOf, Tree.write]
    refine ⟨?_, ?_, fun y hy => ?_, fun G hG' => ?_, fun m h1 h2 h3 h4 => ?_, ?_⟩
    · simp [hne, Ne.symm hne, hyC]
    · simp [hne, hyP]
    · rw [Bool.not_not] at hy
      have hy1 : y ≠ n := fun heq => hyP (heq ▸ hy)
      have hy2 : y ≠ C := fun heq => hyC (heq ▸ hy)
      simp [hy, hy1, hy2]
    · rw [hparent] at hG'
      cases hG'
    · rw [Bool.not_not] at h3
      simp [h1, h2, h3]
    · rw [hparent]
      simp [parentOf]
  | cons c cs =>
    rw [hparent, parentOf_cons, ne_eq, Option.some.injEq] at hGP hGC
    have hGy' := hGy c.label (by rw [hparent, parentOf_cons])
    rw [ptrOf, Tree.write]
    refine ⟨?_, ?_, fun y hy => ?_, fun G hG' => ?_, fun m h1 h2 h3 h4 => ?_, ?_⟩
    · simp [hne, Ne.symm hne, hyC, Ne.symm hGC, Ne.symm hGP]
    · simp [hne, hyP, Ne.symm hGP]
    · rw [Bool.not_not] at hy
      have hy1 : y ≠ n := fun heq => hyP (heq ▸ hy)
      have hy2 : y ≠ C := fun heq => hyC (heq ▸ hy)
      have hy3 : y ≠ c.label := fun heq => hGy' (heq ▸ hy)
      simp [hy, hy1, hy2, hy3]
    · rw [hparent, parentOf_cons, Option.some.injEq] at hG'
      subst hG'
      rw [hdir, dirOf_cons]
      simp [hGP, hGC, hGy']
    · rw [Bool.not_not] at h3
      rw [hparent, parentOf_cons, ne_eq, Option.some.injEq] at h4
      simp [h1, h2, h3, Ne.symm h4]
    · rw [hparent]
      simp

lemma Tree.write_node (t : Tree N) (cs : List (Crumb N)) (p : Option N) (m : N) :
    (t.write (ptrOf cs) p).node m =
      if parentOf cs = some m then
        { t.node m with child := Function.update (t.node m).child (dirOf cs) p }
      else t.node m := by
  cases cs with
  | nil => simp [ptrOf, Tree.write, parentOf]
  | cons c cs => simp [ptrOf, Tree.write, eq_comm]

lemma Tree.write_root (t : Tree N) (cs : List (Crumb N)) (p : Option N) :
    (t.write (ptrOf cs) p).root = if cs = [] then p else t.root := by
  cases cs with
  | nil => rfl
  | cons c cs => rfl

/-- A place is emptied. -/
lemma TreeHolds.write_none {t : Tree N} {cs : List (Crumb N)} {b : BinTree N}
    (h : TreeHolds t (plug cs b)) :
    TreeHolds (t.write (ptrOf cs) none) (plug cs .nil) ∧
      TreeFrame (plug cs b) t (t.write (ptrOf cs) none) := by
  obtain ⟨haround, -, hnodup⟩ := h.split
  have hanodup := (List.nodup_append.mp hnodup).2.1
  refine ⟨TreeHolds.of_split ?_ trivial (by simpa using hanodup), fun m => ?_, fun m hm => ?_⟩
  · rw [root_nil]
    refine haround.replace hanodup (Tree.write_root t cs none) (fun g hg => ?_) fun m _ hg => ?_
    · rw [Tree.write_node, if_pos hg]
    · rw [Tree.write_node, if_neg hg]
  · rw [Tree.write_node]
    split_ifs <;> rfl
  · rw [Tree.write_node, if_neg]
    intro hg
    refine hm ((inorder_plug_perm cs b).mem_iff.mpr ?_)
    exact List.mem_append_right _ (mem_around_of_parentOf hg)

/-- The only child of a node takes its place. -/
lemma TreeHolds.takePlace {t : Tree N} {cs : List (Crumb N)} {n C : N} {dir : Bool}
    {b : BinTree N} (h : TreeHolds t (plug cs (join n dir b .nil))) (hC : b.root = some C) :
    TreeHolds (t.takePlace (ptrOf cs) n C) (plug cs b) ∧
      TreeFrame (plug cs (join n dir b .nil)) t (t.takePlace (ptrOf cs) n C) := by
  obtain ⟨haround, hn, hnodup⟩ := h.split
  have hnodup' : (n :: (b.inorder ++ []) ++ around cs).Nodup :=
    ((inorder_join_perm n dir b .nil).append_right _).nodup_iff.mp hnodup
  rw [List.append_nil, List.cons_append, List.nodup_cons, List.mem_append, not_or,
    List.nodup_append] at hnodup'
  obtain ⟨⟨hnb, hna⟩, hbnodup, hanodup, hapart⟩ := hnodup'
  obtain ⟨⟨hparent, hdir, -⟩, hb, -⟩ := holds_join.mp hn
  have hCb : C ∈ b.inorder := mem_inorder_of_root hC
  have hnC : n ≠ C := fun heq => hnb (heq ▸ hCb)
  have hnode : ∀ m, (t.takePlace (ptrOf cs) n C).node m =
      if m = C then { (t.write (ptrOf cs) (some C)).node m with
        parent := parentOf cs, dir := dirOf cs }
      else (t.write (ptrOf cs) (some C)).node m := by
    have hn' : (t.write (ptrOf cs) (some C)).node n = t.node n := by
      rw [Tree.write_node, if_neg]
      exact fun hg => hna (mem_around_of_parentOf hg)
    intro m
    unfold Tree.takePlace
    simp only [Tree.setDir_node, Tree.setParent_node, if_neg hnC, hn', hparent, hdir]
    split_ifs <;> rfl
  have hCg : parentOf cs ≠ some C := fun hg =>
    hapart C hCb C (mem_around_of_parentOf hg) rfl
  refine ⟨TreeHolds.of_split ?_ ?_ ?_, fun m => ?_, fun m hm => ?_⟩
  · rw [hC]
    refine haround.replace hanodup (Tree.write_root t cs _) (fun g hg => ?_) fun m hm hg => ?_
    · rw [hnode, if_neg fun heq : g = C => hCg (heq ▸ hg), Tree.write_node, if_pos hg]
    · rw [hnode, if_neg fun heq => hapart C hCb m hm heq.symm, Tree.write_node, if_neg hg]
  · refine hb.move hbnodup (fun m hm => ?_) fun m hm hroot => ?_
    · obtain rfl : C = m := Option.some_injective _ (hC.symm.trans hm)
      rw [hnode, if_pos rfl, Tree.write_node, if_neg hCg]
    · rw [hnode, if_neg fun heq : m = C => hroot (heq ▸ hC), Tree.write_node, if_neg]
      exact fun hg => hapart m hm m (mem_around_of_parentOf hg) rfl
  · exact List.nodup_append.mpr ⟨hbnodup, hanodup, hapart⟩
  · rw [hnode, Tree.write_node]
    split_ifs <;> rfl
  · have hout : m ∉ (n :: (b.inorder ++ []) ++ around cs) := by
      refine fun hmem => hm ((inorder_plug_perm _ _).mem_iff.mpr ?_)
      exact ((inorder_join_perm n dir b .nil).append_right _).mem_iff.mpr hmem
    rw [List.append_nil, List.cons_append, List.mem_cons, List.mem_append, not_or, not_or] at hout
    rw [hnode, if_neg fun heq : m = C => hout.2.1 (heq ▸ hCb), Tree.write_node, if_neg]
    exact fun hg => hout.2.2 (mem_around_of_parentOf hg)

lemma treeRemoveAt_spec {fuel : ℕ} {t : Tree N} {cs : List (Crumb N)} {l r : BinTree N} {n : N}
    (hfuel : l.inorder.length + r.inorder.length < fuel)
    (h : TreeHolds t (plug cs (.node l n r))) :
    ∃ t', treeRemoveAt fuel (ptrOf cs) n t = .ok t' ∧
      TreeHolds t' (plug cs (merge t.prio l r)) ∧ TreeFrame (plug cs (.node l n r)) t t' := by
  induction fuel generalizing t cs l r with
  | zero => omega
  | succ fuel ih =>
    obtain ⟨haround, ⟨⟨hparent, hdir, hleft, hright⟩, -⟩, -⟩ := h.split
    have hread : t.read (ptrOf cs) = some n := haround.read
    unfold treeRemoveAt assert
    rw [hread, if_pos (decide_eq_true rfl), ok_bind, hleft, hright]
    cases l with
    | nil =>
      cases r with
      | nil =>
        obtain ⟨hholds, hframe⟩ := h.write_none
        exact ⟨_, rfl, by simpa using hholds, hframe⟩
      | node rl C rr =>
        obtain ⟨hholds, hframe⟩ :=
          @TreeHolds.takePlace _ _ t cs n C dirRight (.node rl C rr) h rfl
        exact ⟨_, rfl, by simpa using hholds, hframe⟩
    | node ll L lr =>
      cases r with
      | nil =>
        obtain ⟨hholds, hframe⟩ :=
          @TreeHolds.takePlace _ _ t cs n L dirLeft (.node ll L lr) h rfl
        exact ⟨_, rfl, by simpa using hholds, hframe⟩
      | node rl R rr =>
        rw [root_node, root_node, merge_node]
        dsimp only
        simp only [inorder_node, List.length_append, List.length_cons] at hfuel
        by_cases hlt : t.prio L > t.prio R
        · -- the left child comes up
          have hdir' : decide ((t.node L).priority > (t.node R).priority) = true :=
            decide_eq_true hlt
          have h' : TreeHolds t (plug (⟨n, dirLeft, .node rl R rr⟩ :: cs) (.node ll L lr)) := h
          have hrot : RotatedUp n L (!dirRight) t (t.rotateDown (ptrOf cs) n L dirRight) :=
            Tree.rotateDown_spec haround hparent hdir h'.rotationApart.2
          obtain ⟨hholds, hframe⟩ := h'.rotated hrot
          have hdown : TreeHolds _ (plug (⟨L, dirRight, ll⟩ :: cs) (.node lr n (.node rl R rr))) :=
            hholds
          obtain ⟨t', heq, hholds', hframe'⟩ := ih (by
            simp only [inorder_node, List.length_append, List.length_cons]
            omega) hdown
          rw [hframe.prio_eq] at hholds'
          rw [hdir', if_pos rfl, if_pos hlt]
          exact ⟨t', heq, hholds', hframe.trans hframe'
            (inorder_plug_rotate ⟨n, dirLeft, .node rl R rr⟩ cs (.node ll L lr))⟩
        · -- the right child comes up
          have hdir' : decide ((t.node L).priority > (t.node R).priority) = false :=
            decide_eq_false hlt
          have h' : TreeHolds t (plug (⟨n, dirRight, .node ll L lr⟩ :: cs) (.node rl R rr)) := h
          have hrot : RotatedUp n R (!dirLeft) t (t.rotateDown (ptrOf cs) n R dirLeft) :=
            Tree.rotateDown_spec haround hparent hdir h'.rotationApart.2
          obtain ⟨hholds, hframe⟩ := h'.rotated hrot
          have hdown : TreeHolds _ (plug (⟨R, dirLeft, rr⟩ :: cs) (.node (.node ll L lr) n rl)) :=
            hholds
          obtain ⟨t', heq, hholds', hframe'⟩ := ih (by
            simp only [inorder_node, List.length_append, List.length_cons]
            omega) hdown
          rw [hframe.prio_eq] at hholds'
          rw [hdir', if_neg Bool.false_ne_true, if_neg hlt]
          exact ⟨t', heq, hholds', hframe.trans hframe'
            (inorder_plug_rotate ⟨n, dirRight, .node ll L lr⟩ cs (.node rl R rr))⟩

/-! ### The operations -/

/-- The tree is a treap with these nodes from left to right. -/
def IsTreap (t : Tree N) (nodes : List N) : Prop :=
  ∃ b, TreeHolds t b ∧ Heap t.prio b ∧ b.inorder = nodes

lemma insertRoot_spec {t : Tree N} {n : N} {priority : ℤ} (h : IsTreap t [])
    (hn : (t.node n).parent = none) :
    ∃ t', t.insertRoot n priority = .ok t' ∧ IsTreap t' [n] ∧
      ∀ m, m ≠ n → t'.node m = t.node m := by
  obtain ⟨b, hb, -, hnil⟩ := h
  have hroot : t.root = none := by
    cases b with
    | nil => exact hb.root
    | node l a r => simp at hnil
  unfold Tree.insertRoot assert
  rw [if_pos (decide_eq_true hroot), ok_bind, if_pos (decide_eq_true hn), ok_bind]
  refine ⟨_, rfl, ⟨.node .nil n .nil, ⟨rfl, ?_, by simp⟩, ?_, by simp⟩, fun m hm => ?_⟩
  · simp [Holds]
  · simp [Heap, Below]
  · simp [hm]

/-- Put `n` next to `p`, in front of it or behind it. -/
def insertBeside (dir : Bool) (p n : N) : List N → List N
  | [] => []
  | m :: ms =>
    if m = p then if dir then m :: n :: ms else n :: m :: ms
    else m :: insertBeside dir p n ms

lemma insertBeside_append {dir : Bool} {p n : N} {a c : List N} (h : p ∉ a) :
    insertBeside dir p n (a ++ p :: c) = a ++ if dir then p :: n :: c else n :: p :: c := by
  induction a with
  | nil => simp [insertBeside]
  | cons m a ih =>
    rw [List.mem_cons, not_or] at h
    rw [List.cons_append, insertBeside, if_neg (Ne.symm h.1), ih h.2, List.cons_append]

/-- A node put in an empty place below `p` comes next to `p`. -/
lemma inorder_plug_insert {p n : N} {dir : Bool} {other : BinTree N} {cs : List (Crumb N)}
    (h : (plug (⟨p, dir, other⟩ :: cs) .nil).inorder.Nodup) :
    (plug (⟨p, dir, other⟩ :: cs) (.node .nil n .nil)).inorder =
      insertBeside dir p n (plug (⟨p, dir, other⟩ :: cs) .nil).inorder := by
  rw [inorder_plug] at h ⊢
  rw [inorder_plug]
  cases dir with
  | true =>
    simp only [leftOf, rightOf, inorder_nil, List.append_nil, if_true, List.nil_append] at h ⊢
    have heq : leftOf cs ++ (other.inorder ++ [p]) ++ rightOf cs =
        (leftOf cs ++ other.inorder) ++ p :: rightOf cs := by simp
    rw [heq] at h ⊢
    have hp : p ∉ leftOf cs ++ other.inorder := fun hm =>
      (List.nodup_append.mp h).2.2 p hm p (by simp) rfl
    rw [insertBeside_append hp]
    simp
  | false =>
    simp only [leftOf, rightOf, inorder_nil, List.append_nil, Bool.false_eq_true, if_false] at h ⊢
    have hp : p ∉ leftOf cs := fun hm => (List.nodup_append.mp h).2.2 p hm p (by simp) rfl
    rw [List.cons_append, insertBeside_append hp]
    simp

/-- A node is hung from an empty place. -/
lemma TreeHolds.hangNode {t : Tree N} {c : Crumb N} {cs : List (Crumb N)} {n : N} {priority : ℤ}
    (h : TreeHolds t (plug (c :: cs) .nil)) (hn : n ∉ (plug (c :: cs) .nil).inorder) :
    TreeHolds ((t.setChild c.label c.dir (some n)).setNode n ⟨some c.label, fun _ => none, priority,
      c.dir⟩) (plug (c :: cs) (.node .nil n .nil)) := by
  obtain ⟨haround, -, hnodup⟩ := h.split
  rw [inorder_nil, List.nil_append] at hnodup
  have hna : n ∉ around (c :: cs) := fun hmem => hn ((inorder_plug_perm _ _).mem_iff.mpr (by
    rwa [inorder_nil, List.nil_append]))
  have hne : c.label ≠ n := fun heq => hna (by simp [← heq])
  refine TreeHolds.of_split (haround.replace hnodup rfl (fun g hg => ?_) fun m hm hg => ?_) ?_ ?_
  · rw [parentOf_cons, Option.some.injEq] at hg
    subst hg
    simp [hne]
  · rw [parentOf_cons, ne_eq, Option.some.injEq] at hg
    have hmn : m ≠ n := fun heq => hna (heq ▸ hm)
    simp [hmn, Ne.symm hg]
  · simp [Holds]
  · simpa using ⟨by simpa using hna, by simpa using hnodup⟩

lemma insertAt_spec {t : Tree N} {nodes : List N} {p n : N} {dir : Bool} {priority : ℤ}
    {fuel : ℕ} (h : IsTreap t nodes) (hfuel : nodes.length < fuel) (hp : p ∈ nodes)
    (hchild : (t.node p).child dir = none) (hn : n ∉ nodes) (hparent : (t.node n).parent = none) :
    ∃ t', t.insertAt fuel (some p) dir n priority = .ok t' ∧
      IsTreap t' (insertBeside dir p n nodes) ∧
        ∀ m, m ≠ n → m ∉ nodes → t'.node m = t.node m := by
  obtain ⟨b, hb, hheap, rfl⟩ := h
  obtain ⟨cs, l, r, rfl⟩ := exists_plug hp
  obtain ⟨inner, outer, hjoin⟩ := exists_join l p r dir
  rw [hjoin] at hb hheap hfuel hn hp ⊢
  have hinner : inner = .nil := by
    obtain ⟨-, hroot, -⟩ := hb.split
    obtain ⟨⟨-, -, hinner, -⟩, -⟩ := holds_join.mp hroot
    rw [hchild] at hinner
    cases inner with
    | nil => rfl
    | node l' a r' => simp at hinner
  subst hinner
  have hplace : TreeHolds t (plug (⟨p, dir, outer⟩ :: cs) .nil) := hb
  have hheap' : Heap t.prio (plug (⟨p, dir, outer⟩ :: cs) .nil) := hheap
  have hn' : n ∉ (plug (⟨p, dir, outer⟩ :: cs) .nil).inorder := hn
  have hpn : p ≠ n := fun heq => hn (heq ▸ hp)
  have hhang := @TreeHolds.hangNode _ _ t ⟨p, dir, outer⟩ cs n priority hplace hn'
  unfold Tree.insertAt assert
  dsimp only
  rw [if_pos (decide_eq_true hchild), ok_bind, if_pos (decide_eq_true hparent), ok_bind]
  have hothers : ∀ m, m ≠ n → m ≠ p → ((t.setChild p dir (some n)).setNode n
      ⟨some p, fun _ => none, priority, dir⟩).node m = t.node m := by
    intro m hmn hmp
    simp [hmn, hmp]
  have hprio : ∀ m, m ≠ n → ((t.setChild p dir (some n)).setNode n
      ⟨some p, fun _ => none, priority, dir⟩).prio m = t.prio m := by
    intro m hmn
    by_cases hmp : m = p
    · simp [Tree.prio, hmp, hpn]
    · simp [Tree.prio, hmn, hmp]
  dsimp only at hhang
  generalize (t.setChild p dir (some n)).setNode n _ = t₁ at hhang hothers hprio ⊢
  have hinorder : (siftUp t₁.prio (⟨p, dir, outer⟩ :: cs) (.node .nil n .nil)).inorder =
      insertBeside dir p n (plug (⟨p, dir, outer⟩ :: cs) .nil).inorder := by
    rw [inorder_siftUp]
    exact inorder_plug_insert hplace.nodup
  have hsift : Heap t₁.prio (siftUp t₁.prio (⟨p, dir, outer⟩ :: cs) (.node .nil n .nil)) := by
    refine heap_siftUp (heap_plug.mp (hheap'.congr fun m hm => ?_)).1 ?_ ?_ ?_
    · exact hprio m fun heq => hn' (heq ▸ hm)
    · simp [Heap, Below]
    · simp
    · simp
  have hlength : cs.length < fuel := by
    have hperm := (inorder_plug_perm (⟨p, dir, outer⟩ :: cs) .nil).length_eq
    have hle := length_le_length_around (⟨p, dir, outer⟩ :: cs)
    rw [inorder_nil, List.nil_append] at hperm
    have hfuel' : (plug (⟨p, dir, outer⟩ :: cs) .nil).inorder.length < fuel := hfuel
    rw [List.length_cons] at hle
    omega
  have hkept : ∀ m, m ≠ n → m ∉ (plug cs (join p dir .nil outer)).inorder →
      t₁.node m = t.node m := fun m hmn hm => hothers m hmn fun heq => hm (heq ▸ hp)
  have hmem : ∀ m, m ≠ n → m ∉ (plug cs (join p dir .nil outer)).inorder →
      m ∉ (plug (⟨p, dir, outer⟩ :: cs) (.node .nil n .nil)).inorder := by
    intro m hmn hm hmem
    refine hm ((inorder_plug_perm (⟨p, dir, outer⟩ :: cs) .nil).mem_iff.mpr ?_)
    have hcases := (inorder_plug_perm _ _).mem_iff.mp hmem
    simpa [hmn] using hcases
  by_cases hlt : t₁.prio n > t₁.prio p
  · obtain ⟨t', heq, hholds, hframe⟩ := rotateUp_spec hlength hhang
    have hshape : siftUp t₁.prio (⟨p, dir, outer⟩ :: cs) (.node .nil n .nil) =
        siftUp t₁.prio cs (BinTree.rotate ⟨p, dir, outer⟩ (.node .nil n .nil)) := by
      rw [siftUp, root_node]
      exact if_pos hlt
    rw [hshape] at hinorder hsift
    refine ⟨t', ?_, ⟨_, hholds, hframe.prio_eq ▸ hsift, hinorder⟩, fun m hmn hm => ?_⟩
    · rw [← heq]
      exact if_pos hlt
    · rw [hframe.others m (hmem m hmn hm), hkept m hmn hm]
  · have hshape : siftUp t₁.prio (⟨p, dir, outer⟩ :: cs) (.node .nil n .nil) =
        plug (⟨p, dir, outer⟩ :: cs) (.node .nil n .nil) := by
      rw [siftUp, root_node]
      exact if_neg hlt
    rw [hshape] at hinorder hsift
    exact ⟨t₁, if_neg hlt, ⟨_, hhang, hsift, hinorder⟩, hkept⟩

lemma remove_spec {t : Tree N} {nodes : List N} {n : N} {fuel : ℕ} (h : IsTreap t nodes)
    (hfuel : nodes.length < fuel) (hn : n ∈ nodes) :
    ∃ t', t.remove fuel n = .ok t' ∧ IsTreap t' (nodes.erase n) ∧ t'.node n = .zero ∧
      ∀ m, m ≠ n → m ∉ nodes → t'.node m = t.node m := by
  obtain ⟨b, hb, hheap, rfl⟩ := h
  obtain ⟨cs, l, r, rfl⟩ := exists_plug hn
  obtain ⟨-, ⟨⟨hparent, hdir, -⟩, -⟩, -⟩ := hb.split
  have hroot : t.root.isSome := by
    rw [hb.root]
    cases hroot : (plug cs (.node l n r)).root with
    | some m => rfl
    | none =>
      cases hplug : plug cs (.node l n r) with
      | nil => simp [hplug] at hn
      | node l' a r' => simp [hplug] at hroot
  have hremove : t.remove fuel n =
      treeRemoveAt fuel (ptrOf cs) n t >>= fun tree => .ok (tree.setNode n .zero) := by
    unfold Tree.remove assert
    rw [if_pos hroot, ok_bind, hparent, hdir]
    cases cs <;> rfl
  have hlength : l.inorder.length + r.inorder.length < fuel := by
    have hperm := (inorder_plug_perm cs (.node l n r)).length_eq
    simp only [List.length_append, inorder_node, List.length_cons] at hperm
    omega
  obtain ⟨t₁, heq, hholds, hframe⟩ := treeRemoveAt_spec hlength hb
  -- the order of the labels
  have hinorder : (plug cs (merge t.prio l r)).inorder =
      (plug cs (.node l n r)).inorder.erase n := by
    have hnodup := hb.nodup
    rw [inorder_plug_node] at hnodup ⊢
    have hleft : n ∉ leftOf cs ++ l.inorder := fun hm =>
      (List.nodup_append.mp hnodup).2.2 n hm n (by simp) rfl
    rw [inorder_plug, inorder_merge, List.erase_append_right _ hleft, List.erase_cons_head]
    simp
  -- the order of the priorities
  have hheap' : Heap t.prio (plug cs (merge t.prio l r)) := by
    obtain ⟨haround, ⟨⟨hbl, hbr⟩, hl, hr⟩, hfits⟩ := heap_plug.mp hheap
    obtain ⟨hmerge, hbelow⟩ := heap_merge hl hr
    refine heap_plug.mpr ⟨haround, hmerge, fun a ha => (hfits n (root_node l n r)).of_le ?_⟩
    exact hbelow _ hbl hbr a ha
  have hgone : n ∉ (plug cs (merge t.prio l r)).inorder := by
    rw [hinorder]
    exact hb.nodup.not_mem_erase
  have hsame : ∀ m ∈ (plug cs (merge t.prio l r)).inorder,
      (t₁.setNode n .zero).node m = t₁.node m := by
    intro m hm
    rw [Tree.setNode_node, if_neg fun hmn : m = n => hgone (hmn ▸ hm)]
  refine ⟨t₁.setNode n .zero, ?_, ⟨_, ?_, hheap'.congr fun m hm => ?_, hinorder⟩, ?_, ?_⟩
  · rw [hremove, heq, ok_bind]
  · exact ⟨hholds.root, hholds.links.congr hsame, hholds.nodup⟩
  · rw [Tree.prio, hsame m hm]
    exact hframe.priority m
  · simp
  · intro m hmn hm
    rw [Tree.setNode_node, if_neg hmn]
    exact hframe.others m hm

end Fluke
