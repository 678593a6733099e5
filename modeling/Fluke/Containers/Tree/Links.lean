import Fluke.Containers.Tree
import Fluke.Library.Treap

/-!
# The links of a tree

`Holds` says that the links of the nodes describe a binary tree, `HoldsAround` that they describe
what lies around a place of a tree. A write to a node at the border of a place changes the one and
not the other, so that the two functions of the source that rotate nodes can be followed place by
place.
-/

namespace Fluke

open BinTree

variable {N : Type}

/-- The links describe the tree, whose root hangs from `parent` on the side `dir`. -/
def Holds (t : Tree N) : BinTree N → Option N → Bool → Prop
  | .nil, _, _ => True
  | .node l n r, parent, dir =>
    ((t.node n).parent = parent ∧ (t.node n).dir = dir ∧
      (t.node n).child dirLeft = l.root ∧ (t.node n).child dirRight = r.root) ∧
    Holds t l (some n) dirLeft ∧ Holds t r (some n) dirRight

/-- The node that a place hangs from. -/
def parentOf : List (Crumb N) → Option N
  | [] => none
  | c :: _ => some c.label

lemma mem_around_of_parentOf {cs : List (Crumb N)} {m : N} (h : parentOf cs = some m) :
    m ∈ around cs := by
  cases cs with
  | nil => cases h
  | cons c cs =>
    rw [parentOf, Option.some.injEq] at h
    simp [h]

/-- The side that a place hangs from. -/
def dirOf : List (Crumb N) → Bool
  | [] => dirLeft
  | c :: _ => c.dir

@[simp] lemma parentOf_cons (c : Crumb N) (cs : List (Crumb N)) :
    parentOf (c :: cs) = some c.label := rfl

@[simp] lemma dirOf_cons (c : Crumb N) (cs : List (Crumb N)) : dirOf (c :: cs) = c.dir := rfl

/-- The pointer to a place. -/
def ptrOf : List (Crumb N) → TreePtr N
  | [] => .root
  | c :: _ => .child c.label c.dir

/-- The links around a place describe the tree; those to the place lead to `p`. -/
def HoldsAround (t : Tree N) : List (Crumb N) → Option N → Prop
  | [], p => t.root = p
  | c :: cs, p =>
    ((t.node c.label).parent = parentOf cs ∧ (t.node c.label).dir = dirOf cs ∧
      (t.node c.label).child c.dir = p ∧ (t.node c.label).child (!c.dir) = c.other.root) ∧
    Holds t c.other (some c.label) (!c.dir) ∧ HoldsAround t cs (some c.label)

/-- The whole tree. -/
structure TreeHolds (t : Tree N) (b : BinTree N) : Prop where
  root : t.root = b.root
  links : Holds t b none dirLeft
  nodup : b.inorder.Nodup

section

variable {t t' : Tree N} {b l r : BinTree N} {cs : List (Crumb N)} {c : Crumb N}
  {parent parent' p p' : Option N} {dir dir' : Bool}

lemma holds_join {n : N} {inner outer : BinTree N} :
    Holds t (join n dir inner outer) parent dir' ↔
      ((t.node n).parent = parent ∧ (t.node n).dir = dir' ∧
        (t.node n).child dir = inner.root ∧ (t.node n).child (!dir) = outer.root) ∧
      Holds t inner (some n) dir ∧ Holds t outer (some n) (!dir) := by
  cases dir with
  | false =>
    rw [join_false, Holds]
    exact Iff.rfl
  | true =>
    rw [join_true, Holds]
    exact ⟨fun ⟨⟨h1, h2, h3, h4⟩, h5, h6⟩ => ⟨⟨h1, h2, h4, h3⟩, h6, h5⟩,
      fun ⟨⟨h1, h2, h3, h4⟩, h5, h6⟩ => ⟨⟨h1, h2, h4, h3⟩, h6, h5⟩⟩

/-- A tree holds if a part of it does and what lies around it does. -/
lemma holds_plug :
    (t.root = (plug cs b).root ∧ Holds t (plug cs b) none dirLeft) ↔
      HoldsAround t cs b.root ∧ Holds t b (parentOf cs) (dirOf cs) := by
  induction cs generalizing b with
  | nil => rfl
  | cons c cs ih =>
    rw [plug_cons, ih, root_join, holds_join, HoldsAround, parentOf, dirOf]
    tauto

/-- The links of other nodes do not matter. -/
lemma Holds.congr (h : Holds t b parent dir) (hsame : ∀ m ∈ b.inorder, t'.node m = t.node m) :
    Holds t' b parent dir := by
  induction b generalizing parent dir with
  | nil => trivial
  | node l n r ihl ihr =>
    obtain ⟨hn, hl, hr⟩ := h
    refine ⟨?_, ihl hl fun m hm => hsame m (by simp [hm]),
      ihr hr fun m hm => hsame m (by simp [hm])⟩
    rw [hsame n (by simp)]
    exact hn

/-- The root of the tree is hung elsewhere. -/
lemma Holds.move (h : Holds t b parent dir) (hnodup : b.inorder.Nodup)
    (hroot : ∀ m, b.root = some m →
      t'.node m = { t.node m with parent := parent', dir := dir' })
    (hsame : ∀ m ∈ b.inorder, b.root ≠ some m → t'.node m = t.node m) :
    Holds t' b parent' dir' := by
  cases b with
  | nil => trivial
  | node l n r =>
    obtain ⟨⟨-, -, hchildren⟩, hl, hr⟩ := h
    rw [inorder_node, List.nodup_append, List.nodup_cons] at hnodup
    obtain ⟨-, ⟨hnr, -⟩, hapart⟩ := hnodup
    refine ⟨?_, hl.congr fun m hm => hsame m (by simp [hm]) ?_,
      hr.congr fun m hm => hsame m (by simp [hm]) ?_⟩
    · rw [hroot n (root_node l n r)]
      exact ⟨rfl, rfl, hchildren⟩
    · rw [root_node, ne_eq, Option.some.injEq]
      exact fun heq => hapart m hm n (by simp) heq.symm
    · rw [root_node, ne_eq, Option.some.injEq]
      exact fun heq => hnr (heq ▸ hm)

lemma HoldsAround.congr (h : HoldsAround t cs p) (hroot : t'.root = t.root)
    (hsame : ∀ m ∈ around cs, t'.node m = t.node m) : HoldsAround t' cs p := by
  induction cs generalizing p with
  | nil => exact hroot.trans h
  | cons c cs ih =>
    obtain ⟨hc, hother, hcs⟩ := h
    refine ⟨?_, hother.congr fun m hm => hsame m (by simp [hm]),
      ih hcs fun m hm => hsame m (by simp [hm])⟩
    rw [hsame c.label (by simp)]
    exact hc

/-- Another node is put at the place. -/
lemma HoldsAround.replace (h : HoldsAround t cs p) (hnodup : (around cs).Nodup)
    (hroot : t'.root = if cs = [] then p' else t.root)
    (hparent : ∀ g, parentOf cs = some g → t'.node g =
      { t.node g with child := Function.update (t.node g).child (dirOf cs) p' })
    (hsame : ∀ m ∈ around cs, parentOf cs ≠ some m → t'.node m = t.node m) :
    HoldsAround t' cs p' := by
  cases cs with
  | nil => exact hroot
  | cons c cs =>
    obtain ⟨⟨hp, hd, -, ho⟩, hother, hcs⟩ := h
    rw [around_cons, List.nodup_cons, List.mem_append, not_or] at hnodup
    rw [if_neg (List.cons_ne_nil c cs)] at hroot
    have hfar : ∀ m ∈ c.other.inorder ++ around cs, parentOf (c :: cs) ≠ some m := by
      rintro m hm heq
      rw [parentOf, Option.some.injEq] at heq
      subst heq
      exact (List.mem_append.mp hm).elim hnodup.1.1 hnodup.1.2
    refine ⟨?_, hother.congr fun m hm => hsame m (by simp [hm]) (hfar m (by simp [hm])),
      hcs.congr hroot fun m hm => hsame m (by simp [hm]) (hfar m (by simp [hm]))⟩
    rw [hparent c.label rfl]
    refine ⟨hp, hd, by simp [dirOf], ?_⟩
    rw [dirOf, ← ho]
    exact Function.update_of_ne (by simp) _ _

lemma HoldsAround.read (h : HoldsAround t cs p) : t.read (ptrOf cs) = p := by
  cases cs with
  | nil => exact h
  | cons c cs => exact h.1.2.2.1

lemma TreeHolds.split (h : TreeHolds t (plug cs b)) :
    HoldsAround t cs b.root ∧ Holds t b (parentOf cs) (dirOf cs) ∧
      (b.inorder ++ around cs).Nodup := by
  obtain ⟨haround, hb⟩ := holds_plug.mp ⟨h.root, h.links⟩
  exact ⟨haround, hb, (inorder_plug_perm cs b).nodup_iff.mp h.nodup⟩

lemma TreeHolds.of_split (haround : HoldsAround t cs b.root)
    (hb : Holds t b (parentOf cs) (dirOf cs)) (hnodup : (b.inorder ++ around cs).Nodup) :
    TreeHolds t (plug cs b) := by
  obtain ⟨hroot, hlinks⟩ := holds_plug.mpr ⟨haround, hb⟩
  exact ⟨hroot, hlinks, (inorder_plug_perm cs b).nodup_iff.mpr hnodup⟩

end

end Fluke
