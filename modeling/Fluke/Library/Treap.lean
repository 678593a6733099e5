import Mathlib.Tactic

/-!
# Treaps

Binary trees whose labels have priorities. A place in a tree is a context: the labels on the way
up, each with the side that was taken and the tree on the other side (`Crumb`). `plug` fills the
place.

`siftUp` rotates the label of a place up until the label above it has no smaller priority;
`merge` is what becomes of the two subtrees of a label that is rotated down and taken away. Both
keep the order of the labels from left to right, and both restore the order of the priorities.
-/

/-- Binary trees with labels. -/
inductive BinTree (α : Type*) where
  | nil : BinTree α
  | node : BinTree α → α → BinTree α → BinTree α

namespace BinTree

variable {α : Type*}

/-- The labels from left to right. -/
def inorder : BinTree α → List α
  | nil => []
  | node l a r => l.inorder ++ a :: r.inorder

/-- The label of the root. -/
def root : BinTree α → Option α
  | nil => none
  | node _ a _ => some a

@[simp] lemma inorder_nil : (nil : BinTree α).inorder = [] := by simp [inorder]

@[simp] lemma inorder_node (l : BinTree α) (a : α) (r : BinTree α) :
    (node l a r).inorder = l.inorder ++ a :: r.inorder := by simp [inorder]

@[simp] lemma root_nil : (nil : BinTree α).root = none := by simp [root]

@[simp] lemma root_node (l : BinTree α) (a : α) (r : BinTree α) :
    (node l a r).root = some a := by simp [root]

lemma mem_inorder_of_root {t : BinTree α} {a : α} (h : t.root = some a) : a ∈ t.inorder := by
  cases t with
  | nil => simp at h
  | node l b r =>
    rw [root_node, Option.some.injEq] at h
    simp [h]

/-- A tree with a subtree at a side of the root; `true` is the right side. -/
def join (a : α) (dir : Bool) (inner outer : BinTree α) : BinTree α :=
  if dir then node outer a inner else node inner a outer

@[simp] lemma join_true (a : α) (inner outer : BinTree α) :
    join a true inner outer = node outer a inner := rfl

@[simp] lemma join_false (a : α) (inner outer : BinTree α) :
    join a false inner outer = node inner a outer := rfl

@[simp] lemma root_join (a : α) (dir : Bool) (inner outer : BinTree α) :
    (join a dir inner outer).root = some a := by
  cases dir <;> simp

lemma exists_join (l : BinTree α) (a : α) (r : BinTree α) (dir : Bool) :
    ∃ inner outer, node l a r = join a dir inner outer := by
  cases dir with
  | true => exact ⟨r, l, rfl⟩
  | false => exact ⟨l, r, rfl⟩

lemma inorder_join_perm (a : α) (dir : Bool) (inner outer : BinTree α) :
    (join a dir inner outer).inorder.Perm (a :: (inner.inorder ++ outer.inorder)) := by
  cases dir with
  | true =>
    rw [join_true, inorder_node]
    exact List.perm_middle.trans (List.perm_append_comm.cons a)
  | false =>
    rw [join_false, inorder_node]
    exact List.perm_middle

/-! ### Places in a tree -/

/-- One step of the way to a place: the label above, the side, and the tree on the other side. -/
structure Crumb (α : Type*) where
  label : α
  dir : Bool
  other : BinTree α

/-- The tree with `t` at the place. -/
def plug : List (Crumb α) → BinTree α → BinTree α
  | [], t => t
  | c :: cs, t => plug cs (join c.label c.dir t c.other)

@[simp] lemma plug_nil (t : BinTree α) : plug [] t = t := rfl

@[simp] lemma plug_cons (c : Crumb α) (cs : List (Crumb α)) (t : BinTree α) :
    plug (c :: cs) t = plug cs (join c.label c.dir t c.other) := rfl

/-- The labels to the left of a place. -/
def leftOf : List (Crumb α) → List α
  | [] => []
  | c :: cs => leftOf cs ++ if c.dir then c.other.inorder ++ [c.label] else []

/-- The labels to the right of a place. -/
def rightOf : List (Crumb α) → List α
  | [] => []
  | c :: cs => (if c.dir then [] else c.label :: c.other.inorder) ++ rightOf cs

/-- The labels that are not at the place. -/
def around : List (Crumb α) → List α
  | [] => []
  | c :: cs => c.label :: (c.other.inorder ++ around cs)

@[simp] lemma around_nil : around ([] : List (Crumb α)) = [] := rfl

@[simp] lemma around_cons (c : Crumb α) (cs : List (Crumb α)) :
    around (c :: cs) = c.label :: (c.other.inorder ++ around cs) := rfl

lemma inorder_plug (cs : List (Crumb α)) (t : BinTree α) :
    (plug cs t).inorder = leftOf cs ++ t.inorder ++ rightOf cs := by
  induction cs generalizing t with
  | nil => simp [leftOf, rightOf]
  | cons c cs ih =>
    rw [plug_cons, ih]
    obtain ⟨a, dir, other⟩ := c
    cases dir with
    | true => simp [leftOf, rightOf]
    | false => simp [leftOf, rightOf]

lemma inorder_plug_node (cs : List (Crumb α)) (l : BinTree α) (a : α) (r : BinTree α) :
    (plug cs (node l a r)).inorder =
      (leftOf cs ++ l.inorder) ++ a :: (r.inorder ++ rightOf cs) := by
  rw [inorder_plug, inorder_node]
  simp

lemma inorder_plug_perm (cs : List (Crumb α)) (t : BinTree α) :
    (plug cs t).inorder.Perm (t.inorder ++ around cs) := by
  induction cs generalizing t with
  | nil => simp
  | cons c cs ih =>
    rw [plug_cons, around_cons]
    refine (ih _).trans ?_
    have hjoin : (join c.label c.dir t c.other).inorder.Perm
        (t.inorder ++ c.label :: c.other.inorder) :=
      (inorder_join_perm _ _ _ _).trans List.perm_middle.symm
    simpa using hjoin.append_right (around cs)

/-- Every label has its place. -/
lemma exists_plug {t : BinTree α} {a : α} (h : a ∈ t.inorder) :
    ∃ cs l r, t = plug cs (node l a r) := by
  suffices hplug : ∀ cs, ∃ cs' l r, plug cs t = plug cs' (node l a r) from hplug []
  induction t with
  | nil => simp at h
  | node l b r ihl ihr =>
    intro cs
    rw [inorder_node, List.mem_append, List.mem_cons] at h
    rcases h with hl | rfl | hr
    · obtain ⟨cs', l', r', heq⟩ := ihl hl (⟨b, false, r⟩ :: cs)
      exact ⟨cs', l', r', heq⟩
    · exact ⟨cs, l, r, rfl⟩
    · obtain ⟨cs', l', r', heq⟩ := ihr hr (⟨b, true, l⟩ :: cs)
      exact ⟨cs', l', r', heq⟩

lemma length_le_length_around (cs : List (Crumb α)) : cs.length ≤ (around cs).length := by
  induction cs with
  | nil => simp
  | cons c cs ih =>
    rw [around_cons, List.length_cons, List.length_cons, List.length_append]
    omega

/-! ### Rotation and merging -/

/-- The root at a place is rotated above the label it hangs from. -/
def rotate (c : Crumb α) : BinTree α → BinTree α
  | nil => join c.label c.dir nil c.other
  | node l b r =>
    if c.dir then node (node c.other c.label l) b r else node l b (node r c.label c.other)

lemma rotate_join (c : Crumb α) (b : α) (inner outer : BinTree α) :
    rotate c (join b (!c.dir) inner outer) =
      join b (!c.dir) (join c.label c.dir inner c.other) outer := by
  obtain ⟨a, dir, other⟩ := c
  cases dir <;> rfl

/-- The root is the same node before and after. -/
lemma rotate_node (c : Crumb α) (l : BinTree α) (b : α) (r : BinTree α) :
    ∃ l' r', rotate c (node l b r) = node l' b r' := by
  unfold rotate
  cases c.dir with
  | true => exact ⟨_, _, rfl⟩
  | false => exact ⟨_, _, rfl⟩

lemma inorder_rotate (c : Crumb α) (t : BinTree α) :
    (rotate c t).inorder = (join c.label c.dir t c.other).inorder := by
  cases t with
  | nil => rfl
  | node l b r =>
    unfold rotate
    cases c.dir <;> simp

variable (prio : α → ℤ)

/-- Rotate the root at a place up as long as its priority is larger. -/
def siftUp : List (Crumb α) → BinTree α → BinTree α
  | [], t => t
  | c :: cs, t =>
    match t.root with
    | none => plug (c :: cs) t
    | some b => if prio b > prio c.label then siftUp cs (rotate c t) else plug (c :: cs) t

/-- The two subtrees of a label that is taken away. -/
def merge : BinTree α → BinTree α → BinTree α
  | nil, r => r
  | l, nil => l
  | node ll a lr, node rl b rr =>
    if prio a > prio b then node ll a (merge lr (node rl b rr))
    else node (merge (node ll a lr) rl) b rr

@[simp] lemma merge_nil_left (r : BinTree α) : merge prio nil r = r := by simp [merge]

@[simp] lemma merge_nil_right (l : BinTree α) : merge prio l nil = l := by
  cases l <;> simp [merge]

lemma merge_node (ll : BinTree α) (a : α) (lr rl : BinTree α) (b : α) (rr : BinTree α) :
    merge prio (node ll a lr) (node rl b rr) =
      if prio a > prio b then node ll a (merge prio lr (node rl b rr))
      else node (merge prio (node ll a lr) rl) b rr := by
  rw [merge]

lemma inorder_siftUp (cs : List (Crumb α)) (t : BinTree α) :
    (siftUp prio cs t).inorder = (plug cs t).inorder := by
  induction cs generalizing t with
  | nil => rfl
  | cons c cs ih =>
    unfold siftUp
    split
    · rfl
    · split_ifs
      · rw [ih, plug_cons, inorder_plug, inorder_plug, inorder_rotate]
      · rfl

lemma inorder_merge (l r : BinTree α) :
    (merge prio l r).inorder = l.inorder ++ r.inorder := by
  induction l, r using merge.induct prio with
  | case1 r => simp
  | case2 l hl => simp
  | case3 ll a lr rl b rr hlt ih =>
    rw [merge_node, if_pos hlt, inorder_node, ih]
    simp
  | case4 ll a lr rl b rr hle ih =>
    rw [merge_node, if_neg hle, inorder_node, ih]
    simp

/-! ### The order of the priorities -/

/-- The priority of the root, if there is one, is at most `x`. -/
def Below (x : ℤ) (t : BinTree α) : Prop := ∀ a, t.root = some a → prio a ≤ x

/-- No priority is smaller than one below it. -/
def Heap : BinTree α → Prop
  | nil => True
  | node l a r => (Below prio (prio a) l ∧ Below prio (prio a) r) ∧ Heap l ∧ Heap r

/-- The trees of this root priority may stand at the place. -/
def Fits : List (Crumb α) → ℤ → Prop
  | [], _ => True
  | c :: _, x => x ≤ prio c.label

/-- No priority outside the place is smaller than one below it. -/
def HeapAround : List (Crumb α) → Prop
  | [] => True
  | c :: cs => (Below prio (prio c.label) c.other ∧ Heap prio c.other) ∧
      Fits prio cs (prio c.label) ∧ HeapAround cs

variable {prio}

lemma below_node {x : ℤ} {l : BinTree α} {a : α} {r : BinTree α} :
    Below prio x (node l a r) ↔ prio a ≤ x := by
  simp [Below]

lemma Fits.of_le {cs : List (Crumb α)} {x y : ℤ} (h : Fits prio cs y) (hxy : x ≤ y) :
    Fits prio cs x := by
  cases cs with
  | nil => trivial
  | cons c cs => exact hxy.trans h

/-- Only the labels of the tree matter. -/
lemma Heap.congr {prio' : α → ℤ} {t : BinTree α} (h : Heap prio t)
    (heq : ∀ a ∈ t.inorder, prio' a = prio a) : Heap prio' t := by
  induction t with
  | nil => trivial
  | node l a r ihl ihr =>
    obtain ⟨⟨hbl, hbr⟩, hl, hr⟩ := h
    rw [inorder_node] at heq
    have ha := heq a (by simp)
    refine ⟨⟨fun b hb => ?_, fun b hb => ?_⟩, ihl hl fun b hb => heq b (by simp [hb]),
      ihr hr fun b hb => heq b (by simp [hb])⟩
    · rw [ha, heq b (by simp [mem_inorder_of_root hb])]
      exact hbl b hb
    · rw [ha, heq b (by simp [mem_inorder_of_root hb])]
      exact hbr b hb

lemma heap_join {a : α} {dir : Bool} {inner outer : BinTree α} :
    Heap prio (join a dir inner outer) ↔ (Below prio (prio a) inner ∧ Heap prio inner) ∧
      Below prio (prio a) outer ∧ Heap prio outer := by
  cases dir with
  | true =>
    rw [join_true, Heap]
    tauto
  | false =>
    rw [join_false, Heap]
    tauto

lemma heap_plug {cs : List (Crumb α)} {t : BinTree α} :
    Heap prio (plug cs t) ↔
      HeapAround prio cs ∧ Heap prio t ∧ ∀ a, t.root = some a → Fits prio cs (prio a) := by
  induction cs generalizing t with
  | nil => simp [HeapAround, Fits]
  | cons c cs ih =>
    rw [plug_cons, ih, heap_join, root_join]
    simp only [HeapAround, Fits, Below, Option.some.injEq]
    constructor
    · rintro ⟨haround, ⟨⟨hbelow, ht⟩, hother⟩, hfits⟩
      exact ⟨⟨hother, hfits c.label rfl, haround⟩, ht, hbelow⟩
    · rintro ⟨⟨hother, hfits, haround⟩, ht, hbelow⟩
      exact ⟨haround, ⟨⟨hbelow, ht⟩, hother⟩, fun a ha => ha ▸ hfits⟩

/-- A tree whose root is too large for its place, but whose subtrees are not. -/
lemma heap_siftUp {cs : List (Crumb α)} {l : BinTree α} {b : α} {r : BinTree α}
    (hcs : HeapAround prio cs) (h : Heap prio (node l b r))
    (hl : ∀ a, l.root = some a → Fits prio cs (prio a))
    (hr : ∀ a, r.root = some a → Fits prio cs (prio a)) :
    Heap prio (siftUp prio cs (node l b r)) := by
  induction cs generalizing l b r with
  | nil => exact h
  | cons c cs ih =>
    unfold siftUp
    rw [root_node]
    dsimp only
    split_ifs with hlt
    · obtain ⟨⟨hbelow, hother⟩, hfits, haround⟩ := hcs
      obtain ⟨⟨hbl, hbr⟩, hhl, hhr⟩ := h
      unfold rotate
      split_ifs
      · refine ih haround ⟨⟨below_node.mpr hlt.le, hbr⟩, ⟨⟨hbelow, hl⟩, hother, hhl⟩, hhr⟩ ?_
          fun a ha => hfits.of_le (hr a ha)
        rintro a ha
        rw [root_node, Option.some.injEq] at ha
        exact ha ▸ hfits
      · refine ih haround ⟨⟨hbl, below_node.mpr hlt.le⟩, hhl, ⟨hr, hbelow⟩, hhr, hother⟩
          (fun a ha => hfits.of_le (hl a ha)) ?_
        rintro a ha
        rw [root_node, Option.some.injEq] at ha
        exact ha ▸ hfits
    · refine heap_plug.mpr ⟨hcs, h, fun a ha => ?_⟩
      rw [root_node, Option.some.injEq] at ha
      subst ha
      exact not_lt.mp hlt

lemma heap_merge {l r : BinTree α} (hl : Heap prio l) (hr : Heap prio r) :
    Heap prio (merge prio l r) ∧
      ∀ x, Below prio x l → Below prio x r → Below prio x (merge prio l r) := by
  induction l, r using merge.induct prio with
  | case1 r =>
    rw [merge_nil_left]
    exact ⟨hr, fun x _ h => h⟩
  | case2 l hne =>
    rw [merge_nil_right]
    exact ⟨hl, fun x h _ => h⟩
  | case3 ll a lr rl b rr hlt ih =>
    obtain ⟨⟨hall, halr⟩, hll, hlr⟩ := hl
    obtain ⟨hmerge, hbelow⟩ := ih hlr hr
    rw [merge_node, if_pos hlt]
    exact ⟨⟨⟨hall, hbelow _ halr (below_node.mpr hlt.le)⟩, hll, hmerge⟩,
      fun x hx _ => below_node.mpr (below_node.mp hx)⟩
  | case4 ll a lr rl b rr hle ih =>
    obtain ⟨⟨hbrl, hbrr⟩, hrl, hrr⟩ := hr
    obtain ⟨hmerge, hbelow⟩ := ih hl hrl
    rw [merge_node, if_neg hle]
    exact ⟨⟨⟨hbelow _ (below_node.mpr (not_lt.mp hle)) hbrl, hbrr⟩, hmerge, hrr⟩,
      fun x _ hx => below_node.mpr (below_node.mp hx)⟩

end BinTree
