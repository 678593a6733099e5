import Mathlib.Algebra.BigOperators.Group.Finset.Basic
import Mathlib.Algebra.Order.BigOperators.Group.Multiset
import Mathlib.Tactic

/-!
# Radix trees

A radix tree over digits `Fin n` whose tables and pages carry a label. `lookup` walks a path of
digits to a page. `erase S` removes the pages whose path is in `S` and every visited table this
leaves empty. `collect g` counts, for every label of the tree, the value `g` gives to it; when
these values are pairwise distinct, a page is found under one path only.
-/

/-- A tree of tables with `n` slots each; pages are the leaves. -/
inductive Radix (n : ℕ) (α : Type*) where
  | absent : Radix n α
  | page : α → Radix n α
  | table : α → (Fin n → Radix n α) → Radix n α

namespace Radix

variable {n : ℕ} {α β : Type*}

/-- The label of the page a path of digits leads to. -/
def lookup : Radix n α → List (Fin n) → Option α
  | absent, _ => none
  | page a, [] => some a
  | page _, _ :: _ => none
  | table _ _, [] => none
  | table _ slots, i :: p => (slots i).lookup p

@[simp] lemma lookup_absent (p : List (Fin n)) : (absent : Radix n α).lookup p = none := by
  simp [lookup]

@[simp] lemma lookup_page_nil (a : α) : (page a : Radix n α).lookup [] = some a := by
  simp [lookup]

@[simp] lemma lookup_page_cons (a : α) (i : Fin n) (p : List (Fin n)) :
    (page a : Radix n α).lookup (i :: p) = none := by
  simp [lookup]

@[simp] lemma lookup_table_nil (a : α) (slots : Fin n → Radix n α) :
    (table a slots).lookup [] = none := by
  simp [lookup]

@[simp] lemma lookup_table_cons (a : α) (slots : Fin n → Radix n α) (i : Fin n)
    (p : List (Fin n)) : (table a slots).lookup (i :: p) = (slots i).lookup p := by
  simp [lookup]

/-- The values `g` gives to the labels of the tree, tables and pages. -/
def collect (g : α → β) : Radix n α → Multiset β
  | absent => 0
  | page a => {g a}
  | table a slots => g a ::ₘ ∑ i, (slots i).collect g

/-- The values `g` gives to the labels of the trees in the slots. The sum over a concrete number
of slots must not be computed by unfolding. -/
@[irreducible] def collectSlots (g : α → β) (slots : Fin n → Radix n α) : Multiset β :=
  ∑ i, (slots i).collect g

@[simp] lemma collect_absent (g : α → β) : (absent : Radix n α).collect g = 0 := by
  simp [collect]

@[simp] lemma collect_page (g : α → β) (a : α) : (page a : Radix n α).collect g = {g a} := by
  simp [collect]

@[simp] lemma collect_table (g : α → β) (a : α) (slots : Fin n → Radix n α) :
    (table a slots).collect g = g a ::ₘ collectSlots g slots := by
  unfold collectSlots
  simp [collect]

lemma collect_le_collectSlots (g : α → β) (slots : Fin n → Radix n α) (i : Fin n) :
    (slots i).collect g ≤ collectSlots g slots := by
  unfold collectSlots
  exact Finset.single_le_sum (f := fun j => (slots j).collect g)
    (fun _ _ => Multiset.zero_le _) (Finset.mem_univ i)

lemma mem_collectSlots {g : α → β} {slots : Fin n → Radix n α} {b : β} :
    b ∈ collectSlots g slots ↔ ∃ i, b ∈ (slots i).collect g := by
  unfold collectSlots
  simp [Multiset.mem_sum]

lemma collectSlots_of_absent (g : α → β) {slots : Fin n → Radix n α}
    (h : ∀ i, slots i = absent) : collectSlots g slots = 0 := by
  unfold collectSlots
  simp [h]

/-- Slots that differ at `i` only. -/
lemma collectSlots_of_ne (g : α → β) {slots slots' : Fin n → Radix n α} {i : Fin n}
    (h : ∀ j, j ≠ i → slots' j = slots j) :
    collectSlots g slots' + (slots i).collect g = collectSlots g slots + (slots' i).collect g := by
  have hrest : ∑ j ∈ Finset.univ.erase i, (slots' j).collect g =
      ∑ j ∈ Finset.univ.erase i, (slots j).collect g :=
    Finset.sum_congr rfl fun j hj => by rw [h j (Finset.ne_of_mem_erase hj)]
  unfold collectSlots
  rw [← Finset.add_sum_erase _ _ (Finset.mem_univ i), hrest,
    ← Finset.add_sum_erase (f := fun j => (slots j).collect g) _ (Finset.mem_univ i)]
  abel

/-- The values `g` gives to the labels of the tables alone. -/
def collectTables (g : α → β) : Radix n α → Multiset β
  | absent => 0
  | page _ => 0
  | table a slots => g a ::ₘ ∑ i, (slots i).collectTables g

@[simp] lemma collectTables_absent (g : α → β) :
    (absent : Radix n α).collectTables g = 0 := by
  simp [collectTables]

@[simp] lemma collectTables_page (g : α → β) (a : α) :
    (page a : Radix n α).collectTables g = 0 := by
  simp [collectTables]

lemma mem_collectTables_table {g : α → β} {a : α} {slots : Fin n → Radix n α} {b : β} :
    b ∈ (table a slots).collectTables g ↔ b = g a ∨ ∃ i, b ∈ (slots i).collectTables g := by
  simp [collectTables, Multiset.mem_sum]

lemma collectTables_le (g : α → β) (t : Radix n α) : t.collectTables g ≤ t.collect g := by
  induction t with
  | absent => simp
  | page a => simp
  | table a slots ih =>
    rw [collectTables, collect, Multiset.cons_le_cons_iff]
    exact Finset.sum_le_sum fun i _ => ih i

lemma mem_collect_of_lookup (g : α → β) {t : Radix n α} {p : List (Fin n)} {a : α}
    (h : t.lookup p = some a) : g a ∈ t.collect g := by
  induction t generalizing p with
  | absent => simp at h
  | page b =>
    cases p with
    | nil => simp only [lookup_page_nil, Option.some.injEq] at h; simp [h]
    | cons i p => simp at h
  | table b slots ih =>
    cases p with
    | nil => simp at h
    | cons i p =>
      rw [lookup_table_cons] at h
      rw [collect_table, Multiset.mem_cons]
      exact Or.inr (mem_collectSlots.mpr ⟨i, ih i h⟩)

lemma slot_eq_of_nodup (g : α → β) (slots : Fin n → Radix n α) {i j : Fin n} {b : β}
    (h : (collectSlots g slots).Nodup) (hi : b ∈ (slots i).collect g)
    (hj : b ∈ (slots j).collect g) : i = j := by
  by_contra hij
  unfold collectSlots at h
  rw [← Finset.add_sum_erase _ _ (Finset.mem_univ i), Multiset.nodup_add] at h
  refine Multiset.disjoint_left.mp h.2.2 hi ?_
  exact Multiset.mem_of_le (Finset.single_le_sum (f := fun k => (slots k).collect g)
    (fun _ _ => Multiset.zero_le _) (Finset.mem_erase.mpr ⟨Ne.symm hij, Finset.mem_univ j⟩)) hj

lemma nodup_slot {g : α → β} {slots : Fin n → Radix n α} (h : (collectSlots g slots).Nodup)
    (i : Fin n) : ((slots i).collect g).Nodup :=
  Multiset.nodup_of_le (collect_le_collectSlots g slots i) h

/-- A label that occurs once is found under one path. -/
lemma lookup_inj {g : α → β} {t : Radix n α} (h : (t.collect g).Nodup) {p q : List (Fin n)}
    {a b : α} (hp : t.lookup p = some a) (hq : t.lookup q = some b) (hab : g a = g b) :
    p = q := by
  induction t generalizing p q with
  | absent => simp at hp
  | page c =>
    cases p with
    | cons i p => simp at hp
    | nil =>
      cases q with
      | cons j q => simp at hq
      | nil => rfl
  | table c slots ih =>
    cases p with
    | nil => simp at hp
    | cons i p =>
      cases q with
      | nil => simp at hq
      | cons j q =>
        rw [lookup_table_cons] at hp hq
        rw [collect_table, Multiset.nodup_cons] at h
        have hi := mem_collect_of_lookup g hp
        have hj := mem_collect_of_lookup g hq
        rw [← hab] at hj
        have hij : i = j := slot_eq_of_nodup g slots h.2 hi hj
        subst hij
        rw [ih i (nodup_slot h.2 i) hp hq]

/-- A label that occurs once and is a page's is no table's. -/
lemma notMem_collectTables_of_lookup {g : α → β} {t : Radix n α} (h : (t.collect g).Nodup)
    {p : List (Fin n)} {a : α} (hp : t.lookup p = some a) : g a ∉ t.collectTables g := by
  induction t generalizing p with
  | absent => simp at hp
  | page b => simp
  | table b slots ih =>
    cases p with
    | nil => simp at hp
    | cons i p =>
      rw [lookup_table_cons] at hp
      rw [collect_table, Multiset.nodup_cons] at h
      have hi := mem_collect_of_lookup g hp
      rw [mem_collectTables_table]
      rintro (heq | ⟨j, hj⟩)
      · exact h.1 (heq ▸ mem_collectSlots.mpr ⟨i, hi⟩)
      · have hij : i = j :=
          slot_eq_of_nodup g slots h.2 hi (Multiset.mem_of_le (collectTables_le g _) hj)
        subst hij
        exact ih i (nodup_slot h.2 i) hp hj

/-! ### Trees without empty tables -/

/-- No table of the tree is empty. -/
def NoEmpty : Radix n α → Prop
  | absent => True
  | page _ => True
  | table _ slots => (∃ i, slots i ≠ absent) ∧ ∀ i, (slots i).NoEmpty

@[simp] lemma noEmpty_absent : (absent : Radix n α).NoEmpty := by simp [NoEmpty]

@[simp] lemma noEmpty_page (a : α) : (page a : Radix n α).NoEmpty := by simp [NoEmpty]

@[simp] lemma noEmpty_table (a : α) (slots : Fin n → Radix n α) :
    (table a slots).NoEmpty ↔ (∃ i, slots i ≠ absent) ∧ ∀ i, (slots i).NoEmpty := by
  simp [NoEmpty]

/-- Every table label of the tree satisfies `P`. -/
def Tables (P : α → Prop) : Radix n α → Prop
  | absent => True
  | page _ => True
  | table a slots => P a ∧ ∀ i, (slots i).Tables P

@[simp] lemma tables_absent (P : α → Prop) : (absent : Radix n α).Tables P := by simp [Tables]

@[simp] lemma tables_page (P : α → Prop) (a : α) : (page a : Radix n α).Tables P := by
  simp [Tables]

@[simp] lemma tables_table (P : α → Prop) (a : α) (slots : Fin n → Radix n α) :
    (table a slots).Tables P ↔ P a ∧ ∀ i, (slots i).Tables P := by
  simp [Tables]

/-! ### Erasing a set of paths -/

open scoped Classical in
/-- A table over `slots`, or nothing when every slot is absent. -/
noncomputable def prune (a : α) (slots : Fin n → Radix n α) : Radix n α :=
  if ∀ i, slots i = absent then absent else table a slots

open scoped Classical in
/-- Remove the pages whose path is in `S`; a table that this visits and leaves empty goes too. -/
noncomputable def erase : Radix n α → Set (List (Fin n)) → Radix n α
  | absent, _ => absent
  | page a, S => if [] ∈ S then absent else page a
  | table a slots, S =>
    if S = ∅ then table a slots else prune a fun i => (slots i).erase {p | i :: p ∈ S}

@[simp] lemma erase_absent (S : Set (List (Fin n))) : (absent : Radix n α).erase S = absent := by
  simp [erase]

@[simp] lemma erase_empty (t : Radix n α) : t.erase ∅ = t := by
  cases t <;> simp [erase]

lemma erase_page_of_mem (a : α) {S : Set (List (Fin n))} (h : [] ∈ S) :
    (page a : Radix n α).erase S = absent := by
  simp [erase, h]

lemma erase_table (a : α) (slots : Fin n → Radix n α) {S : Set (List (Fin n))}
    (h : S.Nonempty) :
    (table a slots).erase S = prune a fun i => (slots i).erase {p | i :: p ∈ S} := by
  simp [erase, h.ne_empty]

lemma prune_of_absent (a : α) {slots : Fin n → Radix n α} (h : ∀ i, slots i = absent) :
    prune a slots = absent := by
  simp [prune, h]

lemma prune_of_ne (a : α) {slots : Fin n → Radix n α} {i : Fin n} (h : slots i ≠ absent) :
    prune a slots = table a slots := by
  rw [prune, if_neg]
  exact fun hall => h (hall i)

lemma lookup_prune_cons (a : α) (slots : Fin n → Radix n α) (i : Fin n) (p : List (Fin n)) :
    (prune a slots).lookup (i :: p) = (slots i).lookup p := by
  by_cases h : ∀ i, slots i = absent
  · rw [prune_of_absent a h, h i, lookup_absent, lookup_absent]
  · obtain ⟨j, hj⟩ := not_forall.mp h
    rw [prune_of_ne a hj, lookup_table_cons]

lemma lookup_prune_nil (a : α) (slots : Fin n → Radix n α) :
    (prune a slots).lookup [] = none := by
  unfold prune
  split <;> simp

open scoped Classical in
/-- Erasing empties exactly the paths of the set. -/
lemma lookup_erase (t : Radix n α) (S : Set (List (Fin n))) (p : List (Fin n)) :
    (t.erase S).lookup p = if p ∈ S then none else t.lookup p := by
  induction t generalizing S p with
  | absent => simp
  | page a =>
    by_cases hS : [] ∈ S
    · rw [erase_page_of_mem a hS]
      cases p with
      | nil => simp [hS]
      | cons i p => simp
    · cases p with
      | nil => simp [erase, hS]
      | cons i p => simp [erase, hS]
  | table a slots ih =>
    rcases S.eq_empty_or_nonempty with rfl | hS
    · simp
    · rw [erase_table a slots hS]
      cases p with
      | nil => simp [lookup_prune_nil]
      | cons i p => rw [lookup_prune_cons, ih, lookup_table_cons]; rfl

lemma noEmpty_prune (a : α) {slots : Fin n → Radix n α} (h : ∀ i, (slots i).NoEmpty) :
    (prune a slots).NoEmpty := by
  by_cases hall : ∀ i, slots i = absent
  · rw [prune_of_absent a hall]
    exact noEmpty_absent
  · obtain ⟨j, hj⟩ := not_forall.mp hall
    rw [prune_of_ne a hj]
    exact (noEmpty_table a slots).mpr ⟨⟨j, hj⟩, h⟩

/-- Erasing leaves no empty table behind. -/
lemma NoEmpty.erase {t : Radix n α} (h : t.NoEmpty) (S : Set (List (Fin n))) :
    (t.erase S).NoEmpty := by
  induction t generalizing S with
  | absent => simp
  | page a => unfold Radix.erase; split <;> simp
  | table a slots ih =>
    rcases S.eq_empty_or_nonempty with rfl | hS
    · simpa using h
    · rw [erase_table a slots hS]
      exact noEmpty_prune a fun i => ih i (((noEmpty_table a slots).mp h).2 i) _

lemma tables_prune {P : α → Prop} {a : α} {slots : Fin n → Radix n α} (ha : P a)
    (h : ∀ i, (slots i).Tables P) : (prune a slots).Tables P := by
  unfold prune
  split
  · exact tables_absent P
  · exact (tables_table P a slots).mpr ⟨ha, h⟩

lemma Tables.erase {P : α → Prop} {t : Radix n α} (h : t.Tables P) (S : Set (List (Fin n))) :
    (t.erase S).Tables P := by
  induction t generalizing S with
  | absent => simp
  | page a => unfold Radix.erase; split <;> simp
  | table a slots ih =>
    rcases S.eq_empty_or_nonempty with rfl | hS
    · simpa using h
    · rw [erase_table a slots hS]
      have hslots := (tables_table P a slots).mp h
      exact tables_prune hslots.1 fun i => ih i (hslots.2 i) _

/-- A tree without empty tables and without pages holds nothing. -/
lemma NoEmpty.eq_absent {t : Radix n α} (h : t.NoEmpty) (hp : ∀ p, t.lookup p = none) :
    t = absent := by
  induction t with
  | absent => rfl
  | page a => simpa using hp []
  | table a slots ih =>
    obtain ⟨⟨i, hi⟩, hslots⟩ := (noEmpty_table a slots).mp h
    exact absurd (ih i (hslots i) fun p => by simpa using hp (i :: p)) hi

/-- Paths without a page have nothing to erase. -/
lemma NoEmpty.erase_eq_self {t : Radix n α} (h : t.NoEmpty) {S : Set (List (Fin n))}
    (hS : ∀ p ∈ S, t.lookup p = none) : t.erase S = t := by
  induction t generalizing S with
  | absent => simp
  | page a =>
    unfold Radix.erase
    rw [if_neg fun hmem => by simpa using hS [] hmem]
  | table a slots ih =>
    obtain ⟨⟨i, hi⟩, hslots⟩ := (noEmpty_table a slots).mp h
    rcases S.eq_empty_or_nonempty with rfl | hne
    · simp
    · have hsame : (fun i => (slots i).erase {p | i :: p ∈ S}) = slots := by
        funext j
        exact ih j (hslots j) fun p hp => by simpa using hS (j :: p) hp
      rw [erase_table a slots hne, hsame, prune_of_ne a hi]

lemma collect_prune_le (g : α → β) (a : α) (slots : Fin n → Radix n α) :
    (prune a slots).collect g ≤ g a ::ₘ collectSlots g slots := by
  unfold prune
  split
  · simp
  · simp

lemma collectSlots_le {g : α → β} {slots slots' : Fin n → Radix n α}
    (h : ∀ i, (slots i).collect g ≤ (slots' i).collect g) :
    collectSlots g slots ≤ collectSlots g slots' := by
  unfold collectSlots
  exact Finset.sum_le_sum fun i _ => h i

lemma card_collectSlots_lt {g : α → β} {slots slots' : Fin n → Radix n α}
    (h : ∀ i, (slots i).collect g ≤ (slots' i).collect g) {i : Fin n}
    (hi : ((slots i).collect g).card < ((slots' i).collect g).card) :
    (collectSlots g slots).card < (collectSlots g slots').card := by
  unfold collectSlots
  rw [Multiset.card_sum, Multiset.card_sum]
  exact Finset.sum_lt_sum (fun j _ => Multiset.card_le_card (h j)) ⟨i, Finset.mem_univ i, hi⟩

lemma card_collectSlots (g : α → β) (slots : Fin n → Radix n α) :
    Multiset.card (collectSlots g slots) = ∑ i, Multiset.card ((slots i).collect g) := by
  unfold collectSlots
  exact map_sum Multiset.cardHom _ _

/-- A slot that is empty in the first family is worth what it holds in the second. -/
lemma card_collectSlots_add_le {g : α → β} {slots slots' : Fin n → Radix n α} {i : Fin n}
    (hi : slots i = absent)
    (hle : ∀ j, j ≠ i →
      Multiset.card ((slots j).collect g) ≤ Multiset.card ((slots' j).collect g)) :
    Multiset.card (collectSlots g slots) + Multiset.card ((slots' i).collect g) ≤
      Multiset.card (collectSlots g slots') := by
  rw [card_collectSlots, card_collectSlots, ← Finset.add_sum_erase _ _ (Finset.mem_univ i),
    ← Finset.add_sum_erase (Finset.univ : Finset (Fin n)) _ (Finset.mem_univ i), hi,
    collect_absent, Multiset.card_zero, Nat.zero_add, Nat.add_comm]
  exact Nat.add_le_add_left (Finset.sum_le_sum fun j hj => hle j (Finset.ne_of_mem_erase hj)) _

lemma collect_erase_le (g : α → β) (t : Radix n α) (S : Set (List (Fin n))) :
    (t.erase S).collect g ≤ t.collect g := by
  induction t generalizing S with
  | absent => simp
  | page a => unfold Radix.erase; split <;> simp
  | table a slots ih =>
    rcases S.eq_empty_or_nonempty with rfl | hS
    · simp
    · rw [erase_table a slots hS, collect_table]
      refine (collect_prune_le g a _).trans ?_
      exact Multiset.cons_le_cons _ (collectSlots_le fun i => ih i _)

/-- Erasing a page leaves fewer labels. -/
lemma card_collect_erase_lt (g : α → β) {t : Radix n α} {S : Set (List (Fin n))}
    {p : List (Fin n)} (hp : p ∈ S) (hpage : t.lookup p ≠ none) :
    ((t.erase S).collect g).card < (t.collect g).card := by
  induction t generalizing S p with
  | absent => simp at hpage
  | page a =>
    cases p with
    | nil => simp [erase_page_of_mem a hp]
    | cons i p => simp at hpage
  | table a slots ih =>
    cases p with
    | nil => simp at hpage
    | cons i p =>
      rw [lookup_table_cons] at hpage
      rw [erase_table a slots ⟨_, hp⟩, collect_table, Multiset.card_cons]
      refine (Multiset.card_le_card (collect_prune_le g a _)).trans_lt ?_
      rw [Multiset.card_cons, Nat.add_lt_add_iff_right]
      exact card_collectSlots_lt (fun j => collect_erase_le g _ _) (ih i hp hpage)

/-! ### Trees of one shape -/

/-- Two trees of one shape, whose tables are related by `Q` and whose pages by `P`. -/
inductive Rel (P Q : α → α → Prop) : Radix n α → Radix n α → Prop
  | absent : Rel P Q absent absent
  | page {a b : α} (h : P a b) : Rel P Q (page a) (page b)
  | table {a b : α} {slots slots' : Fin n → Radix n α} (h : Q a b)
      (hslots : ∀ i, Rel P Q (slots i) (slots' i)) : Rel P Q (table a slots) (table b slots')

namespace Rel

variable {P Q : α → α → Prop} {t t' : Radix n α}

lemma lookup_none (h : Rel P Q t t') {p : List (Fin n)} (hp : t.lookup p = none) :
    t'.lookup p = none := by
  induction h generalizing p with
  | absent => exact hp
  | page _ =>
    cases p with
    | nil => cases hp
    | cons i p => simp
  | table _ _ ih =>
    cases p with
    | nil => simp
    | cons i p =>
      rw [lookup_table_cons] at hp ⊢
      exact ih i hp

lemma lookup_some (h : Rel P Q t t') {p : List (Fin n)} {a : α} (hp : t.lookup p = some a) :
    ∃ b, t'.lookup p = some b ∧ P a b := by
  induction h generalizing p with
  | absent => cases hp
  | @page c b hcb =>
    cases p with
    | nil =>
      rw [lookup_page_nil, Option.some.injEq] at hp
      subst hp
      exact ⟨b, lookup_page_nil b, hcb⟩
    | cons i p => simp at hp
  | table _ _ ih =>
    cases p with
    | nil => simp at hp
    | cons i p =>
      rw [lookup_table_cons] at hp
      simpa using ih i hp

lemma absent_iff (h : Rel P Q t t') : t' = Radix.absent ↔ t = Radix.absent := by
  cases h <;> simp

lemma card_collect {β : Type*} (g : α → β) (h : Rel P Q t t') :
    Multiset.card (t'.collect g) = Multiset.card (t.collect g) := by
  induction h with
  | absent => rfl
  | page _ => simp
  | table _ _ ih =>
    rw [collect_table, collect_table, Multiset.card_cons, Multiset.card_cons, card_collectSlots,
      card_collectSlots]
    exact congrArg (· + 1) (Finset.sum_congr rfl fun i _ => ih i)

lemma noEmpty (h : Rel P Q t t') (ht : t.NoEmpty) : t'.NoEmpty := by
  induction h with
  | absent => exact noEmpty_absent
  | page _ => exact noEmpty_page _
  | table _ hslots ih =>
    rw [noEmpty_table] at ht ⊢
    obtain ⟨⟨i, hi⟩, hall⟩ := ht
    exact ⟨⟨i, fun h => hi ((hslots i).absent_iff.mp h)⟩, fun j => ih j (hall j)⟩

lemma tables {R : α → Prop} (h : Rel P Q t t') (hQ : ∀ a b, Q a b → R b) : t'.Tables R := by
  induction h with
  | absent => exact tables_absent R
  | page _ => exact tables_page R _
  | table hab _ ih => exact (tables_table R _ _).mpr ⟨hQ _ _ hab, ih⟩

/-- A relation of pages that depends on the pages of the second tree only. -/
lemma mono {P' : α → α → Prop} {β : Type*} (g : α → β) (h : Rel P Q t t')
    (hP : ∀ a b, g b ∈ t'.collect g → P a b → P' a b) : Rel P' Q t t' := by
  induction h with
  | absent => exact .absent
  | page hab => exact .page (hP _ _ (by simp) hab)
  | @table a b slots slots' hab _ ih =>
    refine .table hab fun i => ih i fun c e hmem => hP c e ?_
    rw [collect_table, Multiset.mem_cons]
    exact Or.inr (mem_collectSlots.mpr ⟨i, hmem⟩)

end Rel

end Radix
