import Mathlib.Tactic

/-!
# The first difference

Two sequences are compared up to a length by the first place where they differ. `Compares` says
that the sign of a number is the order at this place.
-/

variable {α : Type*} {f g : ℕ → α} {n i j : ℕ}

/-- The sequences differ at `i`, below `n`, and nowhere before. -/
structure FirstDifference (f g : ℕ → α) (n i : ℕ) : Prop where
  lt : i < n
  ne : f i ≠ g i
  before : ∀ j < i, f j = g j

/-- The sign of the number is the order of the two values. -/
def SignOf [LT α] (r : ℤ) (a b : α) : Prop := (r < 0 ↔ a < b) ∧ (0 < r ↔ b < a)

/-- The number compares the sequences: it is zero for equal ones, and has the sign of the first
difference. -/
structure Compares [LT α] (f g : ℕ → α) (n : ℕ) (r : ℤ) : Prop where
  zero : r = 0 ↔ ∀ i < n, f i = g i
  sign : ∀ i, FirstDifference f g n i → SignOf r (f i) (g i)

namespace FirstDifference

lemma exists_or_eq (f g : ℕ → α) (n : ℕ) :
    (∃ i, FirstDifference f g n i) ∨ ∀ i < n, f i = g i := by
  classical
  by_cases h : ∃ i, i < n ∧ f i ≠ g i
  · left
    refine ⟨Nat.find h, (Nat.find_spec h).1, (Nat.find_spec h).2, fun j hj => ?_⟩
    by_contra hne
    exact Nat.find_min h hj ⟨hj.trans (Nat.find_spec h).1, hne⟩
  · right
    intro i hi
    by_contra hne
    exact h ⟨i, hi, hne⟩

lemma unique (h : FirstDifference f g n i) (h' : FirstDifference f g n j) : i = j := by
  rcases Nat.lt_trichotomy i j with hlt | heq | hlt
  · exact absurd (h'.before i hlt) h.ne
  · exact heq
  · exact absurd (h.before j hlt) h'.ne

/-- The first difference behind an equal pair -/
lemma tail (h : FirstDifference f g (n + 1) (i + 1)) :
    FirstDifference (fun j => f (j + 1)) (fun j => g (j + 1)) n i :=
  ⟨Nat.lt_of_succ_lt_succ h.lt, h.ne, fun j hj => h.before (j + 1) (Nat.succ_lt_succ hj)⟩

lemma not_eq (h : FirstDifference f g n i) : ¬ ∀ i < n, f i = g i := fun heq => h.ne (heq i h.lt)

end FirstDifference

lemma compares_zero [LT α] (h : ∀ i < n, f i = g i) : Compares f g n 0 :=
  ⟨iff_of_true rfl h, fun _ hi => absurd (h _ hi.lt) hi.ne⟩

/-- Where the sequences differ, only the sign matters. -/
lemma FirstDifference.compares_iff [LT α] (h : FirstDifference f g n i) {r : ℤ} (hr : r ≠ 0) :
    Compares f g n r ↔ SignOf r (f i) (g i) := by
  constructor
  · intro hcompares
    exact hcompares.sign i h
  · intro hsign
    refine ⟨iff_of_false hr h.not_eq, fun j hj => ?_⟩
    rwa [← h.unique hj]

/-- Only the values up to the length matter. -/
lemma Compares.congr [LT α] {f' g' : ℕ → α} {r : ℤ} (h : Compares f g n r)
    (hf : ∀ i < n, f i = f' i) (hg : ∀ i < n, g i = g' i) : Compares f' g' n r := by
  refine ⟨h.zero.trans (forall₂_congr fun i hi => ?_), fun i hi => ?_⟩
  · rw [hf i hi, hg i hi]
  · have hfirst : FirstDifference f g n i := by
      refine ⟨hi.lt, ?_, fun j hj => ?_⟩
      · rw [hf i hi.lt, hg i hi.lt]
        exact hi.ne
      · rw [hf j (hj.trans hi.lt), hg j (hj.trans hi.lt)]
        exact hi.before j hj
    rw [← hf i hi.lt, ← hg i hi.lt]
    exact h.sign i hfirst

lemma sign_eq_iff_lt {r r' : ℤ} : r.sign = r'.sign ↔ (r < 0 ↔ r' < 0) ∧ (0 < r ↔ 0 < r') := by
  constructor
  · intro h
    constructor
    · rw [← Int.sign_eq_neg_one_iff_neg, h, Int.sign_eq_neg_one_iff_neg]
    · rw [← Int.sign_eq_one_iff_pos, h, Int.sign_eq_one_iff_pos]
  · rintro ⟨hneg, hpos⟩
    rcases lt_trichotomy r 0 with hr | hr | hr
    · rw [Int.sign_eq_neg_one_of_neg hr, Int.sign_eq_neg_one_of_neg (hneg.mp hr)]
    · have hr' : r' = 0 := by omega
      rw [hr, hr']
    · rw [Int.sign_eq_one_of_pos hr, Int.sign_eq_one_of_pos (hpos.mp hr)]

/-- Two comparisons agree in sign, and a number that agrees with a comparison is one. -/
lemma Compares.sign_eq_iff [LT α] {r r' : ℤ} (h : Compares f g n r') :
    r.sign = r'.sign ↔ Compares f g n r := by
  rw [sign_eq_iff_lt]
  constructor
  · rintro ⟨hneg, hpos⟩
    have hzero : r = 0 ↔ r' = 0 := by omega
    exact ⟨hzero.trans h.zero, fun i hi => ⟨hneg.trans (h.sign i hi).1, hpos.trans (h.sign i hi).2⟩⟩
  · intro h'
    rcases FirstDifference.exists_or_eq f g n with ⟨i, hi⟩ | heq
    · have hsign := h.sign i hi
      have hsign' := h'.sign i hi
      exact ⟨hsign'.1.trans hsign.1.symm, hsign'.2.trans hsign.2.symm⟩
    · rw [h.zero.mpr heq, h'.zero.mpr heq]
      exact ⟨Iff.rfl, Iff.rfl⟩

/-! ### Lists in lexicographic order -/

section

variable [LinearOrder α] {r : ℤ} {a b : α} {l l' : List α}

lemma SignOf.eq_zero_iff (h : SignOf r a b) : r = 0 ↔ a = b := by
  rcases lt_trichotomy a b with hlt | heq | hgt
  · have hneg := h.1.mpr hlt
    exact iff_of_false hneg.ne hlt.ne
  · have hneg : ¬ r < 0 := fun hr => (h.1.mp hr).ne heq
    have hpos : ¬ 0 < r := fun hr => (h.2.mp hr).ne heq.symm
    exact iff_of_true (by omega) heq
  · have hpos := h.2.mpr hgt
    exact iff_of_false hpos.ne' hgt.ne'

lemma SignOf.nonpos_iff (h : SignOf r a b) : r ≤ 0 ↔ a ≤ b := by
  rw [← not_lt, h.2, not_lt]

lemma SignOf.cons_of_ne (h : SignOf r a b) (hne : a ≠ b) : SignOf r (a :: l) (b :: l') := by
  have hback : ¬ (a = b ∧ l < l') := fun hand => hne hand.1
  have hback' : ¬ (b = a ∧ l' < l) := fun hand => hne hand.1.symm
  rw [SignOf, List.cons_lt_cons_iff, List.cons_lt_cons_iff, or_iff_left hback,
    or_iff_left hback']
  exact h

lemma SignOf.cons (h : SignOf r l l') : SignOf r (a :: l) (a :: l') := by
  rw [SignOf, List.cons_lt_cons_iff, List.cons_lt_cons_iff, or_iff_right (lt_irrefl a),
    or_iff_right (lt_irrefl a), and_iff_right rfl, and_iff_right rfl]
  exact h

end
