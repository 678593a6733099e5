import Fluke.Mem.StringInstructions

/-!
# Comparison of strings

`memcmp` and `strcmp` compare plain `char`, which is signed here. The sign of the result is the
order of the first different pair as signed bytes. It is the order as unsigned bytes where the top
bits of the pair agree.
-/

namespace Fluke.Libc

open ByteMemory

/-- `a[-1] > b[-1] ? 1 : -1` on two characters -/
def charOrder (a b : BitVec 8) : ℤ := if b.slt a then 1 else -1

/-- `memcmp` -/
def memcmp (m : ByteMemory) : ℕ → ℕ → ℕ → ℤ
  | _, _, 0 => 0
  | a, b, len + 1 =>
    if m a ≠ m b then charOrder (m a) (m b) else memcmp m (uadd a 1) (uadd b 1) len

/-- `strcmp`; nothing is read outside of the address space. -/
def strcmp (m : ByteMemory) (a b : ℕ) : Option ℤ :=
  if a < 2 ^ 64 ∧ b < 2 ^ 64 then
    if m a = m b then
      if m a = 0 then some 0 else strcmp m (a + 1) (b + 1)
    else some (charOrder (m a) (m b))
  else none
termination_by 2 ^ 64 - a

/-- The characters of a string, which a null byte ends. -/
structure IsString (m : ByteMemory) (a : ℕ) (s : List (BitVec 8)) : Prop where
  bytes : m.bytesAt a (s.length + 1) = s ++ [0]
  nonzero : 0 ∉ s
  end_lt : a + s.length < 2 ^ 64

section

variable {m : ByteMemory} {a b n : ℕ} {s t : List (BitVec 8)} {x y : BitVec 8}

/-! ### Characters -/

lemma charOrder_ne_zero (x y : BitVec 8) : charOrder x y ≠ 0 := by
  unfold charOrder
  split_ifs <;> decide

/-- The order of signed characters -/
lemma signOf_charOrder_toInt (hne : x ≠ y) : SignOf (charOrder x y) x.toInt y.toInt := by
  have hint : x.toInt ≠ y.toInt := fun h => hne (BitVec.toInt_inj.mp h)
  unfold charOrder
  split_ifs with hlt
  · rw [BitVec.slt_iff_toInt_lt] at hlt
    exact ⟨iff_of_false (by decide) hlt.not_gt, iff_of_true (by decide) hlt⟩
  · rw [BitVec.slt_iff_toInt_lt, not_lt] at hlt
    have hgt : x.toInt < y.toInt := lt_of_le_of_ne hlt hint
    exact ⟨iff_of_true (by decide) hgt, iff_of_false (by decide) hgt.not_gt⟩

/-- It is the order of the bytes where the top bits agree. -/
lemma signOf_charOrder_iff (hne : x ≠ y) : SignOf (charOrder x y) x y ↔ x.msb = y.msb := by
  have hpos : (0 < charOrder x y) ↔ y.slt x = true := by
    unfold charOrder
    split_ifs with h <;> simp [h]
  have hneg : (charOrder x y < 0) ↔ y.slt x = false := by
    unfold charOrder
    split_ifs with h <;> simp [h]
  have hult : y < x ↔ y.ult x = true := BitVec.ult_iff_lt.symm
  have hnot : x < y ↔ y.ult x = false := by
    rw [← Bool.not_eq_true, BitVec.ult_iff_lt, BitVec.not_lt]
    exact ⟨BitVec.le_of_lt, fun h => BitVec.lt_of_le_ne h hne⟩
  rw [SignOf, hpos, hneg, hult, hnot]
  constructor
  · rintro ⟨-, h⟩
    by_contra hmsb
    rw [BitVec.slt_eq_not_ult_of_msb_neq (Ne.symm hmsb)] at h
    simp at h
  · intro hmsb
    rw [BitVec.slt_eq_ult_of_msb_eq hmsb.symm]
    exact ⟨Iff.rfl, Iff.rfl⟩

/-! ### Ranges -/

/-- The bytes of a range, by their index -/
abbrev bytesFrom (m : ByteMemory) (a : ℕ) : ℕ → BitVec 8 := fun i => m (a + i)

/-- The top bits of the first different pair agree. -/
def SameTop (m : ByteMemory) (a b n : ℕ) : Prop :=
  ∀ i, FirstDifference (bytesFrom m a) (bytesFrom m b) n i → (m (a + i)).msb = (m (b + i)).msb

lemma bytesFrom_succ (m : ByteMemory) (a : ℕ) :
    bytesFrom m (a + 1) = fun j => bytesFrom m a (j + 1) := by
  funext j
  rw [bytesFrom, bytesFrom, Start.next_add]

lemma memcmp_difference {i : ℕ} (h : FirstDifference (bytesFrom m a) (bytesFrom m b) n i)
    (ha : a + i < 2 ^ 64) (hb : b + i < 2 ^ 64) :
    memcmp m a b n = charOrder (m (a + i)) (m (b + i)) := by
  induction n generalizing a b i with
  | zero => exact absurd h.lt (Nat.not_lt_zero i)
  | succ n ih =>
    rw [memcmp]
    cases i with
    | zero =>
      have hne : m a ≠ m b := h.ne
      rw [if_pos hne]
      rfl
    | succ i =>
      have heq : m a = m b := h.before 0 (Nat.succ_pos i)
      have hrest : FirstDifference (bytesFrom m (a + 1)) (bytesFrom m (b + 1)) n i := by
        rw [bytesFrom_succ, bytesFrom_succ]
        exact h.tail
      rw [if_neg (not_not.mpr heq), uadd_of_lt (by omega), uadd_of_lt (by omega),
        ih hrest (by omega) (by omega), Start.next_add, Start.next_add]

lemma memcmp_same (h : ∀ i < n, bytesFrom m a i = bytesFrom m b i) (ha : a + n ≤ 2 ^ 64)
    (hb : b + n ≤ 2 ^ 64) : memcmp m a b n = 0 := by
  induction n generalizing a b with
  | zero => rfl
  | succ n ih =>
    have heq : m a = m b := h 0 (Nat.succ_pos n)
    rw [memcmp, if_neg (not_not.mpr heq)]
    rcases Nat.eq_zero_or_pos n with rfl | hpos
    · rfl
    · rw [uadd_of_lt (by omega), uadd_of_lt (by omega)]
      refine ih (fun i hi => ?_) (by omega) (by omega)
      rw [bytesFrom, bytesFrom, Start.next_add, Start.next_add]
      exact h (i + 1) (Nat.succ_lt_succ hi)

lemma memcmp_compares_iff (ha : a + n ≤ 2 ^ 64) (hb : b + n ≤ 2 ^ 64) :
    Compares (bytesFrom m a) (bytesFrom m b) n (memcmp m a b n) ↔ SameTop m a b n := by
  rcases FirstDifference.exists_or_eq (bytesFrom m a) (bytesFrom m b) n with ⟨i, hi⟩ | heq
  · have hlt := hi.lt
    rw [memcmp_difference hi (by omega) (by omega),
      hi.compares_iff (charOrder_ne_zero _ _), signOf_charOrder_iff hi.ne]
    constructor
    · intro hmsb j hj
      rwa [hj.unique hi]
    · intro hsame
      exact hsame i hi
  · rw [memcmp_same heq ha hb]
    exact iff_of_true (compares_zero heq) fun i hi => absurd heq hi.not_eq

/-- The characters of a range, by their index -/
abbrev charsFrom (m : ByteMemory) (a : ℕ) : ℕ → ℤ := fun i => (m (a + i)).toInt

lemma firstDifference_chars {i : ℕ} : FirstDifference (charsFrom m a) (charsFrom m b) n i ↔
    FirstDifference (bytesFrom m a) (bytesFrom m b) n i := by
  constructor
  · intro h
    exact ⟨h.lt, fun heq => h.ne (congrArg _ heq), fun j hj => BitVec.toInt_inj.mp (h.before j hj)⟩
  · intro h
    exact ⟨h.lt, fun heq => h.ne (BitVec.toInt_inj.mp heq), fun j hj => congrArg _ (h.before j hj)⟩

/-- As characters, ranges are compared always. -/
lemma memcmp_compares_chars (ha : a + n ≤ 2 ^ 64) (hb : b + n ≤ 2 ^ 64) :
    Compares (charsFrom m a) (charsFrom m b) n (memcmp m a b n) := by
  rcases FirstDifference.exists_or_eq (bytesFrom m a) (bytesFrom m b) n with ⟨i, hi⟩ | heq
  · have hlt := hi.lt
    have hchars := firstDifference_chars.mpr hi
    rw [memcmp_difference hi (by omega) (by omega), hchars.compares_iff (charOrder_ne_zero _ _)]
    exact signOf_charOrder_toInt hi.ne
  · rw [memcmp_same heq ha hb]
    exact compares_zero fun i hi => congrArg BitVec.toInt (heq i hi)

/-- The kernel's comparison goes down when the direction flag is set: it agrees where the bytes
below the pointers compare as the characters of the ranges do. -/
lemma memcmp_sign_down {flags : Start.Flags} (hdf : flags.df = true) (hn : 0 < n)
    (ha : a + n ≤ 2 ^ 64) (hb : b + n ≤ 2 ^ 64) :
    (memcmp m a b n).sign = (Start.memcmp m a b n flags).sign ↔
      ∃ r, Compares (charsFrom m a) (charsFrom m b) n r ∧
        Compares (Start.bytesDown m a) (Start.bytesDown m b) n r := by
  have hdown := @Start.memcmp_compares_along m n flags a b hn (by omega) (by omega) (by omega)
  rw [Start.Flags.bytes_down hdf, Start.Flags.bytes_down hdf] at hdown
  have hchars := memcmp_compares_chars (m := m) ha hb
  rw [hdown.sign_eq_iff]
  constructor
  · intro h
    exact ⟨_, hchars, h⟩
  · rintro ⟨r, hr, hr'⟩
    exact hr'.sign_eq_iff.mp (hr.sign_eq_iff.mpr hchars)

/-! ### Strings -/

lemma IsString.start_lt (h : IsString m a s) : a < 2 ^ 64 := by
  have hend := h.end_lt
  omega

lemma IsString.nil (h : IsString m a []) : m a = 0 := by
  have hbytes := h.bytes
  rw [bytesAt_succ] at hbytes
  exact (List.cons.inj hbytes).1

lemma IsString.head (h : IsString m a (x :: s)) : m a = x := by
  have hbytes := h.bytes
  rw [bytesAt_succ] at hbytes
  exact (List.cons.inj hbytes).1

lemma IsString.head_ne (h : IsString m a (x :: s)) : x ≠ 0 :=
  (List.ne_of_not_mem_cons h.nonzero).symm

lemma IsString.tail (h : IsString m a (x :: s)) : IsString m (a + 1) s := by
  have hbytes := h.bytes
  have hend := h.end_lt
  rw [bytesAt_succ] at hbytes
  rw [List.length_cons] at hend
  exact ⟨(List.cons.inj hbytes).2, List.not_mem_of_not_mem_cons h.nonzero, by omega⟩

lemma IsString.ne_zero {i : ℕ} (h : IsString m a s) (hi : i < s.length) : m (a + i) ≠ 0 := by
  induction s generalizing a i with
  | nil => exact absurd hi (Nat.not_lt_zero i)
  | cons x s ih =>
    cases i with
    | zero =>
      rw [Nat.add_zero, h.head]
      exact h.head_ne
    | succ i =>
      rw [← Start.next_add]
      exact ih h.tail (Nat.lt_of_succ_lt_succ hi)

lemma IsString.null (h : IsString m a s) : m (a + s.length) = 0 := by
  induction s generalizing a with
  | nil => exact h.nil
  | cons x s ih =>
    rw [List.length_cons, ← Start.next_add]
    exact ih h.tail

/-- The string of signed characters, with the null byte -/
def signed (s : List (BitVec 8)) : List ℤ := (s ++ [0]).map BitVec.toInt

lemma strcmp_ne (ha : a < 2 ^ 64) (hb : b < 2 ^ 64) (h : m a ≠ m b) :
    strcmp m a b = some (charOrder (m a) (m b)) := by
  rw [strcmp, if_pos ⟨ha, hb⟩, if_neg h]

lemma memcmp_succ_eq (h : m a = m b) (ha : a + 1 < 2 ^ 64) (hb : b + 1 < 2 ^ 64) :
    memcmp m a b (n + 1) = memcmp m (a + 1) (b + 1) n := by
  rw [memcmp, if_neg (not_not.mpr h), uadd_of_lt ha, uadd_of_lt hb]

lemma memcmp_succ_ne (h : m a ≠ m b) : memcmp m a b (n + 1) = charOrder (m a) (m b) := by
  rw [memcmp, if_pos h]

/-- `strcmp` compares up to the end of the shorter string. -/
lemma strcmp_eq_memcmp (ha : IsString m a s) (hb : IsString m b t) :
    strcmp m a b = some (memcmp m a b (min s.length t.length + 1)) := by
  induction s generalizing t a b with
  | nil =>
    by_cases h : m a = m b
    · have hzero : m a = 0 := ha.nil
      rw [strcmp, if_pos ⟨ha.start_lt, hb.start_lt⟩, if_pos h, if_pos hzero, memcmp,
        if_neg (not_not.mpr h)]
      simp [memcmp]
    · rw [strcmp_ne ha.start_lt hb.start_lt h, memcmp_succ_ne h]
  | cons x s ih =>
    by_cases h : m a = m b
    · cases t with
      | nil =>
        rw [ha.head, hb.nil] at h
        exact absurd h ha.head_ne
      | cons y t =>
        have hne : m a ≠ 0 := by
          rw [ha.head]
          exact ha.head_ne
        rw [strcmp, if_pos ⟨ha.start_lt, hb.start_lt⟩, if_pos h, if_neg hne, ih ha.tail hb.tail,
          List.length_cons, List.length_cons, Nat.succ_min_succ,
          memcmp_succ_eq h ha.tail.start_lt hb.tail.start_lt]
    · rw [strcmp_ne ha.start_lt hb.start_lt h, memcmp_succ_ne h]

lemma IsString.signed_eq (h : IsString m a s) : ∃ l, signed s = (m a).toInt :: l := by
  cases s with
  | nil => exact ⟨[], by rw [h.nil]; rfl⟩
  | cons x s => exact ⟨signed s, by rw [h.head]; rfl⟩

/-- The strings are in the order of their signed characters. -/
lemma strcmp_signed (ha : IsString m a s) (hb : IsString m b t) :
    ∃ r, strcmp m a b = some r ∧ SignOf r (signed s) (signed t) := by
  induction s generalizing t a b with
  | nil =>
    by_cases h : m a = m b
    · cases t with
      | nil =>
        have hzero : m a = 0 := ha.nil
        refine ⟨0, ?_, ?_⟩
        · rw [strcmp, if_pos ⟨ha.start_lt, hb.start_lt⟩, if_pos h, if_pos hzero]
        · exact ⟨iff_of_false (lt_irrefl 0) (lt_irrefl _), iff_of_false (lt_irrefl 0) (lt_irrefl _)⟩
      | cons y t =>
        rw [ha.nil, hb.head] at h
        exact absurd h.symm hb.head_ne
    · obtain ⟨l, hl⟩ := ha.signed_eq
      obtain ⟨l', hl'⟩ := hb.signed_eq
      refine ⟨_, strcmp_ne ha.start_lt hb.start_lt h, ?_⟩
      rw [hl, hl']
      exact (signOf_charOrder_toInt h).cons_of_ne fun hint => h (BitVec.toInt_inj.mp hint)
  | cons x s ih =>
    by_cases h : m a = m b
    · cases t with
      | nil =>
        rw [ha.head, hb.nil] at h
        exact absurd h ha.head_ne
      | cons y t =>
        obtain ⟨r, hr, hsign⟩ := ih ha.tail hb.tail
        have hne : m a ≠ 0 := by
          rw [ha.head]
          exact ha.head_ne
        have hxy : x = y := by rw [← ha.head, h, hb.head]
        refine ⟨r, ?_, ?_⟩
        · rw [strcmp, if_pos ⟨ha.start_lt, hb.start_lt⟩, if_pos h, if_neg hne, hr]
        · rw [hxy]
          exact hsign.cons
    · obtain ⟨l, hl⟩ := ha.signed_eq
      obtain ⟨l', hl'⟩ := hb.signed_eq
      refine ⟨_, strcmp_ne ha.start_lt hb.start_lt h, ?_⟩
      rw [hl, hl']
      exact (signOf_charOrder_toInt h).cons_of_ne fun hint => h (BitVec.toInt_inj.mp hint)

lemma signed_inj : signed s = signed t ↔ s = t := by
  have hinj : Function.Injective (BitVec.toInt : BitVec 8 → ℤ) := fun _ _ => BitVec.toInt_inj.mp
  rw [signed, signed, (List.map_injective_iff.mpr hinj).eq_iff, List.append_left_inj]

/-! ### Both comparisons -/

/-- `strcmp` orders the strings. -/
structure StringOrder (m : ByteMemory) : Prop where
  zero : ∀ a b s t r, IsString m a s → IsString m b t → strcmp m a b = some r → (r = 0 ↔ s = t)
  antisymm : ∀ a b s t r r', IsString m a s → IsString m b t → strcmp m a b = some r →
    strcmp m b a = some r' → (r < 0 ↔ 0 < r')
  trans : ∀ a b c s t u r r', IsString m a s → IsString m b t → IsString m c u →
    strcmp m a b = some r → strcmp m b c = some r' → r ≤ 0 → r' ≤ 0 →
      ∃ r'', strcmp m a c = some r'' ∧ r'' ≤ 0

lemma signOf_of_strcmp {r : ℤ} (ha : IsString m a s) (hb : IsString m b t)
    (hr : strcmp m a b = some r) : SignOf r (signed s) (signed t) := by
  obtain ⟨r', hr', hsign⟩ := strcmp_signed ha hb
  rw [hr', Option.some_inj] at hr
  rwa [hr] at hsign

lemma stringOrder (m : ByteMemory) : StringOrder m where
  zero a b s t r ha hb hr := (signOf_of_strcmp ha hb hr).eq_zero_iff.trans signed_inj
  antisymm a b s t r r' ha hb hr hr' :=
    (signOf_of_strcmp ha hb hr).1.trans (signOf_of_strcmp hb ha hr').2.symm
  trans a b c s t u r r' ha hb hc hr hr' hle hle' := by
    obtain ⟨r'', hr'', hsign⟩ := strcmp_signed ha hc
    have hab := (signOf_of_strcmp ha hb hr).nonpos_iff.mp hle
    have hbc := (signOf_of_strcmp hb hc hr').nonpos_iff.mp hle'
    exact ⟨r'', hr'', hsign.nonpos_iff.mpr (hab.trans hbc)⟩

end

/-- The comparisons have the sign of the first difference of unsigned bytes, and `memcmp` agrees
with the one of the kernel (with the direction flag clear), where the top bits of this pair agree.
`strcmp` is an order always. -/
theorem comparisons_iff (m : ByteMemory) :
    (∀ a b n, a + n ≤ 2 ^ 64 → b + n ≤ 2 ^ 64 →
      (Compares (bytesFrom m a) (bytesFrom m b) n (memcmp m a b n) ↔ SameTop m a b n) ∧
      (∀ flags, 0 < n → ((memcmp m a b n).sign = (Start.memcmp m a b n flags).sign ↔
        if flags.df then ∃ r, Compares (charsFrom m a) (charsFrom m b) n r ∧
          Compares (Start.bytesDown m a) (Start.bytesDown m b) n r
        else SameTop m a b n))) ∧
    (∀ a b s t, IsString m a s → IsString m b t → ∃ r, strcmp m a b = some r ∧
      (Compares (bytesFrom m a) (bytesFrom m b) (min s.length t.length + 1) r ↔
        SameTop m a b (min s.length t.length + 1))) ∧
    StringOrder m := by
  refine ⟨fun a b n ha hb => ⟨memcmp_compares_iff ha hb, fun flags hn => ?_⟩, ?_, stringOrder m⟩
  · cases hdf : flags.df with
    | false =>
      rw [if_neg Bool.false_ne_true, (Start.memcmp_compares hdf hn ha hb).sign_eq_iff]
      exact memcmp_compares_iff ha hb
    | true =>
      rw [if_pos rfl]
      exact memcmp_sign_down hdf hn ha hb
  · intro a b s t ha hb
    have hend := ha.end_lt
    have hend' := hb.end_lt
    exact ⟨_, strcmp_eq_memcmp ha hb, memcmp_compares_iff (by omega) (by omega)⟩

/-- Memory with the string of the byte `0x80` and the string `"\x7f"` -/
def topByte : ByteMemory := fun x => if x = 0x1000 then 0x80 else if x = 0x2000 then 0x7f else 0

lemma firstDifference_topByte :
    FirstDifference (bytesFrom topByte 0x1000) (bytesFrom topByte 0x2000) 1 0 :=
  ⟨by decide, by decide, fun j hj => absurd hj (Nat.not_lt_zero j)⟩

theorem comparisons_twoStrings :
    Compares (bytesFrom Start.twoStrings 0x1000) (bytesFrom Start.twoStrings 0x2000) 3
        (memcmp Start.twoStrings 0x1000 0x2000 3) ∧
      (memcmp Start.twoStrings 0x1000 0x2000 3).sign =
        (Start.memcmp Start.twoStrings 0x1000 0x2000 3 ⟨false, true, false⟩).sign ∧
      ∃ r, strcmp Start.twoStrings 0x1000 0x2000 = some r ∧
        Compares (bytesFrom Start.twoStrings 0x1000) (bytesFrom Start.twoStrings 0x2000) 3 r := by
  have hbits : ∀ i < 3,
      (Start.twoStrings (0x1000 + i)).msb = (Start.twoStrings (0x2000 + i)).msb := by decide
  have hsame : SameTop Start.twoStrings 0x1000 0x2000 3 := fun i hi => hbits i hi.lt
  have h := comparisons_iff Start.twoStrings
  have hranges := h.1 0x1000 0x2000 3 (by decide) (by decide)
  refine ⟨hranges.1.mpr hsame, (hranges.2 ⟨false, true, false⟩ (by decide)).mpr hsame, ?_⟩
  obtain ⟨r, hr, hcompares⟩ := h.2.1 0x1000 0x2000 [0x61, 0x62] [0x61, 0x63]
    ⟨by decide, by decide, by decide⟩ ⟨by decide, by decide, by decide⟩
  exact ⟨r, hr, hcompares.mpr hsame⟩

/-- The byte `0x80` is sorted before `0x7f`, and the kernel sorts it behind. -/
theorem comparisons_counterexample :
    ¬ Compares (bytesFrom topByte 0x1000) (bytesFrom topByte 0x2000) 1
        (memcmp topByte 0x1000 0x2000 1) ∧
      (memcmp topByte 0x1000 0x2000 1).sign ≠
        (Start.memcmp topByte 0x1000 0x2000 1 ⟨true, false, false⟩).sign ∧
      strcmp topByte 0x1000 0x2000 = some (-1) ∧ topByte 0x2000 < topByte 0x1000 := by
  refine ⟨fun h => ?_, by decide, strcmp_ne (by decide) (by decide) (by decide), by decide⟩
  exact absurd ((h.sign 0 firstDifference_topByte).1.mp (by decide)) (by decide)

end Fluke.Libc
