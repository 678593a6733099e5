import Fluke.X86.Mmu

/-!
# Spans of a table

A table of depth `d` translates `512 * pointeeSize d` bytes from its base on; `Span` says that a
range is a proper part of this, anywhere in the address space. The bounds of the loops over the
entries are then the ones the picture suggests although the sums wrap around at the end of the
address space, and they agree with `tableIndex`, by which `virtToPhys` walks.
-/

namespace Fluke

lemma pointeeSize_succ (d : ℕ) : pointeeSize (d + 1) = 512 * pointeeSize d := by
  unfold pointeeSize virtShift
  rw [show 3 + 9 * (d + 1) = 9 + (3 + 9 * d) by ring, pow_add]
  norm_num

lemma pointeeSize_pos (d : ℕ) : 0 < pointeeSize d := by
  unfold pointeeSize
  positivity

lemma pageSize_dvd_pointeeSize (d : ℕ) : 4096 ∣ pointeeSize (d + 1) := by
  induction d with
  | zero => decide
  | succ d ih =>
    rw [pointeeSize_succ (d + 1)]
    exact Dvd.dvd.mul_left ih 512

lemma pointeeSize_dvd {d : ℕ} (hd : d ≤ PML4 + 1) : pointeeSize d ∣ 2 ^ 64 := by
  have hpml4 : PML4 = 4 := rfl
  unfold pointeeSize virtShift
  exact pow_dvd_pow 2 (by omega)

/-! ### Rounding -/

lemma roundDownP2_eq (a p : ℕ) : roundDownP2 a p = p * (a / p) := by
  have := Nat.div_add_mod a p
  unfold roundDownP2
  omega

lemma roundDownP2_of_dvd_add {base p a : ℕ} (hd : p ∣ base) (hlo : base ≤ a)
    (hhi : a < base + p) : roundDownP2 a p = base := by
  obtain ⟨k, rfl⟩ := hd
  rw [roundDownP2_eq]
  have hp : 0 < p := by
    rcases Nat.eq_zero_or_pos p with rfl | h
    · omega
    · exact h
  congr 1
  refine Nat.div_eq_of_lt_le ?_ ?_
  · rwa [mul_comm]
  · rw [add_mul, one_mul, mul_comm k p]
    exact hhi

/-- Rounding up wraps around only when there is no multiple left. -/
lemma roundUpP2_eq_mod {val p : ℕ} (hp : 0 < p) (hdvd : p ∣ 2 ^ 64) (hval : val < 2 ^ 64) :
    roundUpP2 val p = p * ((val + p - 1) / p) % 2 ^ 64 := by
  obtain ⟨k, hk⟩ := hdvd
  have hle : p ≤ 2 ^ 64 := Nat.le_of_dvd (by positivity) ⟨k, hk⟩
  rcases lt_or_ge (val + p - 1) (2 ^ 64) with hlt | hge
  · -- the sum before rounding does not wrap around, or only by the one that is taken off again
    have hsum : usub (uadd val p) 1 = val + p - 1 := by
      unfold usub uadd
      omega
    have hround : p * ((val + p - 1) / p) ≤ val + p - 1 := Nat.mul_div_le _ _
    rw [roundUpP2, hsum, roundDownP2_eq, Nat.mod_eq_of_lt (by omega)]
  · have hsum : usub (uadd val p) 1 = val + p - 1 - 2 ^ 64 := by
      unfold usub uadd
      omega
    have hdiv : (val + p - 1) / p = k := by
      refine Nat.div_eq_of_lt_le ?_ ?_
      · rw [mul_comm, ← hk]
        exact hge
      · rw [add_mul, one_mul, mul_comm k p, ← hk]
        omega
    rw [roundUpP2, hsum, roundDownP2_eq, Nat.div_eq_of_lt (by omega), mul_zero, hdiv, ← hk,
      Nat.mod_self]

/-! ### The entries a loop visits -/

/-- `[vbegin, vend)` is a page-aligned, non-empty part of what a table of depth `d` with base
address `base` translates. With `d = 0` this is a single page. -/
structure Span (d base vbegin vend : ℕ) : Prop where
  depth : d ≤ PML4
  base_dvd : pointeeSize (d + 1) ∣ base
  bound : base + pointeeSize (d + 1) ≤ 2 ^ 64
  lower : base ≤ vbegin
  lt : vbegin < vend
  upper : vend ≤ base + pointeeSize (d + 1)
  vend_lt : vend < 2 ^ 64
  vbegin_aligned : 4096 ∣ vbegin
  vend_aligned : 4096 ∣ vend

namespace TableRange

/-- The entries the loop visits. This list is reasoned about, never computed. -/
@[irreducible] def indices (d vbegin vend : ℕ) : List (Fin 512) :=
  (List.finRange 512).filter fun i => indexBegin d vbegin ≤ i.val ∧ i.val < indexEnd d vbegin vend

lemma nodup_indices (d vbegin vend : ℕ) : (indices d vbegin vend).Nodup := by
  unfold indices
  exact (List.nodup_finRange 512).filter _

end TableRange

open TableRange

namespace Span

variable {d base vbegin vend : ℕ}

lemma tableBase_eq (h : Span d base vbegin vend) : tableBase d vbegin = base := by
  unfold tableBase
  rw [← pointeeSize_succ]
  exact roundDownP2_of_dvd_add h.base_dvd h.lower (h.lt.trans_le h.upper)

lemma base_dvd' (h : Span d base vbegin vend) : pointeeSize d ∣ base := by
  have hdvd := h.base_dvd
  rw [pointeeSize_succ] at hdvd
  exact (Dvd.intro_left 512 rfl).trans hdvd

/-- The first entry of the loop: the share of the address space `vbegin` lies in. -/
lemma indexBegin_eq (h : Span d base vbegin vend) :
    indexBegin d vbegin = (vbegin - base) / pointeeSize d := by
  unfold indexBegin
  obtain ⟨k, hk⟩ := h.base_dvd'
  have hp := pointeeSize_pos d
  have hmul : pointeeSize d * (vbegin / pointeeSize d) ≤ vbegin := Nat.mul_div_le _ _
  have hkle : k ≤ vbegin / pointeeSize d := by
    rw [Nat.le_div_iff_mul_le hp, mul_comm, ← hk]
    exact h.lower
  have hlt := h.lt
  have hend := h.vend_lt
  rw [h.tableBase_eq, roundDownP2_eq, usub_of_le _ (by omega), hk, ← Nat.mul_sub,
    Nat.shiftRight_eq_div_pow]
  · rw [← pointeeSize, Nat.mul_div_cancel_left _ hp]
    have := Nat.sub_mul_div vbegin (pointeeSize d) k
    rw [this]
  · rw [hk]
    exact Nat.mul_le_mul_left _ hkle

/-- One past the last entry of the loop, rounded up. -/
lemma indexEnd_eq (h : Span d base vbegin vend) :
    indexEnd d vbegin vend = (vend - base + pointeeSize d - 1) / pointeeSize d := by
  unfold indexEnd
  obtain ⟨k, hk⟩ := h.base_dvd'
  have hp := pointeeSize_pos d
  have hlo := h.lower
  have hlt := h.lt
  have hbound := h.bound
  have hup := h.upper
  have hsize := pointeeSize_succ d
  have hdvd : pointeeSize d ∣ 2 ^ 64 := pointeeSize_dvd (h.depth.trans (Nat.le_succ _))
  have hspace : pointeeSize (d + 1) < 2 ^ 64 := by
    have hdepth := h.depth
    have hpml4 : PML4 = 4 := rfl
    exact Nat.pow_lt_pow_right (by decide) (by unfold virtShift; omega)
  have hkle : k ≤ (vend + pointeeSize d - 1) / pointeeSize d := by
    rw [Nat.le_div_iff_mul_le hp, mul_comm, ← hk]
    omega
  -- the end, rounded up to a multiple, lies in the table
  have hround : base + pointeeSize d * ((vend + pointeeSize d - 1) / pointeeSize d - k) =
      pointeeSize d * ((vend + pointeeSize d - 1) / pointeeSize d) := by
    rw [hk, ← Nat.mul_add, Nat.add_sub_cancel' hkle]
  have hin : pointeeSize d * ((vend + pointeeSize d - 1) / pointeeSize d - k) ≤
      pointeeSize (d + 1) := by
    rw [hsize, mul_comm 512]
    refine Nat.mul_le_mul_left _ ?_
    have hdiv : (vend + pointeeSize d - 1) / pointeeSize d < k + 513 := by
      rw [Nat.div_lt_iff_lt_mul hp]
      have : (k + 513) * pointeeSize d = base + 512 * pointeeSize d + pointeeSize d := by
        rw [hk]
        ring
      omega
    omega
  rw [h.tableBase_eq, roundUpP2_eq_mod hp hdvd h.vend_lt, ← hround]
  have hsub : usub ((base + pointeeSize d * ((vend + pointeeSize d - 1) / pointeeSize d - k)) %
      2 ^ 64) base = pointeeSize d * ((vend + pointeeSize d - 1) / pointeeSize d - k) := by
    unfold usub
    omega
  rw [hsub, Nat.shiftRight_eq_div_pow, ← pointeeSize, Nat.mul_div_cancel_left _ hp]
  have hdiv := Nat.sub_mul_div (vend + pointeeSize d - 1) (pointeeSize d) k
  rw [← hdiv, ← hk]
  congr 1
  omega

lemma indexEnd_le (h : Span d base vbegin vend) : indexEnd d vbegin vend ≤ 512 := by
  rw [h.indexEnd_eq]
  have hp := pointeeSize_pos d
  have hup := h.upper
  rw [pointeeSize_succ] at hup
  refine Nat.le_of_lt_succ ((Nat.div_lt_iff_lt_mul hp).mpr ?_)
  have : (512 + 1) * pointeeSize d = 512 * pointeeSize d + pointeeSize d := by ring
  omega

/-- The loop visits the entries whose share of the address space meets the range. -/
lemma mem_indices (h : Span d base vbegin vend) (i : ℕ) :
    (indexBegin d vbegin ≤ i ∧ i < indexEnd d vbegin vend) ↔
      vbegin < base + (i + 1) * pointeeSize d ∧ base + i * pointeeSize d < vend := by
  have hp := pointeeSize_pos d
  have hlo := h.lower
  have hlt := h.lt
  have hsucc : (i + 1) * pointeeSize d = i * pointeeSize d + pointeeSize d := by ring
  have hbegin : (vbegin - base) / pointeeSize d ≤ i ↔ vbegin - base < (i + 1) * pointeeSize d := by
    rw [← Nat.lt_succ_iff, Nat.div_lt_iff_lt_mul hp]
  have hend : i < (vend - base + pointeeSize d - 1) / pointeeSize d ↔
      (i + 1) * pointeeSize d ≤ vend - base + pointeeSize d - 1 := by
    rw [Nat.lt_iff_add_one_le, Nat.le_div_iff_mul_le hp]
  rw [h.indexBegin_eq, h.indexEnd_eq, hbegin, hend, hsucc]
  omega

lemma shift_le (d base : ℕ) {i : ℕ} (hi : i ≤ 512) :
    i * pointeeSize d + base ≤ base + pointeeSize (d + 1) := by
  have := Nat.mul_le_mul_right (pointeeSize d) hi
  rw [pointeeSize_succ]
  omega

lemma nextVbegin_eq (h : Span d base vbegin vend) (i : Fin 512) :
    nextVbegin d vbegin i = max (base + i * pointeeSize d) vbegin := by
  have hshift := shift_le d base (i := i + 1) i.isLt
  have hp := pointeeSize_pos d
  have hbound := h.bound
  have hsucc : (i.val + 1) * pointeeSize d = i * pointeeSize d + pointeeSize d := by ring
  unfold nextVbegin
  rw [h.tableBase_eq, Nat.shiftLeft_eq, ← pointeeSize, uadd_of_lt (by omega), add_comm]

/-- The end of a share, as `assign` and `clear` form it, wraps around at the end of the address
space. -/
lemma nextVend_eq (h : Span d base vbegin vend) (i : Fin 512)
    (hi : base + (i + 1) * pointeeSize d < 2 ^ 64) :
    nextVend d vbegin vend i = min (base + (i + 1) * pointeeSize d) vend := by
  unfold nextVend
  rw [h.tableBase_eq, Nat.shiftLeft_eq, ← pointeeSize, uadd_of_lt (by omega), add_comm]

lemma editNextVend_eq (h : Span d base vbegin vend) (i : Fin 512) :
    editNextVend d vbegin vend i = min (base + (i + 1) * pointeeSize d) vend := by
  have hshift := shift_le d base (i := i + 1) i.isLt
  have hp := pointeeSize_pos d
  have hbound := h.bound
  have hend := h.vend_lt
  have hlt := h.lt
  have hsucc : (i.val + 1) * pointeeSize d = i * pointeeSize d + pointeeSize d := by ring
  unfold editNextVend usub uadd
  rw [h.tableBase_eq, Nat.shiftLeft_eq, ← pointeeSize]
  omega

lemma forEntries_eq {σ : Type} (h : Span d base vbegin vend)
    (body : Fin 512 → σ → Except Panic σ) (s : σ) :
    forEntries (indexBegin d vbegin) (indexEnd d vbegin vend) body s =
      Outcome.forEach body (indices d vbegin vend) s := by
  unfold indices
  exact if_pos h.indexEnd_le

lemma mem_indices_iff (h : Span d base vbegin vend) {i : Fin 512} :
    i ∈ indices d vbegin vend ↔
      vbegin < base + (i + 1) * pointeeSize d ∧ base + i * pointeeSize d < vend := by
  unfold indices
  simp only [List.mem_filter, List.mem_finRange, true_and, decide_eq_true_eq]
  exact h.mem_indices i

/-- The share of a visited entry, cut down to the range, is a span of the table below. -/
lemma child (h : Span (d + 1) base vbegin vend) {i : Fin 512}
    (hi : i ∈ indices (d + 1) vbegin vend) :
    Span d (base + i * pointeeSize (d + 1)) (max (base + i * pointeeSize (d + 1)) vbegin)
      (min (base + (i + 1) * pointeeSize (d + 1)) vend) := by
  have hshare := h.mem_indices_iff.mp hi
  have hp := pointeeSize_pos (d + 1)
  have hpage := pageSize_dvd_pointeeSize d
  have hdvd : pointeeSize (d + 1) ∣ base + i * pointeeSize (d + 1) :=
    (Nat.dvd_add_right h.base_dvd').mpr (Dvd.intro_left _ rfl)
  have hshift := shift_le (d + 1) base (i := i + 1) i.isLt
  have hbound := h.bound
  have hsucc : (i.val + 1) * pointeeSize (d + 1)
      = i * pointeeSize (d + 1) + pointeeSize (d + 1) := by ring
  have hva := h.vbegin_aligned
  have hve := h.vend_aligned
  have hlt := h.lt
  have hlow : 4096 ∣ base + i * pointeeSize (d + 1) := hpage.trans hdvd
  have hhigh : 4096 ∣ base + (i.val + 1) * pointeeSize (d + 1) := by
    rw [hsucc, ← Nat.add_assoc]
    exact (Nat.dvd_add_right hlow).mpr hpage
  refine ⟨(Nat.le_succ d).trans h.depth, hdvd, by omega, le_max_left _ _, ?_, ?_,
    (min_le_right _ _).trans_lt h.vend_lt, ?_, ?_⟩
  · rw [max_lt_iff, lt_min_iff, lt_min_iff]
    omega
  · rw [Nat.add_assoc, ← hsucc]
    exact min_le_left _ _
  · exact max_rec' (4096 ∣ ·) hlow hva
  · exact min_rec' (4096 ∣ ·) hhigh hve

end Span

/-! ### The path of an address -/

lemma tableIndex_val (d va : ℕ) : (tableIndex d va).val = va / pointeeSize d % 512 := by
  simp only [tableIndex]
  rw [Nat.and_comm, Nat.shiftRight_eq_div_pow, show 0x1ff = 2 ^ 9 - 1 by norm_num,
    Nat.and_two_pow_sub_one_eq_mod]
  rfl

/-- `tableIndex` finds the entry whose share holds the address. -/
lemma tableIndex_eq_iff {d base va : ℕ} (hd : pointeeSize (d + 1) ∣ base) (hlo : base ≤ va)
    (hhi : va < base + pointeeSize (d + 1)) (i : Fin 512) :
    tableIndex d va = i ↔
      base + i * pointeeSize d ≤ va ∧ va < base + (i + 1) * pointeeSize d := by
  have hp := pointeeSize_pos d
  obtain ⟨k, rfl⟩ := hd
  obtain ⟨r, rfl⟩ := Nat.exists_eq_add_of_le hlo
  rw [pointeeSize_succ] at hhi ⊢
  have hr : r / pointeeSize d < 512 := (Nat.div_lt_iff_lt_mul hp).mpr (by omega)
  have hindex : (tableIndex d (512 * pointeeSize d * k + r)).val = r / pointeeSize d := by
    rw [tableIndex_val, show 512 * pointeeSize d * k + r = r + pointeeSize d * (512 * k) by ring,
      Nat.add_mul_div_left _ _ hp, Nat.add_mul_mod_self_left, Nat.mod_eq_of_lt hr]
  rw [Fin.ext_iff, hindex, Nat.div_eq_iff hp]
  have hsucc : (i.val + 1) * pointeeSize d = i * pointeeSize d + pointeeSize d := by ring
  rw [hsucc]
  omega

/-- Addresses of one page belong to the same entry of every table. -/
lemma tableIndex_congr {va va' : ℕ} (h : va / 4096 = va' / 4096) (d : ℕ) :
    tableIndex (d + 1) va = tableIndex (d + 1) va' := by
  obtain ⟨k, hk⟩ := pageSize_dvd_pointeeSize d
  rw [Fin.ext_iff, tableIndex_val, tableIndex_val, hk, ← Nat.div_div_eq_div_mul, h,
    Nat.div_div_eq_div_mul]

/-- The indices on the way from a table of depth `d` to the page of an address. -/
def pathOf : ℕ → ℕ → List (Fin 512)
  | 0, _ => []
  | d + 1, va => tableIndex (d + 1) va :: pathOf d va

@[simp] lemma pathOf_zero (va : ℕ) : pathOf 0 va = [] := rfl

@[simp] lemma pathOf_succ (d va : ℕ) : pathOf (d + 1) va = tableIndex (d + 1) va :: pathOf d va :=
  rfl

lemma pathOf_congr {va va' : ℕ} (h : va / 4096 = va' / 4096) (d : ℕ) :
    pathOf d va = pathOf d va' := by
  induction d with
  | zero => rfl
  | succ d ih => rw [pathOf_succ, pathOf_succ, tableIndex_congr h, ih]

/-- The paths of the addresses of a range. -/
def pathsIn (d vbegin vend : ℕ) : Set (List (Fin 512)) :=
  {p | ∃ va, vbegin ≤ va ∧ va < vend ∧ pathOf d va = p}

lemma mem_pathsIn {d vbegin vend va : ℕ} (h1 : vbegin ≤ va) (h2 : va < vend) :
    pathOf d va ∈ pathsIn d vbegin vend := ⟨va, h1, h2, rfl⟩

namespace Span

variable {d base vbegin vend : ℕ}

/-- An address of the range lies in the cut-down range of its entry. -/
lemma mem_child_iff (h : Span d base vbegin vend) {va : ℕ} (i : Fin 512) :
    (vbegin ≤ va ∧ va < vend ∧ tableIndex d va = i) ↔
      max (base + i * pointeeSize d) vbegin ≤ va ∧
        va < min (base + (i + 1) * pointeeSize d) vend := by
  rw [max_le_iff, lt_min_iff]
  have hlo := h.lower
  have hup := h.upper
  have hshift := shift_le d base (i := i + 1) i.isLt
  constructor
  · rintro ⟨h1, h2, h3⟩
    have := (tableIndex_eq_iff h.base_dvd (by omega) (by omega) i).mp h3
    omega
  · rintro ⟨⟨h1, h2⟩, h3, h4⟩
    exact ⟨h2, h4, (tableIndex_eq_iff h.base_dvd (by omega) (by omega) i).mpr ⟨h1, h3⟩⟩

/-- An entry is visited when an address of the range belongs to it. -/
lemma tableIndex_mem_indices (h : Span d base vbegin vend) {va : ℕ} (h1 : vbegin ≤ va)
    (h2 : va < vend) : tableIndex d va ∈ indices d vbegin vend := by
  have hchild := (h.mem_child_iff (tableIndex d va)).mp ⟨h1, h2, rfl⟩
  rw [max_le_iff, lt_min_iff] at hchild
  rw [h.mem_indices_iff]
  omega

/-- The paths of the range that start with `i` lead into the cut-down range of entry `i`. -/
lemma pathsIn_child (h : Span (d + 1) base vbegin vend) (i : Fin 512) :
    {p | i :: p ∈ pathsIn (d + 1) vbegin vend} =
      pathsIn d (max (base + i * pointeeSize (d + 1)) vbegin)
        (min (base + (i + 1) * pointeeSize (d + 1)) vend) := by
  ext p
  simp only [pathsIn, pathOf_succ, List.cons.injEq, Set.mem_ofPred_eq]
  constructor
  · rintro ⟨va, h1, h2, h3, h4⟩
    have hva := (h.mem_child_iff i).mp ⟨h1, h2, h3⟩
    exact ⟨va, hva.1, hva.2, h4⟩
  · rintro ⟨va, h1, h2, h3⟩
    obtain ⟨h4, h5, h6⟩ := (h.mem_child_iff i).mpr ⟨h1, h2⟩
    exact ⟨va, h4, h5, h6, h3⟩

/-- An entry that is not visited has no path in the range. -/
lemma pathsIn_child_of_notMem (h : Span (d + 1) base vbegin vend) {i : Fin 512}
    (hi : i ∉ indices (d + 1) vbegin vend) : {p | i :: p ∈ pathsIn (d + 1) vbegin vend} = ∅ := by
  rw [h.pathsIn_child, Set.eq_empty_iff_forall_notMem]
  rintro p ⟨va, h1, h2, -⟩
  obtain ⟨h3, h4, h5⟩ := (h.mem_child_iff i).mpr ⟨h1, h2⟩
  exact hi (h5 ▸ h.tableIndex_mem_indices h3 h4)

end Span

/-! ### The ranges of the entry points -/

/-- What `validate_limits` accepts: a range in one of the two halves that does not reach the end of
the address space. A PML4 translates the last `2 ^ 48` bytes of the address space for a range of the
upper half. -/
lemma exists_span_of_validateLimits {address : ℕ} {len : ℤ} (haddress : address < 2 ^ 64)
    (hlen : len < 2 ^ 63) (h : validateLimits address len = .ok ()) :
    ∃ base, (base = 0 ∧ uaddIsize address len ≤ memLowHalfMax ∨
        base = 0xffff000000000000 ∧ memHighHalfMin ≤ address) ∧
      uaddIsize address len = address + len.toNat ∧
      Span PML4 base address (uaddIsize address len) := by
  have hsize : pointeeSize (PML4 + 1) = 2 ^ 48 := by decide
  unfold validateLimits at h
  rw [Outcome.bind_eq_ok] at h
  obtain ⟨_, haligned, h⟩ := h
  rw [Outcome.bind_eq_ok] at h
  obtain ⟨_, hpos, h⟩ := h
  rw [assert_eq_ok, decide_eq_true_iff] at haligned hpos
  simp only [pageSize] at haligned
  split_ifs at h with hlow
  · rw [assert_eq_ok, decide_eq_true_iff] at h
    have hsum : uaddIsize address len = address + len.toNat := by
      unfold uaddIsize
      simp only [memLowHalfMax] at hlow
      omega
    refine ⟨0, Or.inl ⟨rfl, h⟩, hsum, ⟨le_rfl, Dvd.intro 0 rfl, ?_, ?_, ?_, ?_, ?_, ?_, ?_⟩⟩
    all_goals simp only [memLowHalfMax] at h hlow
    all_goals omega
  · rw [Outcome.bind_eq_ok] at h
    obtain ⟨_, hbegin, h⟩ := h
    rw [assert_eq_ok, decide_eq_true_iff] at hbegin h
    have hsum : uaddIsize address len = address + len.toNat := by
      unfold uaddIsize at h ⊢
      simp only [memHighHalfMin] at hbegin h
      omega
    have hlt : uaddIsize address len < 2 ^ 64 := by
      unfold uaddIsize
      omega
    have hdvd : pointeeSize (PML4 + 1) ∣ 0xffff000000000000 := by decide
    refine ⟨0xffff000000000000, Or.inr ⟨rfl, hbegin⟩, hsum,
      ⟨le_rfl, hdvd, ?_, ?_, ?_, ?_, ?_, ?_, ?_⟩⟩
    all_goals simp only [memHighHalfMin] at hbegin h
    all_goals omega

end Fluke
