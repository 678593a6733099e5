import Fluke.X86.Mmu.Span

/-!
# Which entries a range touches

A `TableRange` is a span in the lower half, where user addresses lie. No sum wraps around there, so
the loop bounds and the cut-down ranges of the recursive functions are the ones the picture
suggests.
-/

namespace Fluke

/-- `[vbegin, vend)` is a page-aligned, non-empty part of what a table of depth `d` with base
address `base` translates. With `d = 0` this is a single page. -/
structure TableRange (d base vbegin vend : ℕ) : Prop where
  base_dvd : pointeeSize (d + 1) ∣ base
  bound : base + pointeeSize (d + 1) ≤ 2 ^ 48
  lower : base ≤ vbegin
  lt : vbegin < vend
  upper : vend ≤ base + pointeeSize (d + 1)
  vbegin_aligned : 4096 ∣ vbegin
  vend_aligned : 4096 ∣ vend

namespace TableRange

variable {d base vbegin vend : ℕ}

/-- A single page is translated as a whole or not at all. -/
lemma page (h : TableRange 0 base vbegin vend) : vbegin = base ∧ vend = base + 4096 := by
  obtain ⟨h1, -, h3, h4, h5, h6, h7⟩ := h
  have hsize : pointeeSize (0 + 1) = 4096 := by decide
  rw [hsize] at h1 h5
  omega

/-- A table of the lower half is at most a PML4. -/
lemma depth_le (h : TableRange d base vbegin vend) : d ≤ PML4 := by
  have hsize : pointeeSize (d + 1) ≤ 2 ^ 48 := (Nat.le_add_left _ _).trans h.bound
  have hshift := (Nat.pow_le_pow_iff_right (by decide)).mp hsize
  have hpml4 : PML4 = 4 := rfl
  unfold virtShift at hshift
  omega

lemma span (h : TableRange d base vbegin vend) : Span d base vbegin vend :=
  ⟨h.depth_le, h.base_dvd, h.bound.trans (by norm_num), h.lower, h.lt, h.upper,
    (h.upper.trans h.bound).trans_lt (by norm_num), h.vbegin_aligned, h.vend_aligned⟩

lemma shift_lt (h : TableRange d base vbegin vend) {i : ℕ} (hi : i ≤ 512) :
    i * pointeeSize d + base ≤ 2 ^ 48 :=
  (Span.shift_le d base hi).trans h.bound

lemma nextVbegin_eq (h : TableRange d base vbegin vend) (i : Fin 512) :
    nextVbegin d vbegin i = max (base + i * pointeeSize d) vbegin :=
  h.span.nextVbegin_eq i

lemma nextVend_eq (h : TableRange d base vbegin vend) (i : Fin 512) :
    nextVend d vbegin vend i = min (base + (i + 1) * pointeeSize d) vend := by
  have hshift := h.shift_lt (i := i + 1) i.isLt
  exact h.span.nextVend_eq i (by omega)

lemma forEntries_eq {σ : Type} (h : TableRange d base vbegin vend)
    (body : Fin 512 → σ → Except Panic σ) (s : σ) :
    forEntries (indexBegin d vbegin) (indexEnd d vbegin vend) body s =
      Outcome.forEach body (indices d vbegin vend) s :=
  h.span.forEntries_eq body s

lemma mem_indices_iff (h : TableRange d base vbegin vend) {i : Fin 512} :
    i ∈ indices d vbegin vend ↔
      vbegin < base + (i + 1) * pointeeSize d ∧ base + i * pointeeSize d < vend :=
  h.span.mem_indices_iff

/-- The share of a visited entry, cut down to the range, is a range of the table below. -/
lemma child (h : TableRange (d + 1) base vbegin vend) {i : Fin 512}
    (hi : i ∈ indices (d + 1) vbegin vend) :
    TableRange d (base + i * pointeeSize (d + 1)) (nextVbegin (d + 1) vbegin i)
      (nextVend (d + 1) vbegin vend i) := by
  have hspan := h.span.child hi
  have hshift := h.shift_lt (i := i + 1) i.isLt
  have hsucc : (i.val + 1) * pointeeSize (d + 1)
      = i * pointeeSize (d + 1) + pointeeSize (d + 1) := by ring
  rw [h.nextVbegin_eq, h.nextVend_eq]
  exact ⟨hspan.base_dvd, by omega, hspan.lower, hspan.lt, hspan.upper, hspan.vbegin_aligned,
    hspan.vend_aligned⟩

lemma pathsIn_nonempty (h : TableRange d base vbegin vend) : (pathsIn d vbegin vend).Nonempty :=
  ⟨_, mem_pathsIn le_rfl h.lt⟩

/-- An address of the range lies in the cut-down range of its entry. -/
lemma mem_child_iff (h : TableRange d base vbegin vend) {va : ℕ} (i : Fin 512) :
    (vbegin ≤ va ∧ va < vend ∧ tableIndex d va = i) ↔
      nextVbegin d vbegin i ≤ va ∧ va < nextVend d vbegin vend i := by
  rw [h.nextVbegin_eq, h.nextVend_eq]
  exact h.span.mem_child_iff i

/-- An entry is visited when an address of the range belongs to it. -/
lemma tableIndex_mem_indices (h : TableRange d base vbegin vend) {va : ℕ} (h1 : vbegin ≤ va)
    (h2 : va < vend) : tableIndex d va ∈ indices d vbegin vend :=
  h.span.tableIndex_mem_indices h1 h2

/-- The paths of the range that start with `i` lead into the cut-down range of entry `i`. -/
lemma pathsIn_child (h : TableRange (d + 1) base vbegin vend) (i : Fin 512) :
    {p | i :: p ∈ pathsIn (d + 1) vbegin vend} =
      pathsIn d (nextVbegin (d + 1) vbegin i) (nextVend (d + 1) vbegin vend i) := by
  rw [h.nextVbegin_eq, h.nextVend_eq]
  exact h.span.pathsIn_child i

/-- An entry that is not visited has no path in the range. -/
lemma pathsIn_child_of_notMem (h : TableRange (d + 1) base vbegin vend) {i : Fin 512}
    (hi : i ∉ indices (d + 1) vbegin vend) : {p | i :: p ∈ pathsIn (d + 1) vbegin vend} = ∅ :=
  h.span.pathsIn_child_of_notMem hi

end TableRange

/-- Two addresses of one table with one path lie in one page. -/
lemma page_eq_of_pathOf_eq {d base va va' : ℕ} (hd : pointeeSize (d + 1) ∣ base)
    (h1 : base ≤ va) (h2 : va < base + pointeeSize (d + 1)) (h1' : base ≤ va')
    (h2' : va' < base + pointeeSize (d + 1)) (h : pathOf d va = pathOf d va') :
    va / 4096 = va' / 4096 := by
  induction d generalizing base with
  | zero =>
    have hsize : pointeeSize (0 + 1) = 4096 := by decide
    rw [hsize] at hd h2 h2'
    omega
  | succ d ih =>
    simp only [pathOf_succ, List.cons.injEq] at h
    have hi := (tableIndex_eq_iff hd h1 h2 _).mp rfl
    have hi' := (tableIndex_eq_iff hd h1' h2' _).mp h.1.symm
    have hsucc : ((tableIndex (d + 1) va).val + 1) * pointeeSize (d + 1)
        = (tableIndex (d + 1) va) * pointeeSize (d + 1) + pointeeSize (d + 1) := by ring
    have hbase : pointeeSize (d + 1) ∣ base + tableIndex (d + 1) va * pointeeSize (d + 1) := by
      refine (Nat.dvd_add_right ?_).mpr (Dvd.intro_left _ rfl)
      rw [pointeeSize_succ] at hd
      exact (Dvd.intro_left 512 rfl).trans hd
    refine ih hbase ?_ ?_ ?_ ?_ h.2
    all_goals omega

/-- Every path of the right length is the path of an address. -/
lemma exists_pathOf {d base : ℕ} (hd : pointeeSize (d + 1) ∣ base) {p : List (Fin 512)}
    (hp : p.length = d) : ∃ va, base ≤ va ∧ va < base + pointeeSize (d + 1) ∧ pathOf d va = p := by
  induction d generalizing base p with
  | zero =>
    rw [List.length_eq_zero_iff] at hp
    exact ⟨base, le_rfl, Nat.lt_add_of_pos_right (pointeeSize_pos 1), hp.symm⟩
  | succ d ih =>
    obtain ⟨i, p, rfl⟩ := List.exists_cons_of_length_eq_add_one hp
    have hbase : pointeeSize (d + 1) ∣ base + i * pointeeSize (d + 1) := by
      refine (Nat.dvd_add_right ?_).mpr (Dvd.intro_left _ rfl)
      rw [pointeeSize_succ] at hd
      exact (Dvd.intro_left 512 rfl).trans hd
    obtain ⟨va, h1, h2, h3⟩ := ih hbase (by simpa using hp)
    have hsucc : (i.val + 1) * pointeeSize (d + 1)
        = i * pointeeSize (d + 1) + pointeeSize (d + 1) := by ring
    have hshare : (i.val + 1) * pointeeSize (d + 1) ≤ 512 * pointeeSize (d + 1) :=
      Nat.mul_le_mul_right _ i.isLt
    have hsize := pointeeSize_succ (d + 1)
    have hlo : base ≤ va := (Nat.le_add_right _ _).trans h1
    have hhi : va < base + pointeeSize (d + 1 + 1) := by omega
    refine ⟨va, hlo, hhi, ?_⟩
    rw [pathOf_succ, h3, (tableIndex_eq_iff hd hlo hhi i).mpr ⟨h1, by omega⟩]

end Fluke
