import Mathlib.Tactic

/-!
# Bytes in memory

A memory gives a byte at every address. `bytesAt` reads a range and `writeBytes` overwrites one. A
cell is a word of 64 bits, which lies in memory as eight bytes, the lowest first. Nothing is written
outside of the range of a write, and what a range holds depends on nothing outside of it.
-/

/-- A byte at every address -/
abbrev ByteMemory := ℕ → BitVec 8

namespace ByteMemory

/-! ### Ranges -/

/-- The bytes of a range. -/
def bytesAt (m : ByteMemory) (a n : ℕ) : List (BitVec 8) := (List.range n).map fun i => m (a + i)

/-- Overwrite a range. -/
def writeBytes (m : ByteMemory) (a : ℕ) (l : List (BitVec 8)) : ByteMemory := fun x =>
  if a ≤ x then l[x - a]?.getD (m x) else m x

variable {m m' : ByteMemory} {a n x : ℕ} {l : List (BitVec 8)}

@[simp] lemma length_bytesAt (m : ByteMemory) (a n : ℕ) : (m.bytesAt a n).length = n := by
  simp [bytesAt]

@[simp] lemma bytesAt_zero (m : ByteMemory) (a : ℕ) : m.bytesAt a 0 = [] := rfl

lemma getElem_bytesAt (m : ByteMemory) (a n : ℕ) {i : ℕ} (h : i < (m.bytesAt a n).length) :
    (m.bytesAt a n)[i] = m (a + i) := by
  simp [bytesAt]

lemma bytesAt_succ (m : ByteMemory) (a n : ℕ) :
    m.bytesAt a (n + 1) = m a :: m.bytesAt (a + 1) n := by
  rw [bytesAt, bytesAt, List.range_succ_eq_map, List.map_cons, List.map_map]
  congr 1
  apply List.map_congr_left
  intro i _
  simp only [Function.comp_apply]
  congr 1
  omega

lemma bytesAt_add (m : ByteMemory) (a n k : ℕ) :
    m.bytesAt a (n + k) = m.bytesAt a n ++ m.bytesAt (a + n) k := by
  induction n generalizing a with
  | zero => simp
  | succ n ih =>
    rw [Nat.add_right_comm, bytesAt_succ, bytesAt_succ, ih, List.cons_append, Nat.add_right_comm,
      Nat.add_assoc]

/-- Two ranges in a row -/
lemma bytesAt_split {l' : List (BitVec 8)}
    (h : m.bytesAt a n = l ++ l') :
    m.bytesAt a l.length = l ∧ m.bytesAt (a + l.length) l'.length = l' := by
  have hn : n = l.length + l'.length := by
    rw [← List.length_append, ← h, length_bytesAt]
  rw [hn, bytesAt_add] at h
  exact List.append_inj h (length_bytesAt ..)

lemma bytesAt_take {k : ℕ} (h : k ≤ n) : m.bytesAt a k = (m.bytesAt a n).take k := by
  obtain ⟨j, rfl⟩ := Nat.exists_eq_add_of_le h
  rw [bytesAt_add, List.take_left' (length_bytesAt ..)]

lemma bytesAt_congr (h : ∀ x, a ≤ x → x < a + n → m x = m' x) : m.bytesAt a n = m'.bytesAt a n := by
  apply List.map_congr_left
  intro i hi
  rw [List.mem_range] at hi
  exact h _ (by omega) (by omega)

lemma bytesAt_eq_iff : m.bytesAt a l.length = l ↔ ∀ i (h : i < l.length), m (a + i) = l[i] := by
  constructor
  · intro h i hi
    rw [← getElem_bytesAt m a l.length (by simpa using hi)]
    exact List.getElem_of_eq h _
  · intro h
    refine List.ext_getElem (by simp) fun i hi hi' => ?_
    rw [getElem_bytesAt]
    exact h i hi'

lemma writeBytes_of_out (h : x < a ∨ a + l.length ≤ x) : m.writeBytes a l x = m x := by
  rw [writeBytes]
  split_ifs with hle
  · rw [List.getElem?_eq_none (by omega), Option.getD_none]
  · rfl

lemma writeBytes_at (m : ByteMemory) (a : ℕ) {i : ℕ} (h : i < l.length) :
    m.writeBytes a l (a + i) = l[i] := by
  rw [writeBytes, if_pos (Nat.le_add_right a i), Nat.add_sub_cancel_left,
    List.getElem?_eq_getElem h, Option.getD_some]

lemma bytesAt_writeBytes (m : ByteMemory) (a : ℕ) (l : List (BitVec 8)) :
    (m.writeBytes a l).bytesAt a l.length = l :=
  bytesAt_eq_iff.mpr fun _ h => writeBytes_at m a h

/-! ### Cells -/

/-- The lowest `k` bytes of a number, the lowest first. -/
def littleEndian : ℕ → ℕ → List (BitVec 8)
  | 0, _ => []
  | k + 1, n => BitVec.ofNat 8 n :: littleEndian k (n / 256)

/-- The number that bytes stand for, the lowest first. -/
def ofLittleEndian : List (BitVec 8) → ℕ
  | [] => 0
  | b :: l => b.toNat + 256 * ofLittleEndian l

@[simp] lemma length_littleEndian (k n : ℕ) : (littleEndian k n).length = k := by
  induction k generalizing n with
  | zero => rfl
  | succ k ih => rw [littleEndian, List.length_cons, ih]

lemma ofLittleEndian_littleEndian (k n : ℕ) :
    ofLittleEndian (littleEndian k n) = n % 256 ^ k := by
  induction k generalizing n with
  | zero => rw [littleEndian, ofLittleEndian, pow_zero, Nat.mod_one]
  | succ k ih =>
    have hbyte : 2 ^ 8 = 256 := rfl
    rw [littleEndian, ofLittleEndian, ih, BitVec.toNat_ofNat, hbyte, pow_succ']
    exact Nat.mod_mul.symm

/-- The cell at an address. -/
def load (m : ByteMemory) (a : ℕ) : BitVec 64 := BitVec.ofNat 64 (ofLittleEndian (m.bytesAt a 8))

/-- Overwrite the cell at an address. -/
def store (m : ByteMemory) (a : ℕ) (w : BitVec 64) : ByteMemory :=
  m.writeBytes a (littleEndian 8 w.toNat)

lemma store_of_out {w : BitVec 64} (h : x < a ∨ a + 8 ≤ x) : m.store a w x = m x := by
  apply writeBytes_of_out
  rwa [length_littleEndian]

lemma load_congr (h : ∀ x, a ≤ x → x < a + 8 → m x = m' x) : m.load a = m'.load a := by
  rw [load, load, bytesAt_congr h]

@[simp] lemma load_store (m : ByteMemory) (a : ℕ) (w : BitVec 64) : (m.store a w).load a = w := by
  have hbytes := bytesAt_writeBytes m a (littleEndian 8 w.toNat)
  rw [length_littleEndian] at hbytes
  rw [load, store, hbytes, ofLittleEndian_littleEndian]
  apply BitVec.eq_of_toNat_eq
  rw [BitVec.toNat_ofNat]
  have hlt := w.isLt
  omega

/-- Cells in a row. -/
def cellsAt (m : ByteMemory) (a n : ℕ) : List (BitVec 64) :=
  (List.range n).map fun i => m.load (a + 8 * i)

@[simp] lemma length_cellsAt (m : ByteMemory) (a n : ℕ) : (m.cellsAt a n).length = n := by
  simp [cellsAt]

lemma cellsAt_succ (m : ByteMemory) (a n : ℕ) :
    m.cellsAt a (n + 1) = m.cellsAt a n ++ [m.load (a + 8 * n)] := by
  rw [cellsAt, cellsAt, List.range_succ, List.map_append]
  rfl

lemma cellsAt_congr (h : ∀ x, a ≤ x → x < a + 8 * n → m x = m' x) :
    m.cellsAt a n = m'.cellsAt a n := by
  apply List.map_congr_left
  intro i hi
  rw [List.mem_range] at hi
  exact load_congr fun x hlow hhigh => h x (by omega) (by omega)

end ByteMemory
