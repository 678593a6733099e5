import Fluke.Mem.Pmm

/-!
# Bytes of physical memory

Pages are kept as words; a byte is known by the frame it lies in and its offset there. A store to
one byte is seen at that byte only.
-/

namespace Fluke

/-- Byte `k` of a word, the lowest first. -/
def wordByte (word : Word) (k : Fin 8) : BitVec 8 := word.extractLsb' (8 * k) 8

/-- The word with another byte `k`. -/
def setWordByte (word : Word) (k : Fin 8) (byte : BitVec 8) : Word :=
  (word &&& ~~~(0xff#64 <<< (8 * k.val))) ||| (byte.setWidth 64 <<< (8 * k.val))

lemma getLsbD_setWordByte (word : Word) (k : Fin 8) (byte : BitVec 8) {j : ℕ} (hj : j < 64) :
    (setWordByte word k byte).getLsbD j =
      if 8 * k.val ≤ j ∧ j < 8 * k.val + 8 then byte.getLsbD (j - 8 * k.val)
      else word.getLsbD j := by
  have hones : (0xff#64).getLsbD (j - 8 * k.val) = decide (j - 8 * k.val < 8) := by
    have h : 0xff#64 = (BitVec.allOnes 8).setWidth 64 := by decide
    rw [h, BitVec.getLsbD_setWidth, BitVec.getLsbD_allOnes]
    simp only [Bool.and_eq_right_iff_imp, decide_eq_true_eq]
    omega
  unfold setWordByte
  rw [BitVec.getLsbD_or, BitVec.getLsbD_and, BitVec.getLsbD_not, BitVec.getLsbD_shiftLeft,
    BitVec.getLsbD_shiftLeft, BitVec.getLsbD_setWidth, hones]
  by_cases hlow : j < 8 * k.val
  · rw [if_neg (by omega)]
    simp [hj, hlow]
  · by_cases hhigh : j < 8 * k.val + 8
    · rw [if_pos ⟨by omega, hhigh⟩]
      have hlt : j - 8 * k.val < 8 := by omega
      have hlt' : j - 8 * k.val < 64 := by omega
      simp [hj, hlow, hlt, hlt']
    · rw [if_neg (by omega)]
      have hge : ¬ j - 8 * k.val < 8 := by omega
      have hzero : byte.getLsbD (j - 8 * k.val) = false := BitVec.getLsbD_of_ge _ _ (by omega)
      simp [hj, hlow, hge, hzero]

lemma wordByte_setWordByte_self (word : Word) (k : Fin 8) (byte : BitVec 8) :
    wordByte (setWordByte word k byte) k = byte := by
  apply BitVec.eq_of_getLsbD_eq
  intro i hi
  have hk := k.isLt
  rw [wordByte, BitVec.getLsbD_extractLsb', getLsbD_setWordByte _ _ _ (by omega),
    if_pos ⟨by omega, by omega⟩, Nat.add_sub_cancel_left]
  simp [hi]

lemma wordByte_setWordByte_of_ne (word : Word) {k k' : Fin 8} (byte : BitVec 8) (h : k' ≠ k) :
    wordByte (setWordByte word k byte) k' = wordByte word k' := by
  apply BitVec.eq_of_getLsbD_eq
  intro i hi
  have hk := k'.isLt
  have hne : k'.val ≠ k.val := fun heq => h (Fin.ext heq)
  rw [wordByte, wordByte, BitVec.getLsbD_extractLsb', BitVec.getLsbD_extractLsb',
    getLsbD_setWordByte _ _ _ (by omega), if_neg (by omega)]

/-! ### Places -/

/-- The place of a byte in physical memory. -/
abbrev BytePlace := Frame × Fin 4096

/-- The place that a physical address names. -/
def placeOf (address : Word) : BytePlace :=
  (⟨address &&& tableEntryAddressMask, and_addressMask address⟩,
    ⟨address.toNat % 4096, Nat.mod_lt _ (by decide)⟩)

/-- The word of a page that a byte lies in. -/
def wordIndex (o : Fin 4096) : Fin 512 := ⟨o.val / 8, by omega⟩

/-- The byte of this word. -/
def byteIndex (o : Fin 4096) : Fin 8 := ⟨o.val % 8, by omega⟩

/-- A byte of physical memory. -/
def readByte (memory : Frame → Page) (p : BytePlace) : BitVec 8 :=
  wordByte (memory p.1 (wordIndex p.2)) (byteIndex p.2)

/-- Store one byte. -/
def Pmm.writeByte (s : Pmm) (p : BytePlace) (byte : BitVec 8) : Pmm :=
  s.setWord p.1 (wordIndex p.2) (setWordByte (s.memory p.1 (wordIndex p.2)) (byteIndex p.2) byte)

lemma Pmm.writeByte_of_ne_frame (s : Pmm) {p : BytePlace} (byte : BitVec 8) {g : Frame}
    (h : g ≠ p.1) : (s.writeByte p byte).memory g = s.memory g :=
  Pmm.setWord_of_ne_frame s _ _ h

lemma readByte_writeByte_self (s : Pmm) (p : BytePlace) (byte : BitVec 8) :
    readByte (s.writeByte p byte).memory p = byte := by
  unfold readByte Pmm.writeByte
  rw [Pmm.setWord_self, wordByte_setWordByte_self]

lemma readByte_writeByte_of_ne (s : Pmm) {p q : BytePlace} (byte : BitVec 8) (h : q ≠ p) :
    readByte (s.writeByte p byte).memory q = readByte s.memory q := by
  unfold readByte
  by_cases hframe : q.1 = p.1
  · have hoffset : q.2.val ≠ p.2.val := fun heq => h (Prod.ext hframe (Fin.ext heq))
    by_cases hword : wordIndex q.2 = wordIndex p.2
    · have hbyte : byteIndex q.2 ≠ byteIndex p.2 := by
        intro hbyte
        have h1 := congrArg Fin.val hword
        have h2 := congrArg Fin.val hbyte
        simp only [wordIndex, byteIndex] at h1 h2
        omega
      rw [hframe, hword, Pmm.writeByte, Pmm.setWord_self, wordByte_setWordByte_of_ne _ _ hbyte]
    · rw [hframe, Pmm.writeByte, Pmm.setWord_of_ne _ _ _ hword]
  · rw [Pmm.writeByte_of_ne_frame _ _ hframe]

/-- The address bits of an entry are above those of an offset in a page. -/
lemma and_addressMask_congr {x y : Word} (h : x.toNat / 4096 = y.toNat / 4096) :
    x &&& tableEntryAddressMask = y &&& tableEntryAddressMask := by
  have hshift : x >>> 12 = y >>> 12 := by
    apply BitVec.eq_of_toNat_eq
    rw [BitVec.toNat_ushiftRight, BitVec.toNat_ushiftRight, Nat.shiftRight_eq_div_pow,
      Nat.shiftRight_eq_div_pow]
    exact h
  have hmask : tableEntryAddressMask = (tableEntryAddressMask >>> 12) <<< 12 := by decide
  apply BitVec.eq_of_getLsbD_eq
  intro i hi
  rw [BitVec.getLsbD_and, BitVec.getLsbD_and]
  by_cases hlow : i < 12
  · have hzero : tableEntryAddressMask.getLsbD i = false := by
      rw [hmask, BitVec.getLsbD_shiftLeft]
      simp [hlow]
    rw [hzero, Bool.and_false, Bool.and_false]
  · have hbit := congrArg (fun w : Word => w.getLsbD (i - 12)) hshift
    simp only [BitVec.getLsbD_ushiftRight] at hbit
    rw [show 12 + (i - 12) = i by omega] at hbit
    rw [hbit]

/-- The bytes after a byte of a page, as long as the page lasts. -/
lemma placeOf_add {address : Word} {k : ℕ} (h : address.toNat % 4096 + k < 4096) :
    placeOf (address + BitVec.ofNat 64 k) =
      ((placeOf address).1, ⟨address.toNat % 4096 + k, h⟩) := by
  have hlt := address.isLt
  have hsum : (address + BitVec.ofNat 64 k).toNat = address.toNat + k := by
    rw [BitVec.toNat_add, BitVec.toNat_ofNat]
    omega
  refine Prod.ext ?_ (Fin.ext ?_)
  · have hmask := @and_addressMask_congr (address + BitVec.ofNat 64 k) address (by omega)
    simp only [placeOf, hmask]
  · show (address + BitVec.ofNat 64 k).toNat % 4096 = address.toNat % 4096 + k
    omega

end Fluke
