import Fluke.Libc.Compare

/-!
# Length of a string

`strlen` looks at aligned blocks of sixteen bytes. The bytes of the first block that stand before
the string are shifted out of the mask of null bytes. The result is the one of the loop over bytes,
and no block behind the null byte is read.
-/

namespace Fluke.Libc

open ByteMemory

/-- `__m128i`, by bytes -/
abbrev M128i := Fin 16 → BitVec 8

/-- `_mm_cmpeq_epi8` -/
def cmpeqEpi8 (a b : M128i) : M128i := fun i => if a i = b i then 0xff else 0

/-- `_mm_movemask_epi8` -/
def movemaskEpi8 (a : M128i) : BitVec 32 :=
  (BitVec.ofBoolListLE (List.ofFn fun i => (a i).msb)).setWidth 32

/-- The block at an address -/
def loadBlock (m : ByteMemory) (ptr : ℕ) : M128i := fun i => m (ptr + i)

namespace Bytewise

/-- The loop of `strlen`; nothing is read outside of the address space. -/
def strlenLoop (m : ByteMemory) (str n : ℕ) : Option ℕ :=
  if str < 2 ^ 64 then
    if m str ≠ 0 then strlenLoop m (str + 1) (n + 1) else some n
  else none
termination_by 2 ^ 64 - str

/-- `strlen` byte by byte -/
def strlen (m : ByteMemory) (str : ℕ) : Option ℕ := strlenLoop m str 0

end Bytewise

namespace Sse2

/-- The loop of `strlen`: the length, and the blocks read -/
def strlenLoop (m : ByteMemory) (str ptr : ℕ) : Option (ℕ × List ℕ) :=
  if ptr < 2 ^ 64 then
    let mask := movemaskEpi8 (cmpeqEpi8 (fun _ => 0) (loadBlock m ptr))
    if mask ≠ 0 then some (uadd (usub ptr str) mask.ctz.toNat, [ptr])
    else (strlenLoop m str (ptr + 16)).map fun (n, reads) => (n, ptr :: reads)
  else none
termination_by 2 ^ 64 - ptr

/-- `strlen` block by block -/
def strlen (m : ByteMemory) (str : ℕ) : Option (ℕ × List ℕ) :=
  let alignOffset := str % 16
  let ptr := str - alignOffset
  if alignOffset ≠ 0 then
    let mask := (movemaskEpi8 (cmpeqEpi8 (fun _ => 0) (loadBlock m ptr))).sshiftRight alignOffset
    if mask ≠ 0 then some (mask.ctz.toNat, [ptr])
    else (strlenLoop m str (ptr + 16)).map fun (n, reads) => (n, ptr :: reads)
  else strlenLoop m str ptr

end Sse2

section

variable {m : ByteMemory} {ptr str n i : ℕ} {s : List (BitVec 8)}

/-! ### Masks -/

lemma mask_eq_zero {w : ℕ} {x : BitVec w} (h : ∀ j, x.getLsbD j = false) : x = 0 := by
  apply BitVec.eq_of_getLsbD_eq
  intro j _
  rw [h j]
  exact BitVec.getLsbD_zero.symm

lemma mask_ne_zero {w : ℕ} {x : BitVec w} (h : x.getLsbD i = true) : x ≠ 0 := by
  rintro rfl
  exact absurd (BitVec.getLsbD_zero.symm.trans h) Bool.false_ne_true

/-- The lowest bit set is the one that no lower one is set below. -/
lemma ctz_eq {w : ℕ} {x : BitVec w} (h : x.getLsbD i = true)
    (hbelow : ∀ j < i, x.getLsbD j = false) : x.ctz.toNat = i := by
  have hne := mask_ne_zero h
  rcases Nat.lt_trichotomy x.ctz.toNat i with hlt | heq | hgt
  · have hset := BitVec.getLsbD_true_ctz_of_ne_zero hne
    rw [hbelow _ hlt] at hset
    exact absurd hset Bool.false_ne_true
  · exact heq
  · rw [BitVec.getLsbD_false_of_lt_ctz hgt] at h
    exact absurd h Bool.false_ne_true

lemma getLsbD_movemaskEpi8 (a : M128i) (i : ℕ) :
    (movemaskEpi8 a).getLsbD i = if h : i < 16 then (a ⟨i, h⟩).msb else false := by
  rw [movemaskEpi8, BitVec.getLsbD_setWidth, BitVec.getLsbD_ofBoolListLE,
    List.getD_eq_getElem?_getD, List.getElem?_ofFn]
  split_ifs with h
  · rw [Option.getD_some, decide_eq_true (show i < 32 by omega), Bool.true_and]
  · rw [Option.getD_none, Bool.and_false]

lemma msb_cmpeqEpi8 (a b : M128i) (i : Fin 16) : (cmpeqEpi8 a b i).msb = decide (a i = b i) := by
  unfold cmpeqEpi8
  split_ifs with h
  · rw [decide_eq_true h]
    rfl
  · rw [decide_eq_false h]
    rfl

/-- The mask of the null bytes of a block -/
def nullMask (m : ByteMemory) (ptr : ℕ) : BitVec 32 :=
  movemaskEpi8 (cmpeqEpi8 (fun _ => 0) (loadBlock m ptr))

lemma getLsbD_nullMask (m : ByteMemory) (ptr i : ℕ) :
    (nullMask m ptr).getLsbD i = decide (i < 16 ∧ m (ptr + i) = 0) := by
  rw [nullMask, getLsbD_movemaskEpi8]
  split_ifs with h
  · rw [msb_cmpeqEpi8, decide_eq_decide, and_iff_right h]
    exact eq_comm
  · rw [decide_eq_false fun hand => h hand.1]

/-- The mask is not negative, so the shift fills it up with zeros. -/
lemma getLsbD_nullMask_sshiftRight (m : ByteMemory) (ptr k i : ℕ) :
    ((nullMask m ptr).sshiftRight k).getLsbD i = decide (k + i < 16 ∧ m (ptr + (k + i)) = 0) := by
  have hmsb : (nullMask m ptr).msb = false := by
    rw [BitVec.msb_eq_getLsbD_last, getLsbD_nullMask]
    rfl
  rw [BitVec.sshiftRight_eq_of_msb_false hmsb, BitVec.getLsbD_ushiftRight, getLsbD_nullMask]

/-! ### Blocks of a string -/

/-- In the block with the null byte, the lowest bit of the mask is the one of this byte. -/
lemma ctz_nullMask (h : IsString m str s) (hstr : str ≤ ptr) (hle : ptr ≤ str + s.length)
    (hlt : str + s.length < ptr + 16) :
    nullMask m ptr ≠ 0 ∧ (nullMask m ptr).ctz.toNat = str + s.length - ptr := by
  have hset : (nullMask m ptr).getLsbD (str + s.length - ptr) = true := by
    rw [getLsbD_nullMask, decide_eq_true_iff, Nat.add_sub_cancel' hle]
    exact ⟨by omega, h.null⟩
  refine ⟨mask_ne_zero hset, ctz_eq hset fun j hj => ?_⟩
  rw [getLsbD_nullMask, decide_eq_false_iff_not]
  rintro ⟨-, hzero⟩
  have hindex : ptr + j = str + (ptr + j - str) := by omega
  rw [hindex] at hzero
  exact h.ne_zero (by omega) hzero

/-- A block before the one with the null byte has an empty mask. -/
lemma nullMask_eq_zero (h : IsString m str s) (hstr : str ≤ ptr)
    (hle : ptr + 16 ≤ str + s.length) : nullMask m ptr = 0 := by
  apply mask_eq_zero
  intro j
  rw [getLsbD_nullMask, decide_eq_false_iff_not]
  rintro ⟨hj, hzero⟩
  have hindex : ptr + j = str + (ptr + j - str) := by omega
  rw [hindex] at hzero
  exact h.ne_zero (by omega) hzero

/-- The mask of the first block, without the bytes before the string -/
def firstMask (m : ByteMemory) (str : ℕ) : BitVec 32 :=
  (nullMask m (str - str % 16)).sshiftRight (str % 16)

lemma getLsbD_firstMask (m : ByteMemory) (str i : ℕ) :
    (firstMask m str).getLsbD i = decide (str % 16 + i < 16 ∧ m (str + i) = 0) := by
  have hindex : str - str % 16 + (str % 16 + i) = str + i := by omega
  rw [firstMask, getLsbD_nullMask_sshiftRight, hindex]

lemma ctz_firstMask (h : IsString m str s) (hlt : str % 16 + s.length < 16) :
    firstMask m str ≠ 0 ∧ (firstMask m str).ctz.toNat = s.length := by
  have hset : (firstMask m str).getLsbD s.length = true := by
    rw [getLsbD_firstMask, decide_eq_true_iff]
    exact ⟨hlt, h.null⟩
  refine ⟨mask_ne_zero hset, ctz_eq hset fun j hj => ?_⟩
  rw [getLsbD_firstMask, decide_eq_false_iff_not]
  rintro ⟨-, hzero⟩
  exact h.ne_zero hj hzero

lemma firstMask_eq_zero (h : IsString m str s) (hle : 16 ≤ str % 16 + s.length) :
    firstMask m str = 0 := by
  apply mask_eq_zero
  intro j
  rw [getLsbD_firstMask, decide_eq_false_iff_not]
  rintro ⟨hj, hzero⟩
  exact h.ne_zero (by omega) hzero

/-! ### The loops -/

lemma bytewise_strlenLoop (h : IsString m str s) (n : ℕ) :
    Bytewise.strlenLoop m str n = some (n + s.length) := by
  induction s generalizing str n with
  | nil =>
    have hzero : m str = 0 := h.nil
    rw [Bytewise.strlenLoop, if_pos h.start_lt, if_neg (not_not.mpr hzero)]
    rfl
  | cons x s ih =>
    have hne : m str ≠ 0 := by
      rw [h.head]
      exact h.head_ne
    rw [Bytewise.strlenLoop, if_pos h.start_lt, if_pos hne, ih h.tail, List.length_cons,
      Start.next_add]

/-- A block that is read lies on the way from `ptr` to the null byte. -/
def OnTheWay (ptr last : ℕ) (reads : List ℕ) : Prop := ∀ b ∈ reads, 16 ∣ b ∧ ptr ≤ b ∧ b ≤ last

lemma OnTheWay.cons {last : ℕ} {reads : List ℕ} (h : OnTheWay (ptr + 16) last reads)
    (hdvd : 16 ∣ ptr) (hle : ptr ≤ last) : OnTheWay ptr last (ptr :: reads) := by
  intro b hb
  rcases List.mem_cons.mp hb with rfl | hb
  · exact ⟨hdvd, le_rfl, hle⟩
  · obtain ⟨hb16, hlow, hhigh⟩ := h b hb
    exact ⟨hb16, by omega, hhigh⟩

lemma OnTheWay.single {last : ℕ} (hdvd : 16 ∣ ptr) (hle : ptr ≤ last) :
    OnTheWay ptr last [ptr] := by
  intro b hb
  rw [List.mem_singleton.mp hb]
  exact ⟨hdvd, le_rfl, hle⟩

lemma sse2_found (hptr : ptr < 2 ^ 64) (h : nullMask m ptr ≠ 0) :
    Sse2.strlenLoop m str ptr =
      some (uadd (usub ptr str) (nullMask m ptr).ctz.toNat, [ptr]) := by
  rw [Sse2.strlenLoop, if_pos hptr]
  exact if_pos h

lemma sse2_next (hptr : ptr < 2 ^ 64) (h : nullMask m ptr = 0) {reads : List ℕ}
    (hrest : Sse2.strlenLoop m str (ptr + 16) = some (n, reads)) :
    Sse2.strlenLoop m str ptr = some (n, ptr :: reads) := by
  rw [Sse2.strlenLoop, if_pos hptr, hrest]
  exact if_neg (not_not.mpr h)

/-- The loop ends in the block with the null byte. -/
lemma sse2_last (h : IsString m str s) (hstr : str ≤ ptr) (hle : ptr ≤ str + s.length)
    (hdvd : 16 ∣ ptr) (hlt : str + s.length < ptr + 16) :
    ∃ reads, Sse2.strlenLoop m str ptr = some (s.length, reads) ∧
      OnTheWay ptr (str + s.length) reads := by
  have hend := h.end_lt
  have hptr : ptr < 2 ^ 64 := by omega
  have hlength : uadd (usub ptr str) (str + s.length - ptr) = s.length := by
    rw [usub_of_le hstr hptr, uadd_of_lt (by omega)]
    omega
  obtain ⟨hne, hctz⟩ := ctz_nullMask h hstr hle hlt
  refine ⟨[ptr], ?_, OnTheWay.single hdvd hle⟩
  rw [sse2_found hptr hne, hctz, hlength]

/-- The loop finds the null byte in the blocks from `ptr` on. -/
lemma sse2_strlenLoop (h : IsString m str s) (k : ℕ) (hstr : str ≤ ptr)
    (hle : ptr ≤ str + s.length) (hdvd : 16 ∣ ptr) (hk : str + s.length < ptr + 16 * (k + 1)) :
    ∃ reads, Sse2.strlenLoop m str ptr = some (s.length, reads) ∧
      OnTheWay ptr (str + s.length) reads := by
  induction k generalizing ptr with
  | zero => exact sse2_last h hstr hle hdvd (by omega)
  | succ k ih =>
    by_cases hlt : str + s.length < ptr + 16
    · exact sse2_last h hstr hle hdvd hlt
    · have hend := h.end_lt
      have hnext : ptr + 16 ≤ str + s.length := Nat.le_of_not_lt hlt
      obtain ⟨reads, hreads, hway⟩ := ih (by omega) hnext (by omega) (by omega)
      exact ⟨ptr :: reads, sse2_next (by omega) (nullMask_eq_zero h hstr hnext) hreads,
        hway.cons hdvd hle⟩

/-- The result over blocks, which are all on the way from the first byte to the null byte -/
lemma sse2_strlen (h : IsString m str s) :
    ∃ reads, Sse2.strlen m str = some (s.length, reads) ∧
      OnTheWay (str - str % 16) (str + s.length) reads := by
  have hend := h.end_lt
  have hdvd : 16 ∣ str - str % 16 := Nat.dvd_sub_mod str
  by_cases halign : str % 16 ≠ 0
  · by_cases hlt : str % 16 + s.length < 16
    · obtain ⟨hne, hctz⟩ := ctz_firstMask h hlt
      refine ⟨[str - str % 16], ?_, OnTheWay.single hdvd (by omega)⟩
      rw [← hctz, Sse2.strlen]
      dsimp only
      rw [if_pos halign]
      exact if_pos hne
    · have hzero := firstMask_eq_zero h (Nat.le_of_not_lt hlt)
      obtain ⟨reads, hreads, hway⟩ := @sse2_strlenLoop m (str - str % 16 + 16) str s h s.length
        (by omega) (by omega) (by omega) (by omega)
      refine ⟨(str - str % 16) :: reads, ?_, hway.cons hdvd (by omega)⟩
      rw [Sse2.strlen]
      dsimp only
      rw [if_pos halign, hreads]
      exact if_neg (not_not.mpr hzero)
  · have hzero : str - str % 16 = str := by omega
    obtain ⟨reads, hreads, hway⟩ := @sse2_strlenLoop m str str s h s.length
      (by omega) (by omega) (by omega) (by omega)
    refine ⟨reads, ?_, ?_⟩
    · rw [Sse2.strlen]
      dsimp only
      rw [if_neg halign, hzero, hreads]
    · rw [hzero]
      exact hway

end

/-- Both loops give the length of the string. A block that is read is aligned, and lies between the
block of the first byte and the block of the null byte. -/
theorem strlen_blocks (m : ByteMemory) (str : ℕ) (s : List (BitVec 8)) (h : IsString m str s) :
    Bytewise.strlen m str = some s.length ∧
      ∃ reads, Sse2.strlen m str = some (s.length, reads) ∧
        ∀ b ∈ reads, 16 ∣ b ∧ str / 16 * 16 ≤ b ∧ b ≤ (str + s.length) / 16 * 16 := by
  constructor
  · rw [Bytewise.strlen, bytewise_strlenLoop h 0, Nat.zero_add]
  · obtain ⟨reads, hreads, hway⟩ := sse2_strlen h
    refine ⟨reads, hreads, fun b hb => ?_⟩
    obtain ⟨hdvd, hlow, hhigh⟩ := hway b hb
    exact ⟨hdvd, by omega, by omega⟩

/-- A string that starts one byte behind a null byte and ends in the next block -/
theorem strlen_blocks_unaligned :
    ∃ reads, Sse2.strlen (fun x => if x ∈ [0x1003, 0x1014] then 0 else 1) 0x1004 =
      some (16, reads) := by
  have h : IsString (fun x => if x ∈ [0x1003, 0x1014] then 0 else 1) 0x1004
      (List.replicate 16 1) := ⟨by decide, by decide, by decide⟩
  obtain ⟨-, reads, hreads, -⟩ := strlen_blocks _ _ _ h
  exact ⟨reads, hreads⟩

end Fluke.Libc
