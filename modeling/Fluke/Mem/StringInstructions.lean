import Fluke.Library.FirstDifference
import Fluke.Mem.Strings

/-!
# String routines in assembly

`memchr`, `memcmp`, `strlen` and `strnlen` are repeated string instructions. A repeated instruction
leaves the flags as they are when its count is zero, and the routines read the flags afterwards. The
direction flag says whether an instruction goes up or down in memory; no routine clears it.
-/

namespace Fluke.Start

open ByteMemory

/-! ### Instructions -/

/-- `ZF`, `CF` and `DF` -/
structure Flags where
  zf : Bool
  cf : Bool
  df : Bool
  deriving DecidableEq

/-- The flags that `cmp a, b` leaves. -/
def Flags.cmp (flags : Flags) (a b : BitVec 8) : Flags :=
  { flags with zf := decide (a = b), cf := decide (a < b) }

/-- The flags that `xor eax, eax` leaves. -/
def Flags.xorSelf (flags : Flags) : Flags := { flags with zf := true, cf := false }

/-- Where a string instruction goes from an address. -/
def Flags.next (flags : Flags) (p : ℕ) : ℕ := if flags.df then usub p 1 else uadd p 1

/-- `repne scasb` with the count in `rcx`: `rdi` and the flags -/
def repneScasb (m : ByteMemory) (al : BitVec 8) : ℕ → ℕ → Flags → ℕ × Flags
  | 0, rdi, flags => (rdi, flags)
  | rcx + 1, rdi, flags =>
    if (flags.cmp al (m rdi)).zf then (flags.next rdi, flags.cmp al (m rdi))
    else repneScasb m al rcx (flags.next rdi) (flags.cmp al (m rdi))

/-- `repe cmpsb` with the count in `rcx`: the flags. The first operand is at `rsi`. -/
def repeCmpsb (m : ByteMemory) : ℕ → ℕ → ℕ → Flags → Flags
  | 0, _, _, flags => flags
  | rcx + 1, rdi, rsi, flags =>
    if (flags.cmp (m rsi) (m rdi)).zf then
      repeCmpsb m rcx (flags.next rdi) (flags.next rsi) (flags.cmp (m rsi) (m rdi))
    else flags.cmp (m rsi) (m rdi)

/-! ### Routines -/

/-- `memchr` -/
def memchr (m : ByteMemory) (ptr : ℕ) (ch : BitVec 32) (count : ℕ) (flags : Flags) : ℕ :=
  let (rdi, flags) := repneScasb m (ch.setWidth 8) count ptr flags
  if flags.zf then usub rdi 1 else rdi

/-- `memcmp` -/
def memcmp (m : ByteMemory) (lhs rhs count : ℕ) (flags : Flags) : ℤ :=
  let flags := repeCmpsb m count lhs rhs flags
  if !flags.cf && !flags.zf then -1
  else if flags.cf then 1
  else 0

/-- `strlen` -/
def strlen (m : ByteMemory) (str : ℕ) (flags : Flags) : ℕ :=
  let (rdi, _) := repneScasb m 0 (2 ^ 64 - 1) str flags.xorSelf
  usub (usub rdi str) 1

/-- `strnlen` -/
def strnlen (m : ByteMemory) (str maxCount : ℕ) (flags : Flags) : ℕ :=
  let (rdi, flags) := repneScasb m 0 maxCount str flags.xorSelf
  if flags.zf then usub (usub rdi str) 1 else maxCount

/-! ### What the instructions leave -/

/-- The `i`-th address that a string instruction reaches -/
def Flags.along (flags : Flags) (p i : ℕ) : ℕ := if flags.df then usub p i else uadd p i

/-- The bytes that a string instruction reads -/
def Flags.bytes (flags : Flags) (m : ByteMemory) (p : ℕ) : ℕ → BitVec 8 :=
  fun i => m (flags.along p i)

/-- The bytes of a range that begins at `p` -/
def bytesUp (m : ByteMemory) (p : ℕ) : ℕ → BitVec 8 := fun i => m (p + i)

/-- The bytes below `p`, with the one at `p` -/
def bytesDown (m : ByteMemory) (p : ℕ) : ℕ → BitVec 8 := fun i => m (usub p i)

/-- One of the first `n` bytes matches, and none before it. -/
structure FirstMatch (f : ℕ → BitVec 8) (al : BitVec 8) (n i : ℕ) : Prop where
  lt : i < n
  eq : f i = al
  before : ∀ j < i, f j ≠ al

/-- None of the first `n` bytes matches. -/
def NoMatch (f : ℕ → BitVec 8) (al : BitVec 8) (n : ℕ) : Prop := ∀ i < n, f i ≠ al

section

variable {f g : ℕ → BitVec 8} {m : ByteMemory} {al : BitVec 8} {n p i : ℕ} {flags : Flags}

lemma FirstMatch.exists_or_noMatch (f : ℕ → BitVec 8) (al : BitVec 8) (n : ℕ) :
    (∃ i, FirstMatch f al n i) ∨ NoMatch f al n := by
  by_cases h : ∃ i, i < n ∧ f i = al
  · left
    refine ⟨Nat.find h, (Nat.find_spec h).1, (Nat.find_spec h).2, fun j hj heq => ?_⟩
    exact Nat.find_min h hj ⟨hj.trans (Nat.find_spec h).1, heq⟩
  · right
    intro i hi heq
    exact h ⟨i, hi, heq⟩

lemma FirstMatch.unique {j : ℕ} (h : FirstMatch f al n i) (h' : FirstMatch f al n j) : i = j := by
  rcases Nat.lt_trichotomy i j with hlt | heq | hlt
  · exact absurd h.eq (h'.before i hlt)
  · exact heq
  · exact absurd h'.eq (h.before j hlt)

lemma FirstMatch.not_noMatch (h : FirstMatch f al n i) : ¬ NoMatch f al n := fun hnone =>
  hnone i h.lt h.eq

lemma FirstMatch.congr (h : FirstMatch f al n i) (hfg : ∀ j ≤ i, g j = f j) :
    FirstMatch g al n i := by
  refine ⟨h.lt, ?_, fun j hj => ?_⟩
  · rw [hfg i le_rfl]
    exact h.eq
  · rw [hfg j hj.le]
    exact h.before j hj

lemma next_add (p j : ℕ) : p + 1 + j = p + (j + 1) := by omega

lemma Flags.cmp_zf {a b : BitVec 8} : (flags.cmp a b).zf = true ↔ a = b := by simp [cmp]

lemma Flags.cmp_cf {a b : BitVec 8} : (flags.cmp a b).cf = true ↔ a < b := by simp [cmp]

lemma Flags.along_zero (hp : p < 2 ^ 64) : flags.along p 0 = p := by
  unfold along usub uadd
  split_ifs <;> omega

lemma Flags.next_lt : flags.next p < 2 ^ 64 := by
  unfold next usub uadd
  split_ifs <;> omega

lemma Flags.along_one : flags.along p 1 = flags.next p := by
  rw [along, next]

lemma Flags.along_next (hp : p < 2 ^ 64) (hi : i < 2 ^ 64) :
    flags.along (flags.next p) i = flags.along p (i + 1) := by
  unfold along next usub uadd
  split_ifs <;> omega

lemma Flags.bytes_zero (hp : p < 2 ^ 64) : flags.bytes m p 0 = m p := by
  rw [bytes, along_zero hp]

lemma Flags.bytes_next (hp : p < 2 ^ 64) (hi : i < 2 ^ 64) :
    flags.bytes m (flags.next p) i = flags.bytes m p (i + 1) := by
  rw [bytes, bytes, along_next hp hi]

/-- Up to the end of the address space, the bytes are those of the range. -/
lemma Flags.bytes_up (hdf : flags.df = false) (hi : p + i < 2 ^ 64) :
    flags.bytes m p i = bytesUp m p i := by
  have hup : flags.along p i = p + i := by
    rw [along, hdf, if_neg Bool.false_ne_true, uadd_of_lt hi]
  rw [bytes, hup, bytesUp]

lemma Flags.bytes_down (hdf : flags.df = true) : flags.bytes m p = bytesDown m p := by
  funext i
  rw [bytes, bytesDown, along, hdf, if_pos rfl]

/-- The scan stops behind the first match. -/
lemma repneScasb_match (h : FirstMatch (flags.bytes m p) al n i) (hp : p < 2 ^ 64)
    (hn : n ≤ 2 ^ 64) :
    repneScasb m al n p flags = (flags.along p (i + 1), flags.cmp al al) := by
  induction n generalizing p i flags with
  | zero => exact absurd h.lt (Nat.not_lt_zero i)
  | succ n ih =>
    rw [repneScasb]
    cases i with
    | zero =>
      have heq : m p = al := by
        rw [← flags.bytes_zero (m := m) hp]
        exact h.eq
      rw [heq, if_pos (Flags.cmp_zf.mpr rfl), zero_add, Flags.along_one]
    | succ i =>
      have hne : m p ≠ al := by
        rw [← flags.bytes_zero (m := m) hp]
        exact h.before 0 (Nat.succ_pos i)
      have hlt := h.lt
      have hrest : FirstMatch ((flags.cmp al (m p)).bytes m (flags.next p)) al n i := by
        refine ⟨Nat.lt_of_succ_lt_succ h.lt, ?_, fun j hj => ?_⟩
        · exact (flags.bytes_next hp (by omega)).trans h.eq
        · exact (flags.bytes_next hp (by omega)).trans_ne (h.before (j + 1) (Nat.succ_lt_succ hj))
      rw [if_neg fun hz => hne (Flags.cmp_zf.mp hz).symm, ih hrest Flags.next_lt (by omega)]
      exact Prod.ext (flags.along_next hp (by omega)) rfl

/-- Without a match, the scan stops behind the range. -/
lemma repneScasb_end (h : NoMatch (flags.bytes m p) al n) (hpos : 0 < n) (hp : p < 2 ^ 64)
    (hn : n ≤ 2 ^ 64) : (repneScasb m al n p flags).1 = flags.along p n ∧
      (repneScasb m al n p flags).2.zf = false := by
  induction n generalizing p flags with
  | zero => exact absurd hpos (Nat.lt_irrefl 0)
  | succ n ih =>
    have hne : m p ≠ al := by
      rw [← flags.bytes_zero (m := m) hp]
      exact h 0 (Nat.succ_pos n)
    rw [repneScasb, if_neg fun hz => hne (Flags.cmp_zf.mp hz).symm]
    rcases Nat.eq_zero_or_pos n with rfl | hpos
    · refine ⟨?_, Bool.eq_false_iff.mpr fun hz => hne (Flags.cmp_zf.mp hz).symm⟩
      rw [zero_add, Flags.along_one, repneScasb]
    · have hrest : NoMatch ((flags.cmp al (m p)).bytes m (flags.next p)) al n := fun i hi =>
        (flags.bytes_next hp (by omega)).trans_ne (h (i + 1) (Nat.succ_lt_succ hi))
      obtain ⟨hend, hzf⟩ := ih hrest hpos Flags.next_lt (by omega)
      exact ⟨hend.trans (flags.along_next hp (by omega)), hzf⟩

variable {lhs rhs : ℕ}

/-- The comparison stops at the first difference. -/
lemma repeCmpsb_difference (h : FirstDifference (flags.bytes m lhs) (flags.bytes m rhs) n i)
    (hlhs : lhs < 2 ^ 64) (hrhs : rhs < 2 ^ 64) (hn : n ≤ 2 ^ 64) :
    repeCmpsb m n lhs rhs flags =
      flags.cmp (flags.bytes m rhs i) (flags.bytes m lhs i) := by
  induction n generalizing lhs rhs i flags with
  | zero => exact absurd h.lt (Nat.not_lt_zero i)
  | succ n ih =>
    rw [repeCmpsb]
    cases i with
    | zero =>
      have hne := h.ne
      rw [flags.bytes_zero hlhs, flags.bytes_zero hrhs] at hne ⊢
      rw [if_neg fun hz => hne (Flags.cmp_zf.mp hz).symm]
    | succ i =>
      have heq := h.before 0 (Nat.succ_pos i)
      rw [flags.bytes_zero hlhs, flags.bytes_zero hrhs] at heq
      have hlt := h.lt
      have hnext : ∀ q < 2 ^ 64, ∀ j ≤ i,
          (flags.cmp (m rhs) (m lhs)).bytes m (flags.next q) j = flags.bytes m q (j + 1) :=
        fun q hq j hj => flags.bytes_next hq (by omega)
      have hrest : FirstDifference ((flags.cmp (m rhs) (m lhs)).bytes m (flags.next lhs))
          ((flags.cmp (m rhs) (m lhs)).bytes m (flags.next rhs)) n i := by
        refine ⟨Nat.lt_of_succ_lt_succ h.lt, ?_, fun j hj => ?_⟩
        · rw [hnext lhs hlhs i le_rfl, hnext rhs hrhs i le_rfl]
          exact h.ne
        · rw [hnext lhs hlhs j hj.le, hnext rhs hrhs j hj.le]
          exact h.before (j + 1) (Nat.succ_lt_succ hj)
      rw [if_pos (Flags.cmp_zf.mpr heq.symm), ih hrest Flags.next_lt Flags.next_lt (by omega),
        hnext lhs hlhs i le_rfl, hnext rhs hrhs i le_rfl]
      rfl

/-- Equal ranges leave the flags of equal bytes. -/
lemma repeCmpsb_eq (h : ∀ i < n, flags.bytes m lhs i = flags.bytes m rhs i) (hpos : 0 < n)
    (hlhs : lhs < 2 ^ 64) (hrhs : rhs < 2 ^ 64) (hn : n ≤ 2 ^ 64) :
    repeCmpsb m n lhs rhs flags = { flags with zf := true, cf := false } := by
  induction n generalizing lhs rhs flags with
  | zero => exact absurd hpos (Nat.lt_irrefl 0)
  | succ n ih =>
    have heq := h 0 (Nat.succ_pos n)
    rw [flags.bytes_zero hlhs, flags.bytes_zero hrhs] at heq
    rw [repeCmpsb, if_pos (Flags.cmp_zf.mpr heq.symm)]
    rcases Nat.eq_zero_or_pos n with rfl | hpos
    · rw [repeCmpsb, Flags.cmp, heq]
      simp
    · refine ih (fun i hi => ?_) hpos Flags.next_lt Flags.next_lt (by omega)
      have hnext : ∀ q < 2 ^ 64,
          (flags.cmp (m rhs) (m lhs)).bytes m (flags.next q) i = flags.bytes m q (i + 1) :=
        fun q hq => flags.bytes_next hq (by omega)
      rw [hnext lhs hlhs, hnext rhs hrhs]
      exact h (i + 1) (Nat.succ_lt_succ hi)

/-- The bytes up to the first match are in the address space, or the whole range is. -/
def Readable (m : ByteMemory) (al : BitVec 8) (p n : ℕ) : Prop :=
  p + n ≤ 2 ^ 64 ∨ ∃ i < n, p + i < 2 ^ 64 ∧ m (p + i) = al

lemma Readable.firstMatch (h : Readable m al p n) (hi : FirstMatch (bytesUp m p) al n i) :
    p + i < 2 ^ 64 := by
  rcases h with hend | ⟨j, _, hj, heq⟩
  · have hlt := hi.lt
    omega
  · have hle : i ≤ j := by
      by_contra hlt
      exact hi.before j (Nat.lt_of_not_le hlt) heq
    omega

lemma Readable.end_le (h : Readable m al p n) (hnone : NoMatch (bytesUp m p) al n) :
    p + n ≤ 2 ^ 64 := by
  rcases h with hend | ⟨j, hlt, _, heq⟩
  · exact hend
  · exact absurd heq (hnone j hlt)

lemma Readable.lt (h : Readable m al p n) (hpos : 0 < n) : p < 2 ^ 64 := by
  rcases h with hend | ⟨j, _, hj, _⟩ <;> omega

/-- Going up, the scan reads what the contract speaks of. -/
lemma Readable.match_along (h : Readable m al p n) (hdf : flags.df = false)
    (hi : FirstMatch (bytesUp m p) al n i) : FirstMatch (flags.bytes m p) al n i := by
  have hend := h.firstMatch hi
  exact hi.congr fun j hj => Flags.bytes_up hdf (by omega)

lemma Readable.noMatch_along (h : Readable m al p n) (hdf : flags.df = false)
    (hnone : NoMatch (bytesUp m p) al n) : NoMatch (flags.bytes m p) al n := by
  have hend := h.end_le hnone
  intro i hi
  rw [Flags.bytes_up hdf (by omega)]
  exact hnone i hi

/-! ### Contracts -/

/-- `memchr` returns the first match, and null without one. -/
structure Finds (m : ByteMemory) (al : BitVec 8) (p n r : ℕ) : Prop where
  found : ∀ i, FirstMatch (bytesUp m p) al n i → r = p + i
  absent : NoMatch (bytesUp m p) al n → r = 0

/-- `strnlen` returns the index of the first null byte, and the bound without one. -/
structure Measures (m : ByteMemory) (p n r : ℕ) : Prop where
  found : ∀ i, FirstMatch (bytesUp m p) 0 n i → r = i
  absent : NoMatch (bytesUp m p) 0 n → r = n

lemma finds_match {r : ℕ} (h : FirstMatch (bytesUp m p) al n i) :
    Finds m al p n r ↔ r = p + i := by
  constructor
  · intro hfinds
    exact hfinds.found i h
  · intro hr
    refine ⟨fun j hj => ?_, fun hnone => absurd hnone h.not_noMatch⟩
    rw [hr, h.unique hj]

lemma finds_noMatch {r : ℕ} (h : NoMatch (bytesUp m p) al n) : Finds m al p n r ↔ r = 0 :=
  ⟨fun hfinds => hfinds.absent h, fun hr => ⟨fun _ hi => absurd h hi.not_noMatch, fun _ => hr⟩⟩

lemma measures_match {r : ℕ} (h : FirstMatch (bytesUp m p) 0 n i) :
    Measures m p n r ↔ r = i := by
  constructor
  · intro hmeasures
    exact hmeasures.found i h
  · intro hr
    refine ⟨fun j hj => ?_, fun hnone => absurd hnone h.not_noMatch⟩
    rw [hr, h.unique hj]

lemma measures_noMatch {r : ℕ} (h : NoMatch (bytesUp m p) 0 n) : Measures m p n r ↔ r = n :=
  ⟨fun hmeasures => hmeasures.absent h,
    fun hr => ⟨fun _ hi => absurd h hi.not_noMatch, fun _ => hr⟩⟩

/-! ### `memcmp` -/

/-- The flags of the last pair of bytes give the order of the pair. -/
lemma memcmp_of_cmp {a b : BitVec 8} (h : repeCmpsb m n lhs rhs flags = flags.cmp a b)
    (hne : a ≠ b) : memcmp m lhs rhs n flags ≠ 0 ∧ SignOf (memcmp m lhs rhs n flags) b a := by
  rw [memcmp, h]
  have hzf : (flags.cmp a b).zf = false :=
    Bool.eq_false_iff.mpr fun hz => hne (Flags.cmp_zf.mp hz)
  rcases BitVec.lt_trichotomy a b with hlt | heq | hgt
  · have hcf : (flags.cmp a b).cf = true := Flags.cmp_cf.mpr hlt
    have hback : ¬ b < a := BitVec.lt_asymm hlt
    simp [hzf, hcf, SignOf, hlt, hback]
  · exact absurd heq hne
  · have hback : ¬ a < b := BitVec.lt_asymm hgt
    have hcf : (flags.cmp a b).cf = false :=
      Bool.eq_false_iff.mpr fun hc => hback (Flags.cmp_cf.mp hc)
    simp [hzf, hcf, SignOf, hgt, hback]

/-- With a byte to compare, the bytes that the instruction reads are compared. -/
lemma memcmp_compares_along (hpos : 0 < n) (hlhs : lhs < 2 ^ 64) (hrhs : rhs < 2 ^ 64)
    (hn : n ≤ 2 ^ 64) :
    Compares (flags.bytes m lhs) (flags.bytes m rhs) n (memcmp m lhs rhs n flags) := by
  rcases FirstDifference.exists_or_eq (flags.bytes m lhs) (flags.bytes m rhs) n with ⟨i, hi⟩ | heq
  · have hflags := repeCmpsb_difference hi hlhs hrhs hn
    have hresult := memcmp_of_cmp hflags (Ne.symm hi.ne)
    exact (hi.compares_iff hresult.1).mpr hresult.2
  · have hzero : memcmp m lhs rhs n flags = 0 := by
      rw [memcmp, repeCmpsb_eq heq hpos hlhs hrhs hn]
      rfl
    rw [hzero]
    exact compares_zero heq

/-- Going up, the ranges are compared. -/
lemma memcmp_compares (hdf : flags.df = false) (hpos : 0 < n) (hlhs : lhs + n ≤ 2 ^ 64)
    (hrhs : rhs + n ≤ 2 ^ 64) :
    Compares (bytesUp m lhs) (bytesUp m rhs) n (memcmp m lhs rhs n flags) := by
  refine (memcmp_compares_along hpos (by omega) (by omega) (by omega)).congr (fun i hi => ?_)
    fun i hi => ?_
  · exact Flags.bytes_up hdf (by omega)
  · exact Flags.bytes_up hdf (by omega)

/-- Without a byte to compare, the flags at entry decide. -/
lemma memcmp_zero : memcmp m lhs rhs 0 flags = 0 ↔ flags.zf = true ∧ flags.cf = false := by
  rw [memcmp, repeCmpsb]
  rcases flags with ⟨zf, cf, df⟩
  cases zf <;> cases cf <;> simp

lemma memcmp_compares_zero :
    Compares (bytesUp m lhs) (bytesUp m rhs) 0 (memcmp m lhs rhs 0 flags) ↔
      flags.zf = true ∧ flags.cf = false := by
  have hnone : ∀ i < 0, bytesUp m lhs i = bytesUp m rhs i := fun i hi =>
    absurd hi (Nat.not_lt_zero i)
  rw [← @memcmp_zero m flags lhs rhs]
  constructor
  · intro h
    exact h.zero.mpr hnone
  · intro h
    rw [h]
    exact compares_zero hnone

/-- Going down, the contract is met where the bytes below the pointers compare as those of the
ranges do. -/
lemma memcmp_compares_iff (hpos : 0 < n) (hlhs : lhs + n ≤ 2 ^ 64) (hrhs : rhs + n ≤ 2 ^ 64) :
    Compares (bytesUp m lhs) (bytesUp m rhs) n (memcmp m lhs rhs n flags) ↔
      flags.df = false ∨ ∃ r, Compares (bytesUp m lhs) (bytesUp m rhs) n r ∧
        Compares (bytesDown m lhs) (bytesDown m rhs) n r := by
  cases hdf : flags.df with
  | false => exact iff_of_true (memcmp_compares hdf hpos hlhs hrhs) (Or.inl rfl)
  | true =>
    have hdown := @memcmp_compares_along m n flags lhs rhs hpos (by omega) (by omega) (by omega)
    rw [Flags.bytes_down hdf, Flags.bytes_down hdf] at hdown
    rw [or_iff_right (Bool.false_ne_true ∘ Eq.symm)]
    constructor
    · intro h
      exact ⟨_, h, hdown⟩
    · rintro ⟨r, hup, hr⟩
      exact hup.sign_eq_iff.mp (hr.sign_eq_iff.mpr hdown)

/-! ### `memchr` -/

/-- Going down, the scan ends where the answer is. -/
inductive FoundDown (m : ByteMemory) (al : BitVec 8) (p n : ℕ) : Prop
  | both {i j : ℕ} (hup : FirstMatch (bytesUp m p) al n i)
    (hdown : FirstMatch (bytesDown m p) al n j) (hend : i + j + 2 = 2 ^ 64)
  | up {i : ℕ} (hup : FirstMatch (bytesUp m p) al n i) (hdown : NoMatch (bytesDown m p) al n)
    (hend : i + n = 2 ^ 64)
  | down {j : ℕ} (hup : NoMatch (bytesUp m p) al n) (hdown : FirstMatch (bytesDown m p) al n j)
    (hend : (j + 2) % 2 ^ 64 = p)
  | none (hup : NoMatch (bytesUp m p) al n) (hdown : NoMatch (bytesDown m p) al n) (hend : n = p)

lemma usub_along_up (hdf : flags.df = false) (hend : p + i < 2 ^ 64) :
    usub (flags.along p (i + 1)) 1 = p + i := by
  rw [Flags.along, hdf, if_neg Bool.false_ne_true]
  unfold usub uadd
  omega

lemma usub_along_down (hdf : flags.df = true) (hi : i + 1 < 2 ^ 64) :
    usub (flags.along p (i + 1)) 1 = usub p (i + 2) := by
  rw [Flags.along, hdf, if_pos rfl]
  unfold usub
  omega

lemma along_down (hdf : flags.df = true) : flags.along p n = usub p n := by
  rw [Flags.along, hdf, if_pos rfl]

lemma along_up (hdf : flags.df = false) : flags.along p n = uadd p n := by
  rw [Flags.along, hdf, if_neg Bool.false_ne_true]

lemma memchr_match {ch : BitVec 32} (h : FirstMatch (flags.bytes m p) (ch.setWidth 8) n i)
    (hp : p < 2 ^ 64) (hn : n < 2 ^ 64) :
    memchr m p ch n flags = usub (flags.along p (i + 1)) 1 := by
  have hzf : (flags.cmp (ch.setWidth 8) (ch.setWidth 8)).zf = true := Flags.cmp_zf.mpr rfl
  rw [memchr, repneScasb_match h hp hn.le]
  simp only [hzf, if_true]

lemma memchr_end {ch : BitVec 32} (h : NoMatch (flags.bytes m p) (ch.setWidth 8) n)
    (hpos : 0 < n) (hp : p < 2 ^ 64) (hn : n < 2 ^ 64) :
    memchr m p ch n flags = flags.along p n := by
  obtain ⟨hend, hzf⟩ := repneScasb_end h hpos hp hn.le
  rw [memchr]
  simp only [hend, hzf, Bool.false_eq_true, if_false]

/-- An empty range: what the flags at entry make of the pointer. -/
lemma memchr_finds_zero {ch : BitVec 32} (h : Readable m (ch.setWidth 8) p 0) :
    Finds m (ch.setWidth 8) p 0 (memchr m p ch 0 flags) ↔ p = if flags.zf then 1 else 0 := by
  have hnone : NoMatch (bytesUp m p) (ch.setWidth 8) 0 := fun i hi => absurd hi (Nat.not_lt_zero i)
  have hend := h.end_le hnone
  have hempty : memchr m p ch 0 flags = if flags.zf then usub p 1 else p := rfl
  rw [finds_noMatch hnone, hempty]
  unfold usub
  split_ifs <;> omega

/-- Going up, `memchr` meets its contract where there is a match. Without one it returns the end of
the range, which is null at the end of the address space alone. -/
lemma memchr_finds_up {ch : BitVec 32} (h : Readable m (ch.setWidth 8) p n)
    (hdf : flags.df = false) (hpos : 0 < n) (hn : n < 2 ^ 64) :
    Finds m (ch.setWidth 8) p n (memchr m p ch n flags) ↔
      (∃ i < n, m (p + i) = ch.setWidth 8) ∨ p + n = 2 ^ 64 := by
  have hp := h.lt hpos
  rcases FirstMatch.exists_or_noMatch (bytesUp m p) (ch.setWidth 8) n with ⟨i, hi⟩ | hnone
  · refine iff_of_true ?_ (Or.inl ⟨i, hi.lt, hi.eq⟩)
    rw [finds_match hi, memchr_match (h.match_along hdf hi) hp hn]
    exact usub_along_up hdf (h.firstMatch hi)
  · have hend := h.end_le hnone
    have hno : ¬ ∃ i < n, m (p + i) = ch.setWidth 8 := fun ⟨i, hi, heq⟩ => hnone i hi heq
    rw [finds_noMatch hnone, or_iff_right hno,
      memchr_end (h.noMatch_along hdf hnone) hpos hp hn, along_up hdf]
    unfold uadd
    omega

lemma memchr_finds_down {ch : BitVec 32} (h : Readable m (ch.setWidth 8) p n)
    (hdf : flags.df = true) (hpos : 0 < n) (hn : n < 2 ^ 64) :
    Finds m (ch.setWidth 8) p n (memchr m p ch n flags) ↔ FoundDown m (ch.setWidth 8) p n := by
  have hp := h.lt hpos
  have hmatch : ∀ {j}, FirstMatch (bytesDown m p) (ch.setWidth 8) n j →
      memchr m p ch n flags = usub p (j + 2) := by
    intro j hj
    have hlt := hj.lt
    rw [← Flags.bytes_down hdf] at hj
    rw [memchr_match hj hp hn, usub_along_down hdf (by omega)]
  have hend : NoMatch (bytesDown m p) (ch.setWidth 8) n → memchr m p ch n flags = usub p n := by
    intro hnone
    rw [← Flags.bytes_down hdf] at hnone
    rw [memchr_end hnone hpos hp hn, along_down hdf]
  rcases FirstMatch.exists_or_noMatch (bytesUp m p) (ch.setWidth 8) n with ⟨i, hi⟩ | hup
  · have hlow := h.firstMatch hi
    have hlt := hi.lt
    rw [finds_match hi]
    rcases FirstMatch.exists_or_noMatch (bytesDown m p) (ch.setWidth 8) n with ⟨j, hj⟩ | hdown
    · have hlt' := hj.lt
      rw [hmatch hj]
      constructor
      · intro heq
        refine .both hi hj ?_
        unfold usub at heq
        omega
      · rintro (⟨hi', hj', heq⟩ | ⟨-, hno, -⟩ | ⟨hno, -, -⟩ | ⟨hno, -, -⟩)
        · rw [← hi.unique hi', ← hj.unique hj'] at heq
          unfold usub
          omega
        · exact absurd hno hj.not_noMatch
        · exact absurd hno hi.not_noMatch
        · exact absurd hno hi.not_noMatch
    · rw [hend hdown]
      constructor
      · intro heq
        refine .up hi hdown ?_
        unfold usub at heq
        omega
      · rintro (⟨-, hj', -⟩ | ⟨hi', -, heq⟩ | ⟨hno, -, -⟩ | ⟨hno, -, -⟩)
        · exact absurd hdown hj'.not_noMatch
        · rw [← hi.unique hi'] at heq
          unfold usub
          omega
        · exact absurd hno hi.not_noMatch
        · exact absurd hno hi.not_noMatch
  · rw [finds_noMatch hup]
    rcases FirstMatch.exists_or_noMatch (bytesDown m p) (ch.setWidth 8) n with ⟨j, hj⟩ | hdown
    · have hlt' := hj.lt
      rw [hmatch hj]
      constructor
      · intro heq
        refine .down hup hj ?_
        unfold usub at heq
        omega
      · rintro (⟨hi', -, -⟩ | ⟨hi', -, -⟩ | ⟨-, hj', heq⟩ | ⟨-, hno, -⟩)
        · exact absurd hup hi'.not_noMatch
        · exact absurd hup hi'.not_noMatch
        · rw [← hj.unique hj'] at heq
          unfold usub
          omega
        · exact absurd hno hj.not_noMatch
    · rw [hend hdown]
      constructor
      · intro heq
        refine .none hup hdown ?_
        unfold usub at heq
        omega
      · rintro (⟨hi', -, -⟩ | ⟨hi', -, -⟩ | ⟨-, hj', -⟩ | ⟨-, -, heq⟩)
        · exact absurd hup hi'.not_noMatch
        · exact absurd hup hi'.not_noMatch
        · exact absurd hdown hj'.not_noMatch
        · unfold usub
          omega

/-! ### `strlen` and `strnlen` -/

/-- The distance to the byte behind a match -/
lemma usub_next_up (hdf : flags.df = false) (hend : p + i < 2 ^ 64) :
    usub (usub (flags.along p (i + 1)) p) 1 = i := by
  rw [along_up hdf]
  unfold usub uadd
  omega

lemma usub_next_down (hdf : flags.df = true) (hp : p < 2 ^ 64) (hi : i + 1 < 2 ^ 64) :
    usub (usub (flags.along p (i + 1)) p) 1 = 2 ^ 64 - (i + 2) := by
  rw [along_down hdf]
  unfold usub
  omega

/-- Going up, the null byte is found, because the count is as large as the address space. Going
down, the distance comes out right only by the wrap of the address space. -/
lemma strlen_eq_iff (h : FirstMatch (bytesUp m p) 0 (n + 1) n) (hend : p + n < 2 ^ 64)
    (hpos : 0 < p) : strlen m p flags = n ↔
      flags.df = false ∨ ∃ j, FirstMatch (bytesDown m p) 0 (2 ^ 64 - 1) j ∧ n + j + 2 = 2 ^ 64 := by
  have hp : p < 2 ^ 64 := by omega
  cases hdf : flags.df with
  | false =>
    refine iff_of_true ?_ (Or.inl rfl)
    have hup : FirstMatch (bytesUp m p) 0 (2 ^ 64 - 1) n := ⟨by omega, h.eq, h.before⟩
    have hdf' : flags.xorSelf.df = false := hdf
    have hscan : FirstMatch (flags.xorSelf.bytes m p) 0 (2 ^ 64 - 1) n :=
      hup.congr fun j hj => Flags.bytes_up hdf' (by omega)
    rw [strlen, repneScasb_match hscan hp (by decide)]
    exact usub_next_up hdf' hend
  | true =>
    have hdf' : flags.xorSelf.df = true := hdf
    have hbytes : flags.xorSelf.bytes m p = bytesDown m p := Flags.bytes_down hdf'
    rw [or_iff_right (Bool.false_ne_true ∘ Eq.symm)]
    rcases FirstMatch.exists_or_noMatch (bytesDown m p) 0 (2 ^ 64 - 1) with ⟨j, hj⟩ | hdown
    · have hlt := hj.lt
      have hresult : strlen m p flags = 2 ^ 64 - (j + 2) := by
        rw [strlen, repneScasb_match (hbytes ▸ hj) hp (by decide)]
        exact usub_next_down hdf' hp (by omega)
      rw [hresult]
      constructor
      · intro heq
        exact ⟨j, hj, by omega⟩
      · rintro ⟨j', hj', heq⟩
        rw [← hj.unique hj'] at heq
        omega
    · have hfirst : n ≠ 0 := by
        rintro rfl
        refine hdown 0 (by decide) ?_
        rw [bytesDown, usub_of_le (Nat.zero_le p) hp]
        exact h.eq
      rw [← hbytes] at hdown
      obtain ⟨hrdi, -⟩ := repneScasb_end hdown (by decide) hp (by decide)
      have hresult : strlen m p flags = 0 := by
        rw [strlen]
        simp only [hrdi]
        rw [along_down hdf']
        unfold usub
        omega
      rw [hresult]
      refine iff_of_false (Ne.symm hfirst) ?_
      rintro ⟨j, hj, -⟩
      rw [hbytes] at hdown
      exact hj.not_noMatch hdown

/-- Going down, the scan ends where the answer is, or finds nothing where there is nothing. -/
inductive MeasuredDown (m : ByteMemory) (p n : ℕ) : Prop
  | both {i j : ℕ} (hup : FirstMatch (bytesUp m p) 0 n i)
    (hdown : FirstMatch (bytesDown m p) 0 n j) (hend : i + j + 2 = 2 ^ 64)
  | down {j : ℕ} (hup : NoMatch (bytesUp m p) 0 n) (hdown : FirstMatch (bytesDown m p) 0 n j)
    (hend : n + j + 2 = 2 ^ 64)
  | none (hup : NoMatch (bytesUp m p) 0 n) (hdown : NoMatch (bytesDown m p) 0 n)

lemma strnlen_match (h : FirstMatch (flags.xorSelf.bytes m p) 0 n i) (hp : p < 2 ^ 64)
    (hn : n < 2 ^ 64) :
    strnlen m p n flags = usub (usub (flags.xorSelf.along p (i + 1)) p) 1 := by
  have hzf : (flags.xorSelf.cmp 0 0).zf = true := Flags.cmp_zf.mpr rfl
  rw [strnlen, repneScasb_match h hp hn.le]
  simp only [hzf, if_true]

lemma strnlen_end (h : NoMatch (flags.xorSelf.bytes m p) 0 n) (hpos : 0 < n) (hp : p < 2 ^ 64)
    (hn : n < 2 ^ 64) : strnlen m p n flags = n := by
  obtain ⟨-, hzf⟩ := repneScasb_end h hpos hp hn.le
  rw [strnlen]
  simp only [hzf, Bool.false_eq_true, if_false]

/-- A bound of zero: `xor` leaves the flag of a match. -/
lemma not_strnlen_measures_zero (h : Readable m 0 p 0) :
    ¬ Measures m p 0 (strnlen m p 0 flags) := by
  intro hmeasures
  have hnone : NoMatch (bytesUp m p) 0 0 := fun i hi => absurd hi (Nat.not_lt_zero i)
  have hzero := hmeasures.absent hnone
  have hend := h.end_le hnone
  rw [strnlen, repneScasb] at hzero
  simp only [Flags.xorSelf, if_true] at hzero
  unfold usub at hzero
  omega

lemma strnlen_measures_up (h : Readable m 0 p n) (hdf : flags.df = false) (hpos : 0 < n)
    (hn : n < 2 ^ 64) : Measures m p n (strnlen m p n flags) := by
  have hp := h.lt hpos
  rcases FirstMatch.exists_or_noMatch (bytesUp m p) 0 n with ⟨i, hi⟩ | hnone
  · have hscan : FirstMatch (flags.xorSelf.bytes m p) 0 n i := h.match_along hdf hi
    rw [measures_match hi, strnlen_match hscan hp hn]
    exact usub_next_up hdf (h.firstMatch hi)
  · have hscan : NoMatch (flags.xorSelf.bytes m p) 0 n := h.noMatch_along hdf hnone
    rw [measures_noMatch hnone]
    exact strnlen_end hscan hpos hp hn

lemma strnlen_measures_down (h : Readable m 0 p n) (hdf : flags.df = true) (hpos : 0 < n)
    (hn : n < 2 ^ 64) : Measures m p n (strnlen m p n flags) ↔ MeasuredDown m p n := by
  have hp := h.lt hpos
  have hdf' : flags.xorSelf.df = true := hdf
  have hbytes : flags.xorSelf.bytes m p = bytesDown m p := Flags.bytes_down hdf'
  have hmatch : ∀ {j}, FirstMatch (bytesDown m p) 0 n j →
      strnlen m p n flags = 2 ^ 64 - (j + 2) := by
    intro j hj
    have hlt := hj.lt
    rw [strnlen_match (hbytes ▸ hj) hp hn]
    exact usub_next_down hdf' hp (by omega)
  have hend : NoMatch (bytesDown m p) 0 n → strnlen m p n flags = n := fun hnone =>
    strnlen_end (hbytes ▸ hnone) hpos hp hn
  rcases FirstMatch.exists_or_noMatch (bytesUp m p) 0 n with ⟨i, hi⟩ | hup
  · have hlt := hi.lt
    rw [measures_match hi]
    rcases FirstMatch.exists_or_noMatch (bytesDown m p) 0 n with ⟨j, hj⟩ | hdown
    · have hlt' := hj.lt
      rw [hmatch hj]
      constructor
      · intro heq
        exact .both hi hj (by omega)
      · rintro (⟨hi', hj', heq⟩ | ⟨hno, -, -⟩ | ⟨hno, -⟩)
        · rw [← hi.unique hi', ← hj.unique hj'] at heq
          omega
        · exact absurd hno hi.not_noMatch
        · exact absurd hno hi.not_noMatch
    · rw [hend hdown]
      refine iff_of_false hlt.ne' ?_
      rintro (⟨-, hj', -⟩ | ⟨hno, -, -⟩ | ⟨hno, -⟩)
      · exact absurd hdown hj'.not_noMatch
      · exact absurd hno hi.not_noMatch
      · exact absurd hno hi.not_noMatch
  · rw [measures_noMatch hup]
    rcases FirstMatch.exists_or_noMatch (bytesDown m p) 0 n with ⟨j, hj⟩ | hdown
    · have hlt' := hj.lt
      rw [hmatch hj]
      constructor
      · intro heq
        exact .down hup hj (by omega)
      · rintro (⟨hi', -, -⟩ | ⟨-, hj', heq⟩ | ⟨-, hno⟩)
        · exact absurd hup hi'.not_noMatch
        · rw [← hj.unique hj'] at heq
          omega
        · exact absurd hno hj.not_noMatch
    · exact iff_of_true (hend hdown) (.none hup hdown)

/-! ### The routines as their callers see them -/

/-- The comparison byte by byte is the one of the instruction. -/
theorem memcmp_refines (hdf : flags.df = false) (hpos : 0 < n) (hlhs : lhs + n ≤ 2 ^ 64)
    (hrhs : rhs + n ≤ 2 ^ 64) :
    Fluke.memcmp m lhs rhs n = .ok (memcmp m lhs rhs n flags) := by
  induction n generalizing lhs rhs flags with
  | zero => exact absurd hpos (Nat.lt_irrefl 0)
  | succ n ih =>
    rw [Fluke.memcmp]
    split_ifs with heq hzero hlt
    · have hz : memcmp m lhs rhs (n + 1) flags = 0 := by
        refine (memcmp_compares hdf hpos hlhs hrhs).zero.mpr fun i hi => ?_
        have hi0 : i = 0 := by omega
        rw [hi0]
        exact heq
      rw [hz]
    · have hnext : ∀ q, q + 1 < 2 ^ 64 → flags.next q = q + 1 := fun q hq => by
        rw [Flags.next, hdf, if_neg Bool.false_ne_true, uadd_of_lt hq]
      have hstep : memcmp m lhs rhs (n + 1) flags =
          memcmp m (lhs + 1) (rhs + 1) n (flags.cmp (m rhs) (m lhs)) := by
        rw [memcmp, memcmp, repeCmpsb, if_pos (Flags.cmp_zf.mpr heq.symm), hnext lhs (by omega),
          hnext rhs (by omega)]
      rw [hstep]
      exact ih hdf (Nat.pos_of_ne_zero hzero) (by omega) (by omega)
    · have hne : m rhs ≠ m lhs := Ne.symm heq
      have hback : ¬ m rhs < m lhs := BitVec.lt_asymm hlt
      rw [memcmp, repeCmpsb, if_neg fun hz => hne (Flags.cmp_zf.mp hz)]
      simp [Flags.cmp, hne, hback]
    · have hne : m rhs ≠ m lhs := Ne.symm heq
      have hgt : m rhs < m lhs := BitVec.lt_of_le_ne (BitVec.not_lt.mp hlt) hne
      rw [memcmp, repeCmpsb, if_neg fun hz => hne (Flags.cmp_zf.mp hz)]
      simp [Flags.cmp, hgt]

/-- The search byte by byte is the one of the instruction. -/
theorem memchr_refines {ch : BitVec 32} (hdf : flags.df = false) (hpos : 0 < n)
    (hend : p + n < 2 ^ 64) :
    memchr m p ch n flags = Fluke.memchr m (ch.setWidth 8) p n := by
  induction n generalizing p flags with
  | zero => exact absurd hpos (Nat.lt_irrefl 0)
  | succ n ih =>
    have hp : p < 2 ^ 64 := by omega
    rw [Fluke.memchr]
    split_ifs with heq
    · have hfirst : FirstMatch (flags.bytes m p) (ch.setWidth 8) (n + 1) 0 :=
        ⟨Nat.succ_pos n, (Flags.bytes_zero hp).trans heq, fun j hj => absurd hj (Nat.not_lt_zero j)⟩
      rw [memchr_match hfirst hp (by omega)]
      exact usub_along_up hdf hp
    · have hzf : ¬ (flags.cmp (ch.setWidth 8) (m p)).zf = true := fun hz =>
        heq (Flags.cmp_zf.mp hz).symm
      have hnext : flags.next p = p + 1 := by
        rw [Flags.next, hdf, if_neg Bool.false_ne_true, uadd_of_lt (by omega)]
      have hstep : memchr m p ch (n + 1) flags =
          memchr m (p + 1) ch n (flags.cmp (ch.setWidth 8) (m p)) := by
        rw [memchr, memchr, repneScasb, if_neg hzf, hnext]
      rw [hstep]
      rcases Nat.eq_zero_or_pos n with rfl | hpos
      · rw [memchr, repneScasb, Fluke.memchr]
        exact if_neg hzf
      · exact ih hdf hpos (by omega)

end

/-- When each routine does what its C contract says, for every state of the flags at entry. -/
theorem contracts_iff (m : ByteMemory) (flags : Flags) :
    (∀ lhs rhs n, lhs + n ≤ 2 ^ 64 → rhs + n ≤ 2 ^ 64 →
      (Compares (bytesUp m lhs) (bytesUp m rhs) n (memcmp m lhs rhs n flags) ↔
        if n = 0 then flags.zf = true ∧ flags.cf = false
        else flags.df = false ∨ ∃ r, Compares (bytesUp m lhs) (bytesUp m rhs) n r ∧
          Compares (bytesDown m lhs) (bytesDown m rhs) n r)) ∧
    (∀ ptr (ch : BitVec 32) n, Readable m (ch.setWidth 8) ptr n → n < 2 ^ 64 →
      (Finds m (ch.setWidth 8) ptr n (memchr m ptr ch n flags) ↔
        if n = 0 then ptr = if flags.zf then 1 else 0
        else if flags.df then FoundDown m (ch.setWidth 8) ptr n
        else (∃ i < n, m (ptr + i) = ch.setWidth 8) ∨ ptr + n = 2 ^ 64)) ∧
    (∀ str n, 0 < str → str + n < 2 ^ 64 → FirstMatch (bytesUp m str) 0 (n + 1) n →
      (strlen m str flags = n ↔ flags.df = false ∨
        ∃ j, FirstMatch (bytesDown m str) 0 (2 ^ 64 - 1) j ∧ n + j + 2 = 2 ^ 64)) ∧
    (∀ str n, Readable m 0 str n → n < 2 ^ 64 →
      (Measures m str n (strnlen m str n flags) ↔
        0 < n ∧ (flags.df = true → MeasuredDown m str n))) := by
  refine ⟨?_, ?_, ?_, ?_⟩
  · intro lhs rhs n hlhs hrhs
    split_ifs with hzero
    · rw [hzero]
      exact memcmp_compares_zero
    · exact memcmp_compares_iff (Nat.pos_of_ne_zero hzero) hlhs hrhs
  · intro ptr ch n hreadable hn
    rcases Nat.eq_zero_or_pos n with rfl | hpos
    · rw [if_pos rfl]
      exact memchr_finds_zero hreadable
    · rw [if_neg hpos.ne']
      cases hdf : flags.df with
      | false =>
        rw [if_neg Bool.false_ne_true]
        exact memchr_finds_up hreadable hdf hpos hn
      | true =>
        rw [if_pos rfl]
        exact memchr_finds_down hreadable hdf hpos hn
  · intro str n hpos hend hnul
    exact strlen_eq_iff hnul hend hpos
  · intro str n hreadable hn
    rcases Nat.eq_zero_or_pos n with rfl | hpos
    · exact iff_of_false (not_strnlen_measures_zero hreadable) fun h => absurd h.1 (Nat.lt_irrefl 0)
    · rw [and_iff_right hpos]
      cases hdf : flags.df with
      | false =>
        exact iff_of_true (strnlen_measures_up hreadable hdf hpos hn) fun h => absurd h (by decide)
      | true =>
        rw [strnlen_measures_down hreadable hdf hpos hn]
        exact ⟨fun h _ => h, fun h => h rfl⟩

/-- The strings `"ab"` and `"ac"` -/
def twoStrings : ByteMemory := fun x =>
  if x = 0x1000 ∨ x = 0x2000 then 0x61 else if x = 0x1001 then 0x62
  else if x = 0x2001 then 0x63 else 0

theorem contracts_twoStrings :
    Compares (bytesUp twoStrings 0x1000) (bytesUp twoStrings 0x2000) 2
        (memcmp twoStrings 0x1000 0x2000 2 ⟨false, true, false⟩) ∧
      Finds twoStrings 0x62 0x1000 3 (memchr twoStrings 0x1000 0x62 3 ⟨false, true, false⟩) ∧
      strlen twoStrings 0x1000 ⟨false, true, false⟩ = 2 ∧
      Measures twoStrings 0x1000 2 (strnlen twoStrings 0x1000 2 ⟨false, true, false⟩) := by
  have h := contracts_iff twoStrings ⟨false, true, false⟩
  refine ⟨?_, ?_, ?_, ?_⟩
  · exact (h.1 0x1000 0x2000 2 (by decide) (by decide)).mpr (Or.inl rfl)
  · refine (h.2.1 0x1000 0x62 3 (Or.inl (by decide)) (by decide)).mpr ?_
    exact Or.inl ⟨1, by decide, by decide⟩
  · have hnul : FirstMatch (bytesUp twoStrings 0x1000) 0 3 2 :=
      ⟨by decide, by decide, by decide⟩
    exact (h.2.2.1 0x1000 2 (by decide) (by decide) hnul).mpr (Or.inl rfl)
  · refine (h.2.2.2 0x1000 2 (Or.inl (by decide)) (by decide)).mpr ⟨by decide, fun hdf => ?_⟩
    exact absurd hdf (by decide)

/-- Flags left by an earlier instruction make two empty ranges differ, an empty range has a null
byte out of reach, and the end of a range is returned for a byte that is not in it. With the
direction flag set, the empty string is as long as the address space. -/
theorem contracts_counterexample :
    ¬ Compares (bytesUp (fun _ => 0) 0x1000) (bytesUp (fun _ => 0) 0x1000) 0
        (memcmp (fun _ => 0) 0x1000 0x1000 0 ⟨false, false, false⟩) ∧
      ¬ Measures (fun _ => 0) 0x1000 0 (strnlen (fun _ => 0) 0x1000 0 ⟨false, false, false⟩) ∧
      ¬ Finds (fun _ => 0) 1 0x1000 2 (memchr (fun _ => 0) 0x1000 1 2 ⟨false, false, false⟩) ∧
      FirstMatch (bytesUp (fun _ => 0) 0x1000) 0 1 0 ∧
      strlen (fun _ => 0) 0x1000 ⟨false, false, true⟩ ≠ 0 := by
  have hempty : FirstMatch (bytesUp (fun _ => 0) 0x1000) 0 1 0 :=
    ⟨by decide, rfl, fun j hj => absurd hj (Nat.not_lt_zero j)⟩
  refine ⟨fun h => ?_, fun h => ?_, fun h => ?_, hempty, fun h => ?_⟩
  · exact absurd (h.zero.mpr fun i hi => absurd hi (Nat.not_lt_zero i)) (by decide)
  · exact absurd (h.absent fun i hi => absurd hi (Nat.not_lt_zero i)) (by decide)
  · have hne : (0 : BitVec 8) ≠ 1 := by decide
    exact absurd (h.absent fun _ _ => hne) (by decide)
  · rcases (strlen_eq_iff hempty (by decide) (by decide)).mp h with hdf | ⟨j, hj, heq⟩
    · exact absurd hdf (by decide)
    · have hzero : j = 0 := by
        by_contra hne
        exact hj.before 0 (Nat.pos_of_ne_zero hne) rfl
      omega

end Fluke.Start
