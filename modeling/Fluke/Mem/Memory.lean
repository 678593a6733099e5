import Fluke.Klib

/-!
# User memory

User pointers lie below the high half; the system calls check the ranges they are given.
-/

namespace Fluke

/-- `MEMCPY_FAULT_READ` -/
abbrev memcpyFaultRead : ℕ := 1
/-- `MEMCPY_FAULT_WRITE` -/
abbrev memcpyFaultWrite : ℕ := 2

/-- `is_user_pointer` -/
def isUserPointer (v : ℕ) : Bool := v < memLowHalfMax

/-- `check_user_range` -/
def checkUserRange (v : ℕ) (len : ℤ) : Result Unit :=
  if isUserPointer v && isUserPointer (uaddIsize v (len - 1)) && len > 0 then .ok ()
  else .error .EFAULT

/-- A range that is accepted lies below the high half. -/
lemma checkUserRange_eq_ok {v : ℕ} {len : ℤ} (hlen : len < 2 ^ 63) :
    checkUserRange v len = .ok () ↔ 0 < len ∧ v + len ≤ memLowHalfMax := by
  unfold checkUserRange isUserPointer
  constructor
  · intro h
    split_ifs at h with hcond
    simp only [Bool.and_eq_true, decide_eq_true_eq] at hcond
    obtain ⟨⟨hv, hend⟩, hpos⟩ := hcond
    simp only [memLowHalfMax] at hv hend ⊢
    rw [uaddIsize_of_nonneg (by omega) (by omega)] at hend
    omega
  · rintro ⟨hpos, hle⟩
    simp only [memLowHalfMax] at hle ⊢
    refine if_pos ?_
    simp only [Bool.and_eq_true, decide_eq_true_eq]
    rw [uaddIsize_of_nonneg (by omega) (by omega)]
    omega

/-- `copy_from_user`, with the bytes that end in the kernel's buffer. `memory` is what can be read
in the current address space. -/
def copyFromUser (memory : ℕ → Option (BitVec 8)) (src : ℕ) (size : ℤ) :
    Result (List (BitVec 8)) := do
  checkUserRange src size
  match (List.range size.toNat).mapM fun i => memory (src + i) with
  | some bytes => .ok bytes
  | none => .error .EFAULT

end Fluke
