import Fluke.Mem.Strings

/-!
# Moving bytes

`memmove` copies forward where no byte is overwritten before it is read, and backward otherwise. In
both cases the destination holds what the source held before.
-/

namespace Fluke.Libc

open ByteMemory

/-- `memcpy`: the memory, and the value returned -/
def memcpy (m : ByteMemory) (dest src n : ℕ) : ByteMemory × ℕ := (Fluke.memcpy m dest src n, dest)

/-- The loop of `memmove`, from the last byte on -/
def moveBackwards (m : ByteMemory) : ℕ → ℕ → ℕ → ByteMemory
  | _, _, 0 => m
  | d, s, n + 1 =>
    moveBackwards (Function.update m (usub d 1) (m (usub s 1))) (usub d 1) (usub s 1) n

/-- `memmove` -/
def memmove (m : ByteMemory) (dest src n : ℕ) : ByteMemory × ℕ :=
  if dest < src then memcpy m dest src n
  else if uadd src n ≤ dest then memcpy m dest src n
  else (moveBackwards m (uadd dest n) (uadd src n) n, dest)

section

variable {m : ByteMemory} {dest src n : ℕ}

lemma usub_uadd_succ (h : dest + (n + 1) ≤ 2 ^ 64) :
    usub (uadd dest (n + 1)) 1 = dest + n := by
  unfold usub uadd
  omega

/-- The last byte is written before the others. -/
lemma writeBytes_last (m : ByteMemory) (dest : ℕ) (l : List (BitVec 8)) (b : BitVec 8) :
    m.writeBytes dest (l ++ [b]) =
      ByteMemory.writeBytes (Function.update m (dest + l.length) b) dest l := by
  funext x
  rcases Nat.lt_or_ge x dest with hbefore | hfrom
  · have hne : x ≠ dest + l.length := by omega
    rw [writeBytes_of_out (Or.inl hbefore), writeBytes_of_out (Or.inl hbefore),
      Function.update_of_ne hne]
  · obtain ⟨i, rfl⟩ := Nat.exists_eq_add_of_le hfrom
    rcases Nat.lt_trichotomy i l.length with hlt | rfl | hgt
    · have hlt' : i < (l ++ [b]).length := by
        rw [List.length_append]
        omega
      rw [writeBytes_at _ _ hlt', writeBytes_at _ _ hlt, List.getElem_append_left hlt]
    · have hlt' : l.length < (l ++ [b]).length := by
        rw [List.length_append]
        exact Nat.lt_succ_self _
      rw [writeBytes_at _ _ hlt', writeBytes_of_out (Or.inr le_rfl), Function.update_self,
        List.getElem_concat_length rfl]
    · have hne : dest + i ≠ dest + l.length := by omega
      have hout : dest + (l ++ [b]).length ≤ dest + i := by
        rw [List.length_append, List.length_singleton]
        omega
      rw [writeBytes_of_out (Or.inr hout), writeBytes_of_out (Or.inr (by omega)),
        Function.update_of_ne hne]

/-- A range is copied backward to one that does not start before it. -/
lemma moveBackwards_eq (hle : src ≤ dest) (hdest : dest + n ≤ 2 ^ 64) (hsrc : src + n ≤ 2 ^ 64) :
    moveBackwards m (uadd dest n) (uadd src n) n = m.writeBytes dest (m.bytesAt src n) := by
  induction n generalizing m with
  | zero =>
    funext x
    exact (writeBytes_of_out (by rw [length_bytesAt]; omega)).symm
  | succ n ih =>
    have hd : uadd dest n = dest + n := uadd_of_lt (by omega)
    have hs : uadd src n = src + n := uadd_of_lt (by omega)
    -- the byte that is overwritten lies behind the rest of the source
    have hrest : ByteMemory.bytesAt (Function.update m (dest + n) (m (src + n))) src n =
        m.bytesAt src n :=
      bytesAt_congr fun x _ hhigh => Function.update_of_ne (by omega) _ _
    rw [moveBackwards, usub_uadd_succ hdest, usub_uadd_succ hsrc, ← hd, ← hs,
      ih (by omega) (by omega), hd, hs, hrest, bytesAt_add, bytesAt_succ, bytesAt_zero,
      writeBytes_last, length_bytesAt]

lemma memmove_fst (hdest : dest + n ≤ 2 ^ 64) (hsrc : src + n ≤ 2 ^ 64) :
    (memmove m dest src n).1 = m.writeBytes dest (m.bytesAt src n) := by
  unfold memmove
  split_ifs with hlt hend
  · exact memcpy_eq (Or.inr hlt.le)
  · rcases Nat.lt_or_ge (src + n) (2 ^ 64) with hwrap | hwrap
    · rw [uadd_of_lt hwrap] at hend
      exact memcpy_eq (Or.inl hend)
    · -- the source ends with the address space, so the destination cannot start behind it
      exact memcpy_eq (Or.inr (by omega))
  · exact moveBackwards_eq (Nat.le_of_not_lt hlt) hdest hsrc

lemma memmove_snd : (memmove m dest src n).2 = dest := by
  unfold memmove memcpy
  split_ifs <;> rfl

end

/-- `memmove` leaves the source's bytes in the destination and changes nothing else, whether or not
the ranges overlap. -/
theorem memmove_moves (m : ByteMemory) (dest src n : ℕ) (hdest : dest + n ≤ 2 ^ 64)
    (hsrc : src + n ≤ 2 ^ 64) :
    (memmove m dest src n).2 = dest ∧
      (∀ i < n, (memmove m dest src n).1 (dest + i) = m (src + i)) ∧
      ∀ x, x < dest ∨ dest + n ≤ x → (memmove m dest src n).1 x = m x := by
  rw [memmove_fst hdest hsrc]
  refine ⟨memmove_snd, fun i hi => ?_, fun x hx => ?_⟩
  · have hi' : i < (m.bytesAt src n).length := by rwa [length_bytesAt]
    rw [writeBytes_at m dest hi', getElem_bytesAt]
  · apply writeBytes_of_out
    rwa [length_bytesAt]

theorem memmove_moves_overlap :
    (memmove (fun x => BitVec.ofNat 8 x) 0x1002 0x1000 4).1 (0x1002 + 3) =
      BitVec.ofNat 8 (0x1000 + 3) :=
  (memmove_moves (fun x => BitVec.ofNat 8 x) 0x1002 0x1000 4 (by decide) (by decide)).2.1 3
    (by decide)

end Fluke.Libc
