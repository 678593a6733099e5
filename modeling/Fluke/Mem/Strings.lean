import Fluke.Klib
import Fluke.Library.ByteMemory
import Fluke.Library.Outcome

/-!
# String functions

`memchr` and `memcmp` are string instructions of the processor. They stop at the first byte that
matches, or that differs.
-/

namespace Fluke

open Outcome ByteMemory

/-- `memchr` with a count that is not zero; without a match, the end of the range is returned. -/
def memchr (m : ByteMemory) (ch : BitVec 8) : ℕ → ℕ → ℕ
  | p, 0 => p
  | p, n + 1 => if m p = ch then p else memchr m ch (p + 1) n

/-- `memcmp`; without a byte to compare, the result depends on flags that nothing has set. -/
def memcmp (m : ByteMemory) : ℕ → ℕ → ℕ → Except Panic ℤ
  | _, _, 0 => .error .unsetFlags
  | lhs, rhs, n + 1 =>
    if m lhs = m rhs then if n = 0 then .ok 0 else memcmp m (lhs + 1) (rhs + 1) n
    else .ok (if m lhs < m rhs then -1 else 1)

/-- `memcpy`, from the first byte on -/
def memcpy (m : ByteMemory) : ℕ → ℕ → ℕ → ByteMemory
  | _, _, 0 => m
  | dest, src, n + 1 => memcpy (Function.update m dest (m src)) (dest + 1) (src + 1) n

variable {m : ByteMemory}

/-- The first match is found. -/
lemma memchr_eq {ch : BitVec 8} {l : List (BitVec 8)} :
    ∀ {p n : ℕ}, m.bytesAt p (l.length + 1) = l ++ [ch] → ch ∉ l → l.length < n →
      memchr m ch p n = p + l.length := by
  induction l with
  | nil =>
    intro p n hbytes _ hn
    obtain ⟨n, rfl⟩ := Nat.exists_eq_succ_of_ne_zero hn.ne'
    have hch : m p = ch := (List.cons.inj hbytes).1
    rw [memchr, if_pos hch]
    rfl
  | cons b l ih =>
    intro p n hbytes hch hn
    obtain ⟨n, rfl⟩ := Nat.exists_eq_succ_of_ne_zero (Nat.ne_zero_of_lt hn)
    rw [List.length_cons, bytesAt_succ, List.cons_append, List.cons.injEq] at hbytes
    obtain ⟨hb, hbytes⟩ := hbytes
    rw [List.length_cons] at hn
    have hne : m p ≠ ch := by
      rw [hb]
      exact (List.ne_of_not_mem_cons hch).symm
    rw [memchr, if_neg hne, ih hbytes (List.not_mem_of_not_mem_cons hch) (by omega),
      List.length_cons]
    omega

/-- The result is zero for equal ranges only. -/
lemma memcmp_eq {n : ℕ} : ∀ {lhs rhs : ℕ}, 0 < n → ∃ r, memcmp m lhs rhs n = .ok r ∧
    (r = 0 ↔ m.bytesAt lhs n = m.bytesAt rhs n) := by
  induction n with
  | zero =>
    intro lhs rhs h
    exact absurd h (Nat.lt_irrefl 0)
  | succ n ih =>
    intro lhs rhs _
    rw [memcmp, bytesAt_succ, bytesAt_succ, List.cons.injEq]
    split_ifs with heq hn hlt
    · refine ⟨0, rfl, ?_⟩
      rw [hn]
      simp [heq]
    · obtain ⟨r, hr, hiff⟩ := @ih (lhs + 1) (rhs + 1) (Nat.pos_of_ne_zero hn)
      exact ⟨r, hr, hiff.trans (and_iff_right heq).symm⟩
    · exact ⟨-1, rfl, iff_of_false (by decide) fun h => heq h.1⟩
    · exact ⟨1, rfl, iff_of_false (by decide) fun h => heq h.1⟩

/-- A range is copied to one that is apart from it, or that does not start behind it: the bytes that
are overwritten have been read. -/
lemma memcpy_eq {n : ℕ} : ∀ {m : ByteMemory} {dest src : ℕ},
    (src + n ≤ dest ∨ dest ≤ src) →
      memcpy m dest src n = m.writeBytes dest (m.bytesAt src n) := by
  induction n with
  | zero =>
    intro m dest src _
    funext x
    exact (writeBytes_of_out (by rw [length_bytesAt]; omega)).symm
  | succ n ih =>
    intro m dest src hapart
    have hkept : ∀ x, x ≠ dest → Function.update m dest (m src) x = m x := fun x hx =>
      Function.update_of_ne hx _ _
    have hbytes : ByteMemory.bytesAt (Function.update m dest (m src)) (src + 1) n =
        m.bytesAt (src + 1) n :=
      bytesAt_congr fun x hlow hhigh => hkept x (by omega)
    rw [memcpy, ih (by omega), hbytes, bytesAt_succ]
    funext x
    by_cases hx : x = dest
    · subst hx
      have hfirst : m.writeBytes x (m src :: m.bytesAt (src + 1) n) x = m src :=
        writeBytes_at m x (i := 0) (l := m src :: m.bytesAt (src + 1) n) (Nat.succ_pos _)
      rw [hfirst, writeBytes_of_out (Or.inl (Nat.lt_succ_self x))]
      exact Function.update_self ..
    · unfold writeBytes
      rw [hkept x hx]
      by_cases hle : dest + 1 ≤ x
      · have hindex : x - dest = (x - (dest + 1)) + 1 := by omega
        rw [if_pos hle, if_pos (by omega), hindex, List.getElem?_cons_succ]
      · rw [if_neg hle, if_neg (by omega)]

end Fluke
