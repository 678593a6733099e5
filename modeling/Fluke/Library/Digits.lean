import Mathlib.Data.Nat.Digits.Lemmas
import Mathlib.Tactic

/-!
# Numerals

The numeral of a number in a base has its most significant digit first; that of zero has one
digit. Programs print a number in two loops: the first counts its digits, the second fills a
buffer with them from the end. `countDigits` and `fillDigits` are these loops, and
`fillDigits_numeral` says that they agree: what the second leaves behind the count of the first
is the numeral.
-/

namespace Digits

variable {α : Type*}

/-- The digits of `n`, the most significant first. -/
def numeral (b n : ℕ) : List ℕ := if n = 0 then [0] else (Nat.digits b n).reverse

/-- What a list of digits stands for, the most significant first. -/
def value (b : ℕ) (digits : List ℕ) : ℕ := digits.foldl (fun n d => n * b + d) 0

@[simp] lemma value_nil (b : ℕ) : value b [] = 0 := rfl

lemma value_append_singleton (b : ℕ) (digits : List ℕ) (d : ℕ) :
    value b (digits ++ [d]) = value b digits * b + d := by
  rw [value, List.foldl_append]
  rfl

/-- Zeros in front do not count. -/
lemma value_replicate_append (b k : ℕ) (digits : List ℕ) :
    value b (List.replicate k 0 ++ digits) = value b digits := by
  induction k with
  | zero => rfl
  | succ k ih =>
    rw [List.replicate_succ, List.cons_append, value, List.foldl_cons, zero_mul, zero_add]
    exact ih

@[simp] lemma numeral_zero (b : ℕ) : numeral b 0 = [0] := rfl

variable {b : ℕ}

/-- The numeral of a number with more than one digit. -/
lemma numeral_step (hb : 1 < b) {n : ℕ} (hn : b ≤ n) :
    numeral b n = numeral b (n / b) ++ [n % b] := by
  have hpos : 0 < n := by omega
  have hdiv : n / b ≠ 0 := (Nat.div_pos hn (by omega)).ne'
  rw [numeral, if_neg hpos.ne', numeral, if_neg hdiv, Nat.digits_def' hb hpos, List.reverse_cons]

/-- The numeral of a number with one digit. -/
lemma numeral_digit {n : ℕ} (hn : n < b) : numeral b n = [n] := by
  rcases Nat.eq_zero_or_pos n with rfl | hpos
  · rfl
  · rw [numeral, if_neg hpos.ne', Nat.digits_of_lt b n hpos.ne' hn, List.reverse_singleton]

/-- The value of a numeral is the number. -/
lemma value_numeral (hb : 1 < b) (n : ℕ) : value b (numeral b n) = n := by
  induction n using Nat.strong_induction_on with
  | _ n ih =>
    rcases lt_or_ge n b with hn | hn
    · rw [numeral_digit hn, value, List.foldl_cons, List.foldl_nil, zero_mul, zero_add]
    · rw [numeral_step hb hn, value_append_singleton, ih _ (Nat.div_lt_self (by omega) hb),
        Nat.mul_comm, Nat.div_add_mod]

lemma numeral_ne_nil (n : ℕ) : numeral b n ≠ [] := by
  rw [numeral]
  split_ifs with h
  · simp
  · simpa [Nat.digits_ne_nil_iff_ne_zero] using h

/-- Every digit is below the base. -/
lemma numeral_lt (hb : 1 < b) {n d : ℕ} (h : d ∈ numeral b n) : d < b := by
  rw [numeral] at h
  split_ifs at h with hn
  · rw [List.mem_singleton] at h
    omega
  · exact Nat.digits_lt_base hb (List.mem_reverse.mp h)

/-- A numeral does not start with a zero, except for that of zero. -/
lemma head_numeral (n : ℕ) (hn : n ≠ 0) (h : numeral b n ≠ []) : (numeral b n).head h ≠ 0 := by
  have hne : Nat.digits b n ≠ [] := Nat.digits_ne_nil_iff_ne_zero.mpr hn
  have heq : (numeral b n).head h = (Nat.digits b n).getLast hne := by
    simp only [numeral, if_neg hn, List.head_reverse]
  rw [heq]
  exact Nat.getLast_digit_ne_zero b hn

/-- A number below a power of the base has at most as many digits. -/
lemma length_numeral_le (hb : 1 < b) {n k : ℕ} (hk : 0 < k) (h : n < b ^ k) :
    (numeral b n).length ≤ k := by
  rw [numeral]
  split_ifs with hn
  · exact hk
  · rw [List.length_reverse]
    exact Nat.digits_length_le_iff hb n |>.mpr h

lemma value_eq_ofDigits (b : ℕ) (digits : List ℕ) :
    value b digits = Nat.ofDigits b digits.reverse := by
  induction digits using List.reverseRecOn with
  | nil => rfl
  | append_singleton digits d ih =>
    rw [value_append_singleton, ih, List.reverse_append, List.reverse_singleton,
      List.singleton_append, Nat.ofDigits_cons]
    ring

lemma value_lt (hb : 1 < b) {digits : List ℕ} (hlt : ∀ d ∈ digits, d < b) :
    value b digits < b ^ digits.length := by
  rw [value_eq_ofDigits, ← List.length_reverse]
  exact Nat.ofDigits_lt_base_pow_length hb fun d hd => hlt d (List.mem_reverse.mp hd)

/-- Digits without a zero in front are the numeral of their value. -/
lemma numeral_value (hb : 1 < b) {digits : List ℕ} (hne : digits ≠ [])
    (hlt : ∀ d ∈ digits, d < b) (hzero : digits.head hne = 0 → digits = [0]) :
    numeral b (value b digits) = digits := by
  by_cases hhead : digits.head hne = 0
  · have hvalue : value b [0] = 0 := value_replicate_append b 1 []
    rw [hzero hhead, hvalue, numeral_zero]
  · have hvalue : value b digits = Nat.ofDigits b digits.reverse := value_eq_ofDigits b digits
    have hdigits : Nat.digits b (value b digits) = digits.reverse := by
      rw [hvalue]
      refine Nat.digits_ofDigits b hb digits.reverse ?_ ?_
      · intro d hd
        exact hlt d (List.mem_reverse.mp hd)
      · intro hne'
        rwa [List.getLast_reverse]
    have hpos : value b digits ≠ 0 := by
      intro h
      rw [h, Nat.digits_zero] at hdigits
      exact hne (List.reverse_eq_nil_iff.mp hdigits.symm)
    rw [numeral, if_neg hpos, hdigits, List.reverse_reverse]

/-! ### The two loops -/

/-- The loop that counts: it takes a digit away until nothing is left. -/
def countLoop (b : ℕ) (hb : 1 < b) (n count : ℕ) : ℕ :=
  if n = 0 then count else countLoop b hb (n / b) (count + 1)
termination_by n
decreasing_by exact Nat.div_lt_self (by omega) hb

lemma countLoop_eq (hb : 1 < b) (n count : ℕ) :
    countLoop b hb n count = (Nat.digits b n).length + count := by
  induction n using Nat.strong_induction_on generalizing count with
  | _ n ih =>
    rw [countLoop]
    split_ifs with hn
    · simp [hn]
    · rw [ih _ (Nat.div_lt_self (by omega) hb), Nat.digits_def' hb (Nat.pos_of_ne_zero hn),
        List.length_cons]
      omega

lemma one_lt_ten : 1 < 10 := by decide

lemma one_lt_sixteen : 1 < 16 := by decide

/-- The number of digits that are printed for `n`. -/
def countDigits (b : ℕ) (hb : 1 < b) (n : ℕ) : ℕ := if n = 0 then 1 else countLoop b hb n 0

lemma countDigits_eq (hb : 1 < b) (n : ℕ) : countDigits b hb n = (numeral b n).length := by
  rw [countDigits, numeral]
  split_ifs with hn
  · rfl
  · rw [countLoop_eq, List.length_reverse, add_zero]

/-- Store to an array, within its bounds. -/
def store (buffer : List α) (i : ℕ) (a : α) : Option (List α) :=
  if i < buffer.length then some (buffer.set i a) else none

/-- The loop that fills the first `i` places of the buffer, the last one first. -/
def fillDigits (digit : ℕ → α) (next : ℕ → ℕ) : ℕ → ℕ → List α → Option (List α)
  | 0, _, buffer => some buffer
  | i + 1, n, buffer => do
    let buffer ← store buffer i (digit n)
    fillDigits digit next i (next n) buffer

/-- The low `k` digits of `n`, the most significant first. -/
def lowDigits (b : ℕ) : ℕ → ℕ → List ℕ
  | 0, _ => []
  | k + 1, n => lowDigits b k (n / b) ++ [n % b]

/-- As many digits as the numeral has are the numeral. -/
lemma lowDigits_length_numeral (hb : 1 < b) (n : ℕ) :
    lowDigits b (numeral b n).length n = numeral b n := by
  induction n using Nat.strong_induction_on with
  | _ n ih =>
    rcases lt_or_ge n b with hn | hn
    · rw [numeral_digit hn, List.length_singleton, lowDigits, lowDigits, List.nil_append,
        Nat.mod_eq_of_lt hn]
    · rw [numeral_step hb hn, List.length_append, List.length_singleton, lowDigits,
        ih _ (Nat.div_lt_self (by omega) hb)]

/-- The loop puts the low digits in front of what it does not reach. -/
lemma fillDigits_lowDigits (char : ℕ → α) (k n : ℕ) (buffer : List α)
    (h : k ≤ buffer.length) :
    fillDigits (fun n => char (n % b)) (· / b) k n buffer =
      some ((lowDigits b k n).map char ++ buffer.drop k) := by
  induction k generalizing n buffer with
  | zero => simp [fillDigits, lowDigits]
  | succ k ih =>
    have hdrop : (buffer.set k (char (n % b))).drop k = char (n % b) :: buffer.drop (k + 1) := by
      rw [List.drop_set, if_neg (lt_irrefl k), Nat.sub_self, List.drop_eq_getElem_cons (by omega),
        List.set_cons_zero]
    rw [fillDigits, store, if_pos (by omega)]
    show fillDigits (fun n => char (n % b)) (· / b) k (n / b) (buffer.set k (char (n % b))) = _
    rw [ih _ _ (by rw [List.length_set]; omega), hdrop, lowDigits, List.map_append,
      List.append_assoc]
    rfl

/-- The two loops agree: with the count of the first, the second writes the numeral. -/
lemma fillDigits_numeral (hb : 1 < b) (char : ℕ → α) (n : ℕ) (buffer : List α)
    (h : (numeral b n).length ≤ buffer.length) :
    fillDigits (fun n => char (n % b)) (· / b) (numeral b n).length n buffer =
      some ((numeral b n).map char ++ buffer.drop (numeral b n).length) := by
  rw [fillDigits_lowDigits char _ n buffer h, lowDigits_length_numeral hb]

end Digits
