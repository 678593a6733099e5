import Mathlib.Data.List.Sort
import Mathlib.Tactic

/-!
# Deadlines

Elements that wait until their deadlines. `due` puts those that wait, listed in the order in which
they began to, in the order in which they are due; elements with the same deadline stay in order.
A list that is kept in this order has a new element behind those that are not due later, and loses
those whose time has come at its front.
-/

namespace Deadlines

variable {N : Type*} {deadline deadline' : N → ℕ} {n m : N} {l waiting : List N}

/-- The elements in the order in which they are due -/
def due (deadline : N → ℕ) (waiting : List N) : List N :=
  waiting.insertionSort fun n m => deadline n ≤ deadline m

/-- An element comes behind those that are due earlier or at the same time. -/
def insert (deadline : N → ℕ) (n : N) : List N → List N
  | [] => [n]
  | m :: l => if deadline n < deadline m then n :: m :: l else m :: insert deadline n l

/-- No element is due before one in front of it. -/
def InOrder (deadline : N → ℕ) (l : List N) : Prop :=
  l.Pairwise fun n m => deadline n ≤ deadline m

@[simp] lemma due_nil : due deadline ([] : List N) = [] := rfl

@[simp] lemma mem_due : n ∈ due deadline waiting ↔ n ∈ waiting := List.mem_insertionSort _

lemma due_perm : (due deadline waiting).Perm waiting := List.perm_insertionSort _ _

lemma due_inOrder : InOrder deadline (due deadline waiting) :=
  List.pairwise_insertionSort _ _

/-- Only the deadlines of those that wait matter. -/
lemma due_congr (h : ∀ n ∈ waiting, deadline n = deadline' n) :
    due deadline waiting = due deadline' waiting := by
  have hmap := List.map_insertionSort (fun n m => deadline n ≤ deadline m)
    (fun n m => deadline' n ≤ deadline' m) id waiting fun a ha b hb => by
      rw [h a ha, h b hb]
      rfl
  simpa [due] using hmap

/-! ### One more element -/

lemma insert_orderedInsert : insert deadline n
      (l.orderedInsert (fun n m => deadline n ≤ deadline m) m) =
    (insert deadline n l).orderedInsert (fun n m => deadline n ≤ deadline m) m := by
  induction l with
  | nil =>
    simp only [List.orderedInsert_nil, insert, List.orderedInsert_cons]
    split_ifs <;> first | rfl | omega
  | cons a l ih =>
    simp only [List.orderedInsert_cons, insert]
    split_ifs <;> simp only [insert, List.orderedInsert_cons, ih] <;> split_ifs <;>
      first | rfl | omega

/-- An element that begins to wait comes behind those that are due earlier or at the same time. -/
lemma due_concat : due deadline (waiting ++ [n]) = insert deadline n (due deadline waiting) := by
  induction waiting with
  | nil => rfl
  | cons m waiting ih =>
    change (due deadline (waiting ++ [n])).orderedInsert _ m = _
    rw [ih]
    exact insert_orderedInsert.symm

/-- The place of a new element -/
lemma exists_insert_eq (deadline : N → ℕ) (n : N) (l : List N) :
    ∃ pre post, l = pre ++ post ∧ insert deadline n l = pre ++ n :: post ∧
      (∀ m ∈ pre, deadline m ≤ deadline n) ∧
        ∀ m, post.head? = some m → deadline n < deadline m := by
  induction l with
  | nil => exact ⟨[], [], rfl, rfl, by simp, by simp⟩
  | cons a l ih =>
    rw [insert]
    by_cases hlt : deadline n < deadline a
    · rw [if_pos hlt]
      refine ⟨[], a :: l, rfl, rfl, by simp, fun m hm => ?_⟩
      rw [List.head?_cons, Option.some_inj] at hm
      exact hm ▸ hlt
    · rw [if_neg hlt]
      obtain ⟨pre, post, rfl, heq, hpre, hpost⟩ := ih
      refine ⟨a :: pre, post, rfl, by rw [heq]; rfl, fun m hm => ?_, hpost⟩
      rcases List.mem_cons.mp hm with rfl | hm
      · exact Nat.le_of_not_lt hlt
      · exact hpre m hm

/-! ### Elements that leave -/

lemma orderedInsert_filter (p : N → Bool) (hl : InOrder deadline l) :
    (l.orderedInsert (fun n m => deadline n ≤ deadline m) n).filter p =
      if p n then (l.filter p).orderedInsert (fun n m => deadline n ≤ deadline m) n
      else l.filter p := by
  induction l with
  | nil => by_cases hn : p n <;> simp [hn]
  | cons a l ih =>
    obtain ⟨ha, hl⟩ := List.pairwise_cons.mp hl
    rw [List.orderedInsert_cons]
    by_cases hle : deadline n ≤ deadline a
    · rw [if_pos hle, List.filter_cons]
      split_ifs with hn
      · -- whatever is left is due after `a`
        have hall : ∀ b ∈ (a :: l).filter p, deadline n ≤ deadline b := fun b hb => by
          rcases List.mem_cons.mp (List.mem_of_mem_filter hb) with rfl | hb
          · exact hle
          · exact hle.trans (ha b hb)
        cases hfilter : (a :: l).filter p with
        | nil => rfl
        | cons b l' => rw [List.orderedInsert_cons, if_pos (hall b (by simp [hfilter]))]
      · rfl
    · rw [if_neg hle, List.filter_cons, ih hl, List.filter_cons]
      split_ifs with hpa hn hn
      · rw [List.orderedInsert_cons, if_neg hle]
      · rfl
      · rfl
      · rfl

/-- Those that stay are due in the same order. -/
lemma due_filter (p : N → Bool) :
    due deadline (waiting.filter p) = (due deadline waiting).filter p := by
  induction waiting with
  | nil => rfl
  | cons n waiting ih =>
    change _ = ((due deadline waiting).orderedInsert _ n).filter p
    rw [orderedInsert_filter p due_inOrder, ← ih, List.filter_cons]
    split_ifs
    · rfl
    · rfl

/-- Those whose time has come are in front. -/
lemma InOrder.filter_eq {pre post : List N} {now : ℕ} (h : InOrder deadline (pre ++ post))
    (hpre : ∀ n ∈ pre, deadline n < now) (hpost : ∀ n, post.head? = some n → now ≤ deadline n) :
    (pre ++ post).filter (fun n => deadline n < now) = pre ∧
      (pre ++ post).filter (fun n => now ≤ deadline n) = post := by
  have hlate : ∀ n ∈ post, now ≤ deadline n := by
    cases post with
    | nil => simp
    | cons a post =>
      intro n hn
      have ha : now ≤ deadline a := hpost a rfl
      rcases List.mem_cons.mp hn with rfl | hn
      · exact ha
      · exact ha.trans ((List.pairwise_cons.mp (List.pairwise_append.mp h).2.1).1 n hn)
  constructor
  · rw [List.filter_append, List.filter_eq_self.mpr, List.filter_eq_nil_iff.mpr, List.append_nil]
    · intro n hn
      simpa using hlate n hn
    · intro n hn
      simpa using hpre n hn
  · rw [List.filter_append, List.filter_eq_nil_iff.mpr, List.filter_eq_self.mpr, List.nil_append]
    · intro n hn
      simpa using hlate n hn
    · intro n hn
      simpa using hpre n hn

end Deadlines
