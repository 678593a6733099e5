import Mathlib.Tactic

/-!
# Forward links

Elements that know the one behind them. `Chained next p l e` says that the links lead from `p`
through the elements of `l` to `e`, which is the null pointer where the list ends. A list is found
again from its links when `e` is not in it.
-/

/-- The links lead from `p` through `l` to `e`. -/
def Chained {α : Type*} (next : α → α) : α → List α → α → Prop
  | p, [], e => p = e
  | p, a :: l, e => p = a ∧ Chained next (next a) l e

namespace Chained

variable {α : Type*} {next next' : α → α} {p e e' a : α} {l l' : List α}

@[simp] lemma nil : Chained next p [] e ↔ p = e := Iff.rfl

@[simp] lemma cons : Chained next p (a :: l) e ↔ p = a ∧ Chained next (next a) l e := Iff.rfl

lemma append : Chained next p (l ++ l') e ↔ ∃ q, Chained next p l q ∧ Chained next q l' e := by
  induction l generalizing p with
  | nil => simp
  | cons a l ih =>
    rw [List.cons_append, cons, ih]
    constructor
    · rintro ⟨rfl, q, hl, hl'⟩
      exact ⟨q, ⟨rfl, hl⟩, hl'⟩
    · rintro ⟨q, ⟨rfl, hl⟩, hl'⟩
      exact ⟨rfl, q, hl, hl'⟩

/-- The links of other elements do not matter. -/
lemma congr (h : Chained next p l e) (hsame : ∀ a ∈ l, next' a = next a) :
    Chained next' p l e := by
  induction l generalizing p with
  | nil => exact h
  | cons a l ih =>
    refine ⟨h.1, ?_⟩
    rw [hsame a List.mem_cons_self]
    exact ih h.2 fun b hb => hsame b (List.mem_cons_of_mem _ hb)

/-- Another link of the last element leads elsewhere. -/
lemma relink [DecidableEq α] (h : Chained next p (l ++ [a]) e) (ha : a ∉ l) (e' : α) :
    Chained (Function.update next a e') p (l ++ [a]) e' := by
  rw [append] at h ⊢
  obtain ⟨q, hl, hq, -⟩ := h
  refine ⟨q, hl.congr fun b hb => ?_, hq, ?_⟩
  · exact Function.update_of_ne (ne_of_mem_of_not_mem hb ha) _ _
  · exact Function.update_self ..

lemma eq_nil (h : Chained next e l e) (he : e ∉ l) : l = [] := by
  cases l with
  | nil => rfl
  | cons a l => exact absurd (h.1 ▸ List.mem_cons_self) he

/-- The links say which list it is. -/
lemma unique (h : Chained next p l e) (h' : Chained next p l' e) (he : e ∉ l) (he' : e ∉ l') :
    l = l' := by
  induction l generalizing p l' with
  | nil =>
    rw [nil] at h
    subst h
    exact (h'.eq_nil he').symm
  | cons a l ih =>
    obtain ⟨rfl, h⟩ := h
    cases l' with
    | nil =>
      rw [nil] at h'
      exact absurd (h' ▸ List.mem_cons_self) he
    | cons b l' =>
      obtain ⟨rfl, h'⟩ := h'
      rw [ih h h' (fun hmem => he (List.mem_cons_of_mem _ hmem))
        fun hmem => he' (List.mem_cons_of_mem _ hmem)]

end Chained
