import Mathlib.Tactic

/-!
# Slots in an array

An array of slots is filled at its first free slot. Where no slot is ever freed, it holds a list
from its start on, and an addition to the array is one to the end of the list.
-/

variable {α : Type*} {n : ℕ} {slots : Fin n → Option α} {l : List α}

/-- The first element with a property -/
lemma find_finRange {p : Fin n → Bool} {j : Fin n} (h : (List.finRange n).find? p = some j) :
    p j = true ∧ ∀ j' < j, p j' = false := by
  obtain ⟨hj, i, hi, rfl, hbefore⟩ := List.find?_eq_some_iff_getElem.mp h
  refine ⟨hj, fun j' hlt => ?_⟩
  rw [List.getElem_finRange] at hlt
  have hj' := hbefore j'.val hlt
  rw [List.getElem_finRange] at hj'
  simpa using hj'

/-- The first slot that is free -/
def firstFree (slots : Fin n → Option α) : Option (Fin n) :=
  (List.finRange n).find? fun i => (slots i).isNone

/-- The slots hold the list, from the first slot on. -/
def HoldsList (slots : Fin n → Option α) (l : List α) : Prop := ∀ i : Fin n, slots i = l[i.val]?

lemma holdsList_nil : HoldsList (fun _ : Fin n => (none : Option α)) [] := fun _ => rfl

/-- The first free slot is the one behind the list. -/
lemma HoldsList.firstFree_eq (h : HoldsList slots l) (hlt : l.length < n) :
    firstFree slots = some ⟨l.length, hlt⟩ := by
  have hfree : (slots ⟨l.length, hlt⟩).isNone = true := by
    rw [h, List.getElem?_eq_none le_rfl]
    rfl
  cases hfind : firstFree slots with
  | none =>
    have hused := List.find?_eq_none.mp hfind ⟨l.length, hlt⟩ (List.mem_finRange _)
    exact absurd hfree hused
  | some j =>
    obtain ⟨hj, hbefore⟩ := find_finRange hfind
    rw [h, Option.isNone_iff_eq_none, List.getElem?_eq_none_iff] at hj
    congr 1
    by_contra hne
    have hlt' : (⟨l.length, hlt⟩ : Fin n) < j := lt_of_le_of_ne hj (Ne.symm hne)
    rw [hbefore _ hlt'] at hfree
    cases hfree

lemma HoldsList.update (h : HoldsList slots l) (hlt : l.length < n) (x : α) :
    HoldsList (Function.update slots ⟨l.length, hlt⟩ (some x)) (l ++ [x]) := by
  intro i
  rcases Nat.lt_trichotomy i.val l.length with hi | hi | hi
  · have hne : i ≠ ⟨l.length, hlt⟩ := fun heq => hi.ne (congrArg Fin.val heq)
    rw [Function.update_of_ne hne, h, List.getElem?_append_left hi]
  · have heq : i = ⟨l.length, hlt⟩ := Fin.ext hi
    rw [heq, Function.update_self, List.getElem?_concat_length]
  · have hne : i ≠ ⟨l.length, hlt⟩ := fun heq => hi.ne' (congrArg Fin.val heq)
    rw [Function.update_of_ne hne, h, List.getElem?_eq_none hi.le, List.getElem?_eq_none]
    rw [List.length_append, List.length_singleton]
    exact hi
