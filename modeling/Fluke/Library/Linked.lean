import Mathlib.Tactic

/-!
# Linked lists

The elements of a doubly linked list know their neighbours. `Linked next prev back l` says that
the links `next` and `prev` describe the list `l`; what an element keeps as its back link is made
by `back` of the element in front of it, so that it may be that element itself or the place of
its forward link.

Inserting and removing an element changes one forward link and one back link besides its own.
-/

namespace List

variable {N : Type*}

/-- Where an element of a list with a marked element lies. -/
lemma append_cons_eq_append_cons_iff {pre post a b : List N} {n m : N} :
    pre ++ n :: post = a ++ m :: b ↔
      (pre = a ∧ n = m ∧ post = b) ∨ (∃ c, pre = a ++ m :: c ∧ b = c ++ n :: post) ∨
        ∃ c, post = c ++ m :: b ∧ a = pre ++ n :: c := by
  induction pre generalizing a with
  | nil =>
    cases a with
    | nil => simp
    | cons x a =>
      simp only [nil_append, cons_append, cons.injEq]
      constructor
      · rintro ⟨rfl, hpost⟩
        exact Or.inr (Or.inr ⟨a, hpost, rfl, rfl⟩)
      · rintro (⟨h, -⟩ | ⟨c, h, -⟩ | ⟨c, rfl, rfl, rfl⟩)
        · simp at h
        · simp at h
        · exact ⟨rfl, rfl⟩
  | cons x pre ih =>
    cases a with
    | nil =>
      simp only [nil_append, cons_append, cons.injEq]
      constructor
      · rintro ⟨rfl, hb⟩
        exact Or.inr (Or.inl ⟨pre, ⟨rfl, rfl⟩, hb.symm⟩)
      · rintro (⟨h, -⟩ | ⟨c, ⟨rfl, rfl⟩, rfl⟩ | ⟨c, -, h⟩)
        · simp at h
        · exact ⟨rfl, rfl⟩
        · simp at h
    | cons y a =>
      simp only [cons_append, cons.injEq, ih]
      constructor
      · rintro ⟨rfl, ⟨rfl, rfl, rfl⟩ | ⟨c, rfl, rfl⟩ | ⟨c, rfl, rfl⟩⟩
        · exact Or.inl ⟨⟨rfl, rfl⟩, rfl, rfl⟩
        · exact Or.inr (Or.inl ⟨c, ⟨rfl, rfl⟩, rfl⟩)
        · exact Or.inr (Or.inr ⟨c, rfl, rfl, rfl⟩)
      · rintro (⟨⟨rfl, rfl⟩, rfl, rfl⟩ | ⟨c, ⟨rfl, rfl⟩, rfl⟩ | ⟨c, rfl, rfl, rfl⟩)
        · exact ⟨rfl, Or.inl ⟨rfl, rfl, rfl⟩⟩
        · exact ⟨rfl, Or.inr (Or.inl ⟨c, rfl, rfl⟩)⟩
        · exact ⟨rfl, Or.inr (Or.inr ⟨c, rfl, rfl⟩)⟩

/-- Where an element of a list of two parts lies. -/
lemma append_eq_append_cons_iff {pre post a b : List N} {m : N} :
    pre ++ post = a ++ m :: b ↔
      (∃ c, pre = a ++ m :: c ∧ b = c ++ post) ∨ ∃ c, post = c ++ m :: b ∧ a = pre ++ c := by
  rw [append_eq_append_iff]
  constructor
  · rintro (⟨c, rfl, rfl⟩ | ⟨c, rfl, hb⟩)
    · exact Or.inr ⟨c, rfl, rfl⟩
    · cases c with
      | nil => exact Or.inr ⟨[], by simpa using hb.symm, by simp⟩
      | cons x c =>
        obtain ⟨rfl, rfl⟩ := cons.inj hb
        exact Or.inl ⟨c, rfl, rfl⟩
  · rintro (⟨c, rfl, rfl⟩ | ⟨c, rfl, rfl⟩)
    · exact Or.inr ⟨m :: c, rfl, rfl⟩
    · exact Or.inl ⟨c, rfl, rfl⟩

/-- An element that occurs once is the last one if nothing follows it. -/
lemma getLast?_eq_some_iff_of_nodup {a b : List N} {m : N} (h : (a ++ m :: b).Nodup) :
    (a ++ m :: b).getLast? = some m ↔ b = [] := by
  rcases eq_nil_or_concat' b with rfl | ⟨c, x, rfl⟩
  · simp
  · have hne : x ≠ m := by
      rintro rfl
      simp [nodup_append] at h
    rw [← cons_append, ← append_assoc, getLast?_concat]
    simp [hne]

/-- An element that occurs once is the first one if nothing precedes it. -/
lemma head?_eq_some_iff_of_nodup {a b : List N} {m : N} (h : (a ++ m :: b).Nodup) :
    (a ++ m :: b).head? = some m ↔ a = [] := by
  cases a with
  | nil => simp
  | cons x a =>
    have hne : x ≠ m := by
      rintro rfl
      simp at h
    simp [hne]

end List

variable {N P : Type*}

/-- Every element of the list leads to the next one, and back to where it is reached from. -/
def Linked (next : N → Option N) (prev : N → P) (back : Option N → P) (l : List N) : Prop :=
  ∀ pre n post, l = pre ++ n :: post → next n = post.head? ∧ prev n = back pre.getLast?

namespace Linked

variable {next next' : N → Option N} {prev prev' : N → P} {back : Option N → P}
  {l pre post : List N} {n : N}

lemma nil : Linked next prev back [] := by
  intro pre n post h
  simp at h

/-- The links of other elements do not matter. -/
lemma congr (h : Linked next prev back l) (hnext : ∀ m ∈ l, next' m = next m)
    (hprev : ∀ m ∈ l, prev' m = prev m) : Linked next' prev' back l := by
  intro pre m post hl
  have hm : m ∈ l := by simp [hl]
  rw [hnext m hm, hprev m hm]
  exact h pre m post hl

lemma head (h : Linked next prev back (n :: post)) : next n = post.head? ∧ prev n = back none :=
  h [] n post rfl

variable [DecidableEq N]

/-- An element between `pre` and `post`. -/
lemma insert (h : Linked next prev back (pre ++ post)) (hnodup : (pre ++ n :: post).Nodup)
    (hn : next' n = post.head? ∧ prev' n = back pre.getLast?)
    (hnext : ∀ m ∈ pre ++ post, next' m = if pre.getLast? = some m then some n else next m)
    (hprev : ∀ m ∈ pre ++ post,
      prev' m = if post.head? = some m then back (some n) else prev m) :
    Linked next' prev' back (pre ++ n :: post) := by
  have hapart := List.nodup_append.mp hnodup
  intro a m b hl
  rcases List.append_cons_eq_append_cons_iff.mp hl with ⟨rfl, rfl, rfl⟩ | ⟨c, rfl, rfl⟩ |
    ⟨c, rfl, rfl⟩
  · exact hn
  · -- `m` lies in front of the new element
    have hold := h a m (c ++ post) (by simp)
    have hmem : m ∈ a ++ m :: c ++ post := by simp
    have hpost : post.head? ≠ some m := fun hhead =>
      hapart.2.2 m (by simp) m (List.mem_cons_of_mem n (List.mem_of_mem_head? hhead)) rfl
    rw [hprev m hmem, if_neg hpost, hnext m hmem, hold.1, hold.2]
    refine ⟨?_, rfl⟩
    simp only [List.getLast?_eq_some_iff_of_nodup hapart.1]
    cases c with
    | nil => simp
    | cons x c => simp
  · -- `m` lies behind it
    have hold := h (pre ++ c) m b (by simp)
    have hmem : m ∈ pre ++ (c ++ m :: b) := by simp
    have hpre : pre.getLast? ≠ some m := fun hlast =>
      hapart.2.2 m (List.mem_of_mem_getLast? hlast) m (by simp) rfl
    rw [hnext m hmem, if_neg hpre, hprev m hmem, hold.1, hold.2]
    refine ⟨rfl, ?_⟩
    simp only [List.head?_eq_some_iff_of_nodup (List.nodup_cons.mp hapart.2.1).2]
    rcases List.eq_nil_or_concat' c with rfl | ⟨c', x, rfl⟩
    · simp
    · rw [← List.cons_append, ← List.append_assoc, ← List.append_assoc, List.getLast?_concat,
        List.getLast?_concat]
      simp

/-- The element between `pre` and `post` is taken out. -/
lemma remove (h : Linked next prev back (pre ++ n :: post)) (hnodup : (pre ++ n :: post).Nodup)
    (hnext : ∀ m ∈ pre ++ post, next' m = if pre.getLast? = some m then post.head? else next m)
    (hprev : ∀ m ∈ pre ++ post,
      prev' m = if post.head? = some m then back pre.getLast? else prev m) :
    Linked next' prev' back (pre ++ post) := by
  have hapart := List.nodup_append.mp hnodup
  intro a m b hl
  rcases List.append_eq_append_cons_iff.mp hl with ⟨c, rfl, rfl⟩ | ⟨c, rfl, rfl⟩
  · -- `m` lies in front of the element
    have hold := h a m (c ++ n :: post) (by simp)
    have hmem : m ∈ a ++ m :: c ++ post := by simp
    have hpost : post.head? ≠ some m := fun hhead =>
      hapart.2.2 m (by simp) m (List.mem_cons_of_mem n (List.mem_of_mem_head? hhead)) rfl
    rw [hprev m hmem, if_neg hpost, hnext m hmem, hold.1, hold.2]
    refine ⟨?_, rfl⟩
    simp only [List.getLast?_eq_some_iff_of_nodup hapart.1]
    cases c with
    | nil => simp
    | cons x c => simp
  · -- `m` lies behind it
    have hold := h (pre ++ n :: c) m b (by simp)
    have hmem : m ∈ pre ++ (c ++ m :: b) := by simp
    have hpre : pre.getLast? ≠ some m := fun hlast =>
      hapart.2.2 m (List.mem_of_mem_getLast? hlast) m (by simp) rfl
    rw [hnext m hmem, if_neg hpre, hprev m hmem, hold.1, hold.2]
    refine ⟨rfl, ?_⟩
    simp only [List.head?_eq_some_iff_of_nodup (List.nodup_cons.mp hapart.2.1).2]
    rcases List.eq_nil_or_concat' c with rfl | ⟨c', x, rfl⟩
    · simp
    · rw [← List.cons_append, ← List.append_assoc, ← List.append_assoc, List.getLast?_concat,
        List.getLast?_concat]
      simp

/-- A prefix is taken off. -/
lemma detach (h : Linked next prev back (pre ++ post)) (hnodup : (pre ++ post).Nodup)
    (hnext : ∀ m ∈ post, next' m = next m)
    (hprev : ∀ m ∈ post, prev' m = if post.head? = some m then back none else prev m) :
    Linked next' prev' back post := by
  rintro a m b rfl
  have hold := h (pre ++ a) m b (by simp)
  have hmem : m ∈ a ++ m :: b := by simp
  rw [hnext m hmem, hprev m hmem, hold.1, hold.2]
  refine ⟨rfl, ?_⟩
  simp only [List.head?_eq_some_iff_of_nodup (List.nodup_append.mp hnodup).2.1]
  rcases List.eq_nil_or_concat' a with rfl | ⟨c, x, rfl⟩
  · simp
  · rw [← List.append_assoc, List.getLast?_concat, List.getLast?_concat]
    simp

end Linked
