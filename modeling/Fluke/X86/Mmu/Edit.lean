import Fluke.X86.Mmu.Walk

/-!
# `edit`

`mmu_edit` gives the pages of a range new flags. It changes neither which entries are present nor
what they point at, so every walk through the tables leads to the same places before, during and
after; this is what the proof rests on, and the tables need not be apart for it. That the range's
entries are the only ones to change in the eyes of the other addresses takes a tree: no table is
reached on two ways.
-/

namespace Fluke

open Outcome TableEntry TableRange

/-! ### The entries of a range -/

/-- The entry that a path leads to from a table. Nothing is found when an entry on the way is not
present. -/
def entryAt (memory : Frame → Page) : Frame → List (Fin 512) → Option (Frame × Fin 512)
  | _, [] => none
  | table, [i] => some (table, i)
  | table, i :: j :: p =>
    if isPresent (memory table i) then entryAt memory (entryTarget (memory table i)) (j :: p)
    else none

/-- The entry of a `PT` that translates an address, below a table of depth `d + 1`. -/
def pageSlot (memory : Frame → Page) (va d : ℕ) (table : Frame) : Option (Frame × Fin 512) :=
  entryAt memory table (pathOf (d + 1) va)

lemma pageSlot_succ {memory : Frame → Page} {va d : ℕ} {table : Frame}
    (h : isPresent (memory table (tableIndex (d + 2) va)) = true) :
    pageSlot memory va (d + 1) table =
      pageSlot memory va d (entryTarget (memory table (tableIndex (d + 2) va))) :=
  if_pos h

lemma pageSlot_absent {memory : Frame → Page} {va d : ℕ} {table : Frame}
    (h : isPresent (memory table (tableIndex (d + 2) va)) = false) :
    pageSlot memory va (d + 1) table = none :=
  if_neg (by simp [h])

/-- The address is mapped below a table of depth `d + 1`. -/
def PagePresent (memory : Frame → Page) (d : ℕ) (table : Frame) (va : ℕ) : Prop :=
  ∃ p : Frame × Fin 512, pageSlot memory va d table = some p ∧ isPresent (memory p.1 p.2) = true

/-- An entry with the same target and other flags. -/
def withFlags (flags entry : Word) : Word := entryAddressBits (entryTarget entry) ||| flags

lemma entryTarget_withFlags {flags : Word} (h : FlagBits flags) (entry : Word) :
    entryTarget (withFlags flags entry) = entryTarget entry :=
  entryTarget_or h _

lemma isPresent_withFlags {flags : Word} (h : FlagBits flags) (entry : Word) :
    isPresent (withFlags flags entry) = true :=
  isPresent_or h.present _

lemma withFlags_withFlags {flags : Word} (h : FlagBits flags) (entry : Word) :
    withFlags flags (withFlags flags entry) = withFlags flags entry := by
  unfold withFlags
  rw [show entryTarget (entryAddressBits (entryTarget entry) ||| flags) = entryTarget entry from
    entryTarget_or h _]

/-- The entries in `slots`, all of them present, have new flags; nothing else is written to. -/
structure Edited (flags : Word) (slots : Set (Frame × Fin 512)) (s s' : Pmm) : Prop where
  freeList : s'.freeList = s.freeList
  freeCount : s'.freeCount = s.freeCount
  totalCount : s'.totalCount = s.totalCount
  present : ∀ p ∈ slots, isPresent (s.memory p.1 p.2) = true
  inside : ∀ g i, (g, i) ∈ slots → s'.memory g i = withFlags flags (s.memory g i)
  outside : ∀ g i, (g, i) ∉ slots → s'.memory g i = s.memory g i

namespace Edited

variable {flags : Word} {slots slots' : Set (Frame × Fin 512)} {s s' s'' : Pmm}

lemma refl (flags : Word) (s : Pmm) : Edited flags ∅ s s :=
  ⟨rfl, rfl, rfl, fun _ hp => hp.elim, fun _ _ hp => hp.elim, fun _ _ _ => rfl⟩

/-- One entry gets new flags. -/
lemma setWord {table : Frame} {i : Fin 512} (hp : isPresent (s.memory table i) = true) :
    Edited flags {(table, i)} s (s.setWord table i (withFlags flags (s.memory table i))) := by
  refine ⟨rfl, rfl, rfl, ?_, ?_, ?_⟩
  · rintro p rfl
    exact hp
  · rintro g j h
    obtain ⟨rfl, rfl⟩ := Prod.mk.inj h
    rw [Pmm.setWord_self]
  · intro g j h
    by_cases hg : g = table
    · subst hg
      have hj : j ≠ i := fun hj => h (congrArg (Prod.mk g) hj)
      rw [Pmm.setWord_of_ne _ _ _ hj]
    · rw [Pmm.setWord_of_ne_frame _ _ _ hg]

lemma isPresent_eq (hflags : FlagBits flags) (h : Edited flags slots s s') (g : Frame)
    (i : Fin 512) : isPresent (s'.memory g i) = isPresent (s.memory g i) := by
  by_cases hp : (g, i) ∈ slots
  · rw [h.inside g i hp, isPresent_withFlags hflags, h.present _ hp]
  · rw [h.outside g i hp]

lemma entryTarget_eq (hflags : FlagBits flags) (h : Edited flags slots s s') (g : Frame)
    (i : Fin 512) : entryTarget (s'.memory g i) = entryTarget (s.memory g i) := by
  by_cases hp : (g, i) ∈ slots
  · rw [h.inside g i hp, entryTarget_withFlags hflags]
  · rw [h.outside g i hp]

/-- Every path leads to the same entry. -/
lemma entryAt_eq (hflags : FlagBits flags) (h : Edited flags slots s s') (table : Frame)
    (p : List (Fin 512)) : entryAt s'.memory table p = entryAt s.memory table p := by
  induction p generalizing table with
  | nil => rfl
  | cons i p ih =>
    cases p with
    | nil => rfl
    | cons j p =>
      unfold entryAt
      rw [h.isPresent_eq hflags, h.entryTarget_eq hflags, ih]

lemma pageSlot_eq (hflags : FlagBits flags) (h : Edited flags slots s s') (va d : ℕ)
    (table : Frame) : pageSlot s'.memory va d table = pageSlot s.memory va d table :=
  h.entryAt_eq hflags table _

lemma pagePresent_iff (hflags : FlagBits flags) (h : Edited flags slots s s') (va d : ℕ)
    (table : Frame) : PagePresent s'.memory d table va ↔ PagePresent s.memory d table va := by
  unfold PagePresent
  simp only [h.pageSlot_eq hflags, h.isPresent_eq hflags]

/-- New flags once and once more are new flags. -/
lemma trans (hflags : FlagBits flags) (h : Edited flags slots s s')
    (h' : Edited flags slots' s' s'') : Edited flags (slots ∪ slots') s s'' := by
  refine ⟨h'.freeList.trans h.freeList, h'.freeCount.trans h.freeCount,
    h'.totalCount.trans h.totalCount, ?_, ?_, ?_⟩
  · rintro p (hp | hp)
    · exact h.present p hp
    · rw [← h.isPresent_eq hflags]
      exact h'.present p hp
  · intro g i hp
    by_cases hlast : (g, i) ∈ slots'
    · rw [h'.inside g i hlast]
      by_cases hfirst : (g, i) ∈ slots
      · rw [h.inside g i hfirst, withFlags_withFlags hflags]
      · rw [h.outside g i hfirst]
    · rw [h'.outside g i hlast, h.inside g i (hp.resolve_right hlast)]
  · intro g i hp
    have hnot := not_or.mp hp
    rw [h'.outside g i hnot.2, h.outside g i hnot.1]

lemma congr (h : Edited flags slots s s') (heq : slots = slots') : Edited flags slots' s s' :=
  heq ▸ h

end Edited

/-- The entries of the pages of a range, below a table of depth `d + 1`. -/
def rangeSlots (memory : Frame → Page) (d : ℕ) (table : Frame) (vbegin vend : ℕ) :
    Set (Frame × Fin 512) :=
  {p | ∃ va, vbegin ≤ va ∧ va < vend ∧ pageSlot memory va d table = some p}

/-- The part of these that the given entries of the table lead to. -/
def slotsThrough (memory : Frame → Page) (d : ℕ) (table : Frame) (vbegin vend : ℕ)
    (done : List (Fin 512)) : Set (Frame × Fin 512) :=
  {p | ∃ va, vbegin ≤ va ∧ va < vend ∧ tableIndex (d + 1) va ∈ done ∧
    pageSlot memory va d table = some p}

/-- Why `edit` stops: a page of the range is not there. -/
def EditStop (memory : Frame → Page) (d : ℕ) (table : Frame) (vbegin vend : ℕ) (e : Panic) :
    Prop :=
  e = .editUnassigned ∧ ∃ va, vbegin ≤ va ∧ va < vend ∧ ¬ PagePresent memory d table va

/-- What `edit` has done when it returns. -/
structure EditDone (flags : Word) (d : ℕ) (table : Frame) (vbegin vend : ℕ) (s s' : Pmm) :
    Prop where
  edited : Edited flags (rangeSlots s.memory d table vbegin vend) s s'
  present : ∀ va, vbegin ≤ va → va < vend → PagePresent s.memory d table va

/-- What the loop has done after the entries in `done`. -/
structure EditLoop (flags : Word) (d : ℕ) (table : Frame) (vbegin vend : ℕ) (s : Pmm)
    (done : List (Fin 512)) (s' : Pmm) : Prop where
  edited : Edited flags (slotsThrough s.memory d table vbegin vend done) s s'
  present : ∀ va, vbegin ≤ va → va < vend → tableIndex (d + 1) va ∈ done →
    PagePresent s.memory d table va

section

variable {flags : Word} {d base vbegin vend : ℕ} {table : Frame} {s s' s'' : Pmm}
  {done : List (Fin 512)} {i : Fin 512}

lemma EditLoop.start : EditLoop flags d table vbegin vend s [] s := by
  refine ⟨(Edited.refl flags s).congr ?_, fun va _ _ h => absurd h List.not_mem_nil⟩
  refine (Set.eq_empty_of_forall_notMem ?_).symm
  rintro p ⟨va, -, -, h, -⟩
  exact List.not_mem_nil h

/-- One more entry of the table: the pages it leads to have new flags. -/
lemma EditLoop.snoc (hflags : FlagBits flags) (h : EditLoop flags d table vbegin vend s done s')
    {slots : Set (Frame × Fin 512)} (hslots : ∀ p, p ∈ slots ↔
      ∃ va, vbegin ≤ va ∧ va < vend ∧ tableIndex (d + 1) va = i ∧
        pageSlot s'.memory va d table = some p)
    (hstep : Edited flags slots s' s'')
    (hpresent : ∀ va, vbegin ≤ va → va < vend → tableIndex (d + 1) va = i →
      PagePresent s'.memory d table va) :
    EditLoop flags d table vbegin vend s (done ++ [i]) s'' := by
  constructor
  · refine (h.edited.trans hflags hstep).congr ?_
    ext p
    simp only [Set.mem_union, hslots, slotsThrough, Set.mem_ofPred_eq,
      h.edited.pageSlot_eq hflags, List.mem_append, List.mem_singleton]
    constructor
    · rintro (⟨va, h1, h2, h3, h4⟩ | ⟨va, h1, h2, h3, h4⟩)
      · exact ⟨va, h1, h2, Or.inl h3, h4⟩
      · exact ⟨va, h1, h2, Or.inr h3, h4⟩
    · rintro ⟨va, h1, h2, h3 | h3, h4⟩
      · exact Or.inl ⟨va, h1, h2, h3, h4⟩
      · exact Or.inr ⟨va, h1, h2, h3, h4⟩
  · intro va h1 h2 h3
    rcases List.mem_append.mp h3 with h3 | h3
    · exact h.present va h1 h2 h3
    · rw [← h.edited.pagePresent_iff hflags]
      exact hpresent va h1 h2 (List.mem_singleton.mp h3)

/-- The loop that has seen every entry of the range. -/
lemma EditLoop.finish (hspan : Span (d + 1) base vbegin vend)
    (h : EditLoop flags d table vbegin vend s (indices (d + 1) vbegin vend) s') :
    EditDone flags d table vbegin vend s s' := by
  constructor
  · refine h.edited.congr ?_
    ext p
    constructor
    · rintro ⟨va, h1, h2, -, h3⟩
      exact ⟨va, h1, h2, h3⟩
    · rintro ⟨va, h1, h2, h3⟩
      exact ⟨va, h1, h2, hspan.tableIndex_mem_indices h1 h2, h3⟩
  · intro va h1 h2
    exact h.present va h1 h2 (hspan.tableIndex_mem_indices h1 h2)

/-- An address of the range that entry `i` translates. -/
lemma Span.exists_of_mem_indices (hspan : Span (d + 1) base vbegin vend)
    (hi : i ∈ indices (d + 1) vbegin vend) :
    ∃ va, vbegin ≤ va ∧ va < vend ∧ tableIndex (d + 1) va = i :=
  ⟨_, (hspan.mem_child_iff i).mpr ⟨le_rfl, (hspan.child hi).lt⟩⟩

lemma PagePresent.entry {va : ℕ} (h : PagePresent s.memory d table va) :
    isPresent (s.memory table (tableIndex (d + 1) va)) = true := by
  obtain ⟨p, hp, hpresent⟩ := h
  cases d with
  | zero =>
    cases hp
    exact hpresent
  | succ d =>
    cases h : isPresent (s.memory table (tableIndex (d + 2) va)) with
    | true => rfl
    | false =>
      rw [pageSlot_absent h] at hp
      cases hp

/-- The pages that entry `i` of the table leads to, by way of the table below. -/
lemma Span.mem_rangeSlots_child (hspan : Span (d + 2) base vbegin vend)
    (hp : isPresent (s.memory table i) = true) (p : Frame × Fin 512) :
    p ∈ rangeSlots s.memory d (entryTarget (s.memory table i)) (nextVbegin (d + 2) vbegin i)
        (editNextVend (d + 2) vbegin vend i) ↔
      ∃ va, vbegin ≤ va ∧ va < vend ∧ tableIndex (d + 2) va = i ∧
        pageSlot s.memory va (d + 1) table = some p := by
  rw [hspan.nextVbegin_eq, hspan.editNextVend_eq]
  constructor
  · rintro ⟨va, h1, h2, h3⟩
    obtain ⟨h4, h5, h6⟩ := (hspan.mem_child_iff i).mpr ⟨h1, h2⟩
    subst h6
    exact ⟨va, h4, h5, rfl, (pageSlot_succ hp).trans h3⟩
  · rintro ⟨va, h1, h2, h3, h4⟩
    have hva := (hspan.mem_child_iff i).mp ⟨h1, h2, h3⟩
    subst h3
    exact ⟨va, hva.1, hva.2, (pageSlot_succ hp).symm.trans h4⟩

lemma pagePresent_succ {va : ℕ} (h : isPresent (s.memory table (tableIndex (d + 2) va)) = true) :
    PagePresent s.memory (d + 1) table va ↔
      PagePresent s.memory d (entryTarget (s.memory table (tableIndex (d + 2) va))) va := by
  unfold PagePresent
  rw [pageSlot_succ h]

/-- The loop over the entries of a table. The body is only asked about entries that are present:
an entry of the range that is not is what `edit` stops at. -/
lemma ensures_editEntries (hflags : FlagBits flags) (hspan : Span (d + 1) base vbegin vend)
    {body : Fin 512 → Pmm → Except Panic Pmm}
    (hbody : ∀ i ∈ indices (d + 1) vbegin vend, ∀ done s',
      EditLoop flags d table vbegin vend s done s' → isPresent (s'.memory table i) = true →
      Ensures (EditStop s.memory d table vbegin vend)
        (EditLoop flags d table vbegin vend s (done ++ [i])) (body i s')) :
    Ensures (EditStop s.memory d table vbegin vend) (EditDone flags d table vbegin vend s)
      (forEntries (indexBegin (d + 1) vbegin) (indexEnd (d + 1) vbegin vend)
        (fun i s => if !isPresent (s.memory table i) then .error .editUnassigned else body i s)
        s) := by
  rw [hspan.forEntries_eq]
  have hloop := @ensures_forEach _ _ _ (EditStop s.memory d table vbegin vend)
    (fun i s => if !isPresent (s.memory table i) then .error .editUnassigned else body i s)
    (EditLoop flags d table vbegin vend s) (indices (d + 1) vbegin vend) [] s ?_ EditLoop.start
  · rw [List.nil_append] at hloop
    exact hloop.imp fun s' h => h.finish hspan
  · intro i done s' hpre hdone
    rw [List.nil_append] at hpre
    have hi : i ∈ indices (d + 1) vbegin vend :=
      hpre.subset (List.mem_append_right _ List.mem_cons_self)
    cases hp : isPresent (s'.memory table i) with
    | true =>
      rw [if_neg (by simp)]
      exact hbody i hi done s' hdone hp
    | false =>
      rw [if_pos (by simp)]
      obtain ⟨va, h1, h2, rfl⟩ := hspan.exists_of_mem_indices hi
      refine ⟨rfl, va, h1, h2, fun hpresent => ?_⟩
      rw [← hdone.edited.pagePresent_iff hflags] at hpresent
      rw [hpresent.entry] at hp
      cases hp

end

/-- `edit`, for a table of depth `d + 1`: it stops when a page of the range is not there, and only
then. -/
theorem edit_slots {flags : Word} (hflags : FlagBits flags) (d : ℕ) {table : Frame}
    {base vbegin vend : ℕ} {s : Pmm} (hspan : Span (d + 1) base vbegin vend) :
    Ensures (EditStop s.memory d table vbegin vend) (EditDone flags d table vbegin vend s)
      (edit (d + 1) table vbegin vend flags s) := by
  have hassert : assert (vbegin < vend) .editRange = .ok () :=
    assert_eq_ok.mpr (decide_eq_true hspan.lt)
  induction d generalizing table base vbegin vend s with
  | zero =>
    unfold edit
    rw [hassert, ok_bind]
    refine ensures_editEntries hflags hspan fun i hi done s' hdone hp => ?_
    rw [if_neg (Nat.lt_irrefl _)]
    refine hdone.snoc hflags (fun p => ?_) (Edited.setWord hp) fun va _ _ h3 => ?_
    · constructor
      · rintro rfl
        obtain ⟨va, h1, h2, h3⟩ := hspan.exists_of_mem_indices hi
        exact ⟨va, h1, h2, h3, h3 ▸ rfl⟩
      · rintro ⟨va, -, -, rfl, h4⟩
        exact (Option.some.inj h4).symm
    · subst h3
      exact ⟨_, rfl, hp⟩
  | succ d ih =>
    unfold edit
    rw [hassert, ok_bind]
    refine ensures_editEntries hflags hspan fun i hi done s' hdone hp => ?_
    rw [if_pos (Nat.succ_lt_succ d.succ_pos)]
    have hchild := hspan.child hi
    have hlt := hchild.lt
    rw [← hspan.nextVbegin_eq, ← hspan.editNextVend_eq] at hchild hlt
    refine (@ih (entryTarget (s'.memory table i)) _ _ _ s' hchild
      (assert_eq_ok.mpr (decide_eq_true hlt))).mono ?_ ?_
    · rintro e ⟨he, va, h1, h2, habsent⟩
      rw [hspan.nextVbegin_eq] at h1
      rw [hspan.editNextVend_eq] at h2
      obtain ⟨h3, h4, rfl⟩ := (hspan.mem_child_iff i).mpr ⟨h1, h2⟩
      refine ⟨he, va, h3, h4, fun hpresent => habsent ?_⟩
      rw [← pagePresent_succ hp, hdone.edited.pagePresent_iff hflags]
      exact hpresent
    · intro s'' h
      refine hdone.snoc hflags (hspan.mem_rangeSlots_child hp) h.edited fun va h1 h2 h3 => ?_
      have hva := (hspan.mem_child_iff i).mp ⟨h1, h2, h3⟩
      rw [← hspan.nextVbegin_eq, ← hspan.editNextVend_eq] at hva
      subst h3
      rw [pagePresent_succ hp]
      exact h.present va hva.1 hva.2

/-! ### The tree of an address space -/

/-- A page-table tree of 4 KiB mappings: no entry is reached on two paths, and no entry above a `PT`
is a page. -/
structure PageTree4K (memory : Frame → Page) (pm : Frame) : Prop where
  distinct : ∀ p q x, p.length ≤ PML4 → q.length ≤ PML4 → entryAt memory pm p = some x →
    entryAt memory pm q = some x → p = q
  small : ∀ p x, p.length < PML4 → entryAt memory pm p = some x →
    isPresent (memory x.1 x.2) = true → memory x.1 x.2 &&& psBit = 0

/-- What a walk finds at an entry of a `PT`. -/
def presentEntry (memory : Frame → Page) (x : Frame × Fin 512) : Option (ℕ × Word) :=
  if isPresent (memory x.1 x.2) then some (0, memory x.1 x.2) else none

/-- Without large pages the walk of `virt_to_phys` ends at the entry of a `PT`. -/
lemma walk_eq_pageSlot {memory : Frame → Page} {va d : ℕ} {table : Frame}
    (hsmall : ∀ p x, p.length ≤ d → entryAt memory table p = some x →
      isPresent (memory x.1 x.2) = true → memory x.1 x.2 &&& psBit = 0) :
    walk memory va d (memory table (tableIndex (d + 1) va)) =
      (pageSlot memory va d table).bind (presentEntry memory) := by
  induction d generalizing table with
  | zero =>
    show (if !isPresent _ then _ else _) = presentEntry memory (table, tableIndex 1 va)
    unfold presentEntry
    cases isPresent (memory table (tableIndex 1 va)) with
    | true => rfl
    | false => rfl
  | succ d ih =>
    unfold walk
    cases hp : isPresent (memory table (tableIndex (d + 2) va)) with
    | false =>
      rw [pageSlot_absent hp]
      rfl
    | true =>
      have hps := hsmall [tableIndex (d + 2) va] _ (Nat.succ_le_succ d.zero_le) rfl hp
      rw [pageSlot_succ hp, if_neg (by simp), if_neg (fun h => h.2 hps)]
      refine ih fun p x hlen hx hpresent => ?_
      cases p with
      | nil => cases hx
      | cons j p =>
        refine hsmall (tableIndex (d + 2) va :: j :: p) x (Nat.succ_le_succ hlen) ?_ hpresent
        exact (if_pos hp).trans hx

lemma PageTree4K.leafEntry_eq {memory : Frame → Page} {pm : Frame} (h : PageTree4K memory pm)
    (va : ℕ) : leafEntry memory pm va = (pageSlot memory va PDPT pm).bind (presentEntry memory) :=
  walk_eq_pageSlot fun p x hlen => h.small p x (Nat.lt_succ_of_le hlen)

/-- The address is mapped. -/
lemma PageTree4K.pagePresent_iff {memory : Frame → Page} {pm : Frame} (h : PageTree4K memory pm)
    (va : ℕ) :
    PagePresent memory PDPT pm va ↔ ∃ entry, leafEntry memory pm va = some (0, entry) := by
  rw [h.leafEntry_eq]
  constructor
  · rintro ⟨x, hx, hpresent⟩
    refine ⟨memory x.1 x.2, ?_⟩
    rw [hx]
    exact if_pos hpresent
  · rintro ⟨entry, hentry⟩
    obtain ⟨x, hx, hfound⟩ := Option.bind_eq_some_iff.mp hentry
    unfold presentEntry at hfound
    split_ifs at hfound with hpresent
    exact ⟨x, hx, hpresent⟩

/-- Addresses of different pages have different paths. -/
lemma Canonical.page_eq {va va' : ℕ} (h : Canonical va) (h' : Canonical va')
    (hpath : pathOf PML4 va = pathOf PML4 va') : va / 4096 = va' / 4096 := by
  have hsize : pointeeSize (PML4 + 1) = 2 ^ 48 := by decide
  have hindex : tableIndex PML4 va = tableIndex PML4 va' := (List.cons.inj hpath).1
  have hlow {va : ℕ} (h : va < memLowHalfMax) : va < 0 + pointeeSize (PML4 + 1) := by
    rw [hsize]
    simp only [memLowHalfMax] at h
    omega
  have hhigh {va : ℕ} (h : memHighHalfMin ≤ va ∧ va < 2 ^ 64) : 0xffff000000000000 ≤ va ∧
      va < 0xffff000000000000 + pointeeSize (PML4 + 1) := by
    rw [hsize]
    simp only [memHighHalfMin] at h
    omega
  rcases h with h | h <;> rcases h' with h' | h'
  · exact page_eq_of_pathOf_eq (Dvd.intro 0 rfl) va.zero_le (hlow h) va'.zero_le (hlow h') hpath
  · have hkernel := userHalf_of_kernel h'.1 h'.2
    rw [← hindex, userHalf_iff.mpr (tableIndex_lt_of_user h)] at hkernel
    cases hkernel
  · have hkernel := userHalf_of_kernel h.1 h.2
    rw [hindex, userHalf_iff.mpr (tableIndex_lt_of_user h')] at hkernel
    cases hkernel
  · exact page_eq_of_pathOf_eq (by decide) (hhigh h).1 (hhigh h).2 (hhigh h').1 (hhigh h').2 hpath

/-! ### `mmu_edit` -/

/-- The pages of `[address, address + len)` have the flags `flags` and point at the frames they
pointed at. Every other entry of the tree, the ones above a `PT` among them, and all other memory
is as before. -/
structure RangeEdited (pm : Frame) (address len : ℕ) (flags : Word) (s s' : Pmm) : Prop where
  inside : ∀ va, address ≤ va → va < address + len → ∃ entry entry',
    leafEntry s.memory pm va = some (0, entry) ∧ leafEntry s'.memory pm va = some (0, entry') ∧
      entryTarget entry' = entryTarget entry ∧ entryPermissions entry' = flags
  outside : OutsideSame pm address len s s'
  entries : ∀ p g i, p.length ≤ PML4 → entryAt s.memory pm p = some (g, i) →
    p ∉ pathsIn PML4 address (address + len) → s'.memory g i = s.memory g i
  elsewhere : ∀ g i, (∀ p, p.length ≤ PML4 → entryAt s.memory pm p ≠ some (g, i)) →
    s'.memory g i = s.memory g i
  freeList : s'.freeList = s.freeList
  tree : PageTree4K s'.memory pm

section

variable {flags : Word} {pm : Frame} {s s' : Pmm} {address vend : ℕ}

lemma length_pathOf (d va : ℕ) : (pathOf d va).length = d := by
  induction d with
  | zero => rfl
  | succ d ih => rw [pathOf_succ, List.length_cons, ih]

/-- The entry at a path is written to when the path is that of a page of the range. -/
lemma PageTree4K.mem_rangeSlots (htree : PageTree4K s.memory pm) {p : List (Fin 512)}
    {x : Frame × Fin 512} (hp : p.length ≤ PML4) (hx : entryAt s.memory pm p = some x) :
    x ∈ rangeSlots s.memory PDPT pm address vend ↔ p ∈ pathsIn PML4 address vend := by
  constructor
  · rintro ⟨va, h1, h2, h3⟩
    exact ⟨va, h1, h2, htree.distinct _ p x (length_pathOf PML4 va).le hp h3 hx⟩
  · rintro ⟨va, h1, h2, rfl⟩
    exact ⟨va, h1, h2, hx⟩

lemma Edited.pageTree (hflags : FlagBits flags) (htree : PageTree4K s.memory pm)
    (h : Edited flags (rangeSlots s.memory PDPT pm address vend) s s') :
    PageTree4K s'.memory pm := by
  constructor
  · intro p q x hp hq hpx hqx
    rw [h.entryAt_eq hflags] at hpx hqx
    exact htree.distinct p q x hp hq hpx hqx
  · intro p x hp hx hpresent
    rw [h.entryAt_eq hflags] at hx
    rw [h.isPresent_eq hflags] at hpresent
    have hnot : (x.1, x.2) ∉ rangeSlots s.memory PDPT pm address vend := by
      rw [htree.mem_rangeSlots hp.le hx]
      rintro ⟨va, -, -, rfl⟩
      exact absurd (length_pathOf PML4 va) hp.ne
    rw [h.outside _ _ hnot]
    exact htree.small p x hp hx hpresent

/-- From the entries that were written to to the translation of every address. -/
lemma EditDone.rangeEdited (hflags : FlagBits flags) {len : ℕ} (htree : PageTree4K s.memory pm)
    (hcanonical : ∀ va, address ≤ va → va < address + len → Canonical va)
    (haligned : 4096 ∣ address) (haligned' : 4096 ∣ address + len)
    (h : EditDone flags PDPT pm address (address + len) s s') :
    RangeEdited pm address len flags s s' := by
  have htree' := h.edited.pageTree hflags htree
  have hleaf (va : ℕ) : leafEntry s'.memory pm va =
      (pageSlot s.memory va PDPT pm).bind (presentEntry s'.memory) := by
    rw [htree'.leafEntry_eq, h.edited.pageSlot_eq hflags]
  refine ⟨fun va h1 h2 => ?_, fun va hva hout => ?_, fun p g i hp hx hout => ?_,
    fun g i hout => ?_, h.edited.freeList, htree'⟩
  · obtain ⟨x, hx, hpresent⟩ := h.present va h1 h2
    have hnew := h.edited.inside x.1 x.2 ⟨va, h1, h2, hx⟩
    refine ⟨s.memory x.1 x.2, withFlags flags (s.memory x.1 x.2), ?_, ?_,
      entryTarget_withFlags hflags _, entryPermissions_or hflags _⟩
    · rw [htree.leafEntry_eq, hx]
      exact if_pos hpresent
    · rw [hleaf, hx, ← hnew]
      exact if_pos (by rw [hnew, isPresent_withFlags hflags])
  · have hsame : leafEntry s'.memory pm va = leafEntry s.memory pm va := by
      rw [hleaf, htree.leafEntry_eq]
      cases hx : pageSlot s.memory va PDPT pm with
      | none => rfl
      | some x =>
        have hnot : (x.1, x.2) ∉ rangeSlots s.memory PDPT pm address (address + len) := by
          rw [htree.mem_rangeSlots (length_pathOf PML4 va).le hx]
          rintro ⟨va', h1, h2, hpath⟩
          have hpage := (hcanonical va' h1 h2).page_eq hva hpath
          omega
        show presentEntry s'.memory x = presentEntry s.memory x
        unfold presentEntry
        rw [h.edited.outside _ _ hnot]
    exact ⟨hsame, by rw [virtToPhys_eq, virtToPhys_eq, hsame]⟩
  · refine h.edited.outside g i fun hmem => hout ?_
    exact (htree.mem_rangeSlots hp hx).mp hmem
  · refine h.edited.outside g i fun hmem => ?_
    obtain ⟨va, -, -, hx⟩ := hmem
    exact hout _ (length_pathOf PML4 va).le hx

end

/-- `mmu_edit` on a range in either half: it returns when every page of the range is mapped, with
new flags for these pages and nothing else changed, and otherwise it panics. -/
theorem mmuEdit_range {pm : Frame} {s : Pmm} {address : ℕ} {len : ℤ} (mode : MmuMode)
    (cache : MmuCache) (htree : PageTree4K s.memory pm) (haddress : address < 2 ^ 64)
    (hlen : len < 2 ^ 63) (hvalid : validateLimits address len = .ok ()) :
    ((∀ va, address ≤ va → va < address + len.toNat →
        ∃ entry, leafEntry s.memory pm va = some (0, entry)) →
      ∃ s', mmuEdit pm address len mode cache s = .ok s' ∧
        RangeEdited pm address len.toNat (entryFlags cache mode) s s') ∧
    ((¬ ∀ va, address ≤ va → va < address + len.toNat →
        ∃ entry, leafEntry s.memory pm va = some (0, entry)) →
      mmuEdit pm address len mode cache s = .error .editUnassigned) := by
  obtain ⟨base, hbase, hend, hspan⟩ := exists_span_of_validateLimits haddress hlen hvalid
  have hflags := flagBits_entryFlags cache mode
  have hedit := @edit_slots _ hflags PDPT pm _ _ _ s hspan
  rw [hend] at hspan hedit
  have hrun : mmuEdit pm address len mode cache s =
      edit PML4 pm address (address + len.toNat) (entryFlags cache mode) s := by
    unfold mmuEdit
    rw [hvalid, ok_bind, hend]
  have hcanonical : ∀ va, address ≤ va → va < address + len.toNat → Canonical va := by
    intro va h1 h2
    rcases hbase with ⟨-, hlow⟩ | ⟨-, hhigh⟩
    · exact Or.inl (h2.trans_le (hend ▸ hlow))
    · exact Or.inr ⟨hhigh.trans h1, h2.trans hspan.vend_lt⟩
  rw [hrun]
  constructor
  · intro hpresent
    have hdone : Ensures (fun _ => False)
        (RangeEdited pm address len.toNat (entryFlags cache mode) s)
        (edit PML4 pm address (address + len.toNat) (entryFlags cache mode) s) := by
      refine hedit.mono ?_ fun s' h => h.rangeEdited hflags htree hcanonical
        hspan.vbegin_aligned hspan.vend_aligned
      rintro e ⟨-, va, h1, h2, habsent⟩
      exact habsent ((htree.pagePresent_iff va).mpr (hpresent va h1 h2))
    exact hdone.exists_ok
  · intro habsent
    cases hresult : edit PML4 pm address (address + len.toNat) (entryFlags cache mode) s with
    | ok s' =>
      have hdone := hedit.of_eq_ok hresult
      exact absurd (fun va h1 h2 => (htree.pagePresent_iff va).mp (hdone.present va h1 h2)) habsent
    | error e =>
      have hstop := (ensures_iff.mp hedit).2 e hresult
      rw [hstop.1]

/-! ### The tree of a single page -/

section

/-- Four tables, each with one entry. They lead to the page at `0xffffffff80000000`. -/
def textMemory : Frame → Page := fun g i =>
  if g.address = 0x1000 ∧ i = 511 then 0x2007
  else if g.address = 0x2000 ∧ i = 510 then 0x3007
  else if g.address = 0x3000 ∧ i = 0 then 0x4007
  else if g.address = 0x4000 ∧ i = 0 then 0x5001
  else 0

/-- The path to an entry of these tables. -/
def textPath (x : Frame × Fin 512) : List (Fin 512) :=
  if x.1.address = 0x1000 then [x.2]
  else if x.1.address = 0x2000 then [511, x.2]
  else if x.1.address = 0x3000 then [511, 510, x.2]
  else [511, 510, 0, x.2]

lemma entryAt_text {g g' : Frame} {k i j : Fin 512} {p : List (Fin 512)} {x : Frame × Fin 512}
    (hk : ∀ i, i ≠ k → isPresent (textMemory g i) = false)
    (htarget : entryTarget (textMemory g k) = g')
    (h : entryAt textMemory g (i :: j :: p) = some x) :
    i = k ∧ entryAt textMemory g' (j :: p) = some x := by
  unfold entryAt at h
  split_ifs at h with hp
  by_cases hi : i = k
  · subst hi
    rw [htarget] at h
    exact ⟨rfl, h⟩
  · rw [hk i hi] at hp
    cases hp

lemma text_top {i : Fin 512} (h : i ≠ 511) :
    isPresent (textMemory ⟨0x1000, by decide⟩ i) = false := by
  have hzero : isPresent 0#64 = false := by decide
  simp [textMemory, h, hzero]

lemma text_pdpt {i : Fin 512} (h : i ≠ 510) :
    isPresent (textMemory ⟨0x2000, by decide⟩ i) = false := by
  have hzero : isPresent 0#64 = false := by decide
  simp [textMemory, h, hzero]

lemma text_pdt {i : Fin 512} (h : i ≠ 0) :
    isPresent (textMemory ⟨0x3000, by decide⟩ i) = false := by
  have hzero : isPresent 0#64 = false := by decide
  simp [textMemory, h, hzero]

lemma eq_textPath {p : List (Fin 512)} {x : Frame × Fin 512} (hp : p.length ≤ PML4)
    (h : entryAt textMemory ⟨0x1000, by decide⟩ p = some x) : p = textPath x := by
  match p, hp with
  | [], _ => cases h
  | [i], _ =>
    cases h
    rfl
  | [i, j], _ =>
    obtain ⟨rfl, h⟩ := @entryAt_text _ ⟨0x2000, by decide⟩ _ _ _ _ _ (fun _ => text_top) rfl h
    cases h
    rfl
  | [i, j, k], _ =>
    obtain ⟨rfl, h⟩ := @entryAt_text _ ⟨0x2000, by decide⟩ _ _ _ _ _ (fun _ => text_top) rfl h
    obtain ⟨rfl, h⟩ := @entryAt_text _ ⟨0x3000, by decide⟩ _ _ _ _ _ (fun _ => text_pdpt) rfl h
    cases h
    rfl
  | [i, j, k, l], _ =>
    obtain ⟨rfl, h⟩ := @entryAt_text _ ⟨0x2000, by decide⟩ _ _ _ _ _ (fun _ => text_top) rfl h
    obtain ⟨rfl, h⟩ := @entryAt_text _ ⟨0x3000, by decide⟩ _ _ _ _ _ (fun _ => text_pdpt) rfl h
    obtain ⟨rfl, h⟩ := @entryAt_text _ ⟨0x4000, by decide⟩ _ _ _ _ _ (fun _ => text_pdt) rfl h
    cases h
    rfl

lemma pageTree_text : PageTree4K textMemory ⟨0x1000, by decide⟩ := by
  constructor
  · intro p q x hp hq hpx hqx
    rw [eq_textPath hp hpx, eq_textPath hq hqx]
  · intro p x _ _ _
    unfold textMemory
    split_ifs <;> decide

/-- The page where the kernel is linked is opened to user mode. -/
theorem mmuEdit_range_text :
    ∃ s', mmuEdit ⟨0x1000, by decide⟩ 0xffffffff80000000 0x1000 (MmuMode.user ||| MmuMode.exec)
        MmuCache.default ⟨textMemory, [], 0, 0⟩ = .ok s' ∧
      RangeEdited ⟨0x1000, by decide⟩ 0xffffffff80000000 (0x1000 : ℤ).toNat
        (entryFlags MmuCache.default (MmuMode.user ||| MmuMode.exec)) ⟨textMemory, [], 0, 0⟩
        s' := by
  refine (mmuEdit_range (s := ⟨textMemory, [], 0, 0⟩) (MmuMode.user ||| MmuMode.exec)
    MmuCache.default pageTree_text (by decide) (by decide) (by decide)).1 fun va h1 h2 => ?_
  have hpage : va / 4096 = 0xffffffff80000000 / 4096 := by
    have hlen : (0x1000 : ℤ).toNat = 4096 := rfl
    omega
  refine (pageTree_text.pagePresent_iff va).mp ⟨(⟨0x4000, by decide⟩, 0), ?_, by decide⟩
  unfold pageSlot
  rw [pathOf_congr hpage]
  decide

end

end Fluke
