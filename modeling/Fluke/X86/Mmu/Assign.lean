import Fluke.X86.Mmu.Entry

/-!
# `assign`

What `assign` makes of the tree below each entry it visits: the addresses of its range lead to
fresh, zeroed pages with the given flags, every other address keeps its page, and no table is
left empty. Erasing the range again gives the original tree back.
-/

namespace Fluke

open Outcome TableEntry TableRange

/-- `t` has no page in `[vbegin, vend)`. -/
def Unmapped (d vbegin vend : ℕ) (t : PageTree) : Prop :=
  ∀ va, vbegin ≤ va → va < vend → t.lookup (pathOf d va) = none

/-- `t` with the addresses of `[vbegin, vend)` assigned is `t'`. The new pages are taken from
`fresh`. -/
structure AssignedAt (fresh : List Frame) (flags : Word) (d base vbegin vend : ℕ)
    (t t' : PageTree) (memory : Frame → Page) : Prop where
  unmapped : Unmapped d vbegin vend t
  inside : ∀ va, vbegin ≤ va → va < vend → ∃ page ∈ fresh,
    t'.lookup (pathOf d va) = some (entryAddressBits page ||| flags) ∧ memory page = Page.fill 0
  outside : ∀ va, base ≤ va → va < base + pointeeSize (d + 1) → ¬ (vbegin ≤ va ∧ va < vend) →
    t'.lookup (pathOf d va) = t.lookup (pathOf d va)
  erase : t.NoEmpty → t'.erase (pathsIn d vbegin vend) = t
  noEmpty : t.NoEmpty → t'.NoEmpty
  tables : t.Tables IsIntermediate → t'.Tables IsIntermediate

lemma AssignedAt.of_agree {fresh : List Frame} {flags : Word} (hflags : FlagBits flags)
    {d base vbegin vend : ℕ} {t t' : PageTree} {memory memory' : Frame → Page}
    (h : AssignedAt fresh flags d base vbegin vend t t' memory)
    (hmem : ∀ g ∈ frames t', memory' g = memory g) :
    AssignedAt fresh flags d base vbegin vend t t' memory' := by
  refine ⟨h.unmapped, fun va hlo hhi => ?_, h.outside, h.erase, h.noEmpty, h.tables⟩
  obtain ⟨page, hpage, hlookup, hzero⟩ := h.inside va hlo hhi
  refine ⟨page, hpage, hlookup, ?_⟩
  have htarget := Radix.mem_collect_of_lookup entryTarget hlookup
  rw [entryTarget_or hflags] at htarget
  rw [hmem page htarget, hzero]

/-- `assign`, for entry `i` of a table of depth `d + 1`. -/
def AssignedSlot (fresh : List Frame) (flags : Word) (d base vbegin vend : ℕ) (i : Fin 512)
    (t t' : PageTree) (memory : Frame → Page) : Prop :=
  AssignedAt fresh flags d (base + i * pointeeSize (d + 1)) (nextVbegin (d + 1) vbegin i)
    (nextVend (d + 1) vbegin vend i) t t' memory

/-- What `assign` does before it goes down: it opens the table that is there, or a new one. -/
inductive Opened (entry : Word) (slots : Fin 512 → PageTree) : PageTree → Prop
  | old : Opened entry slots (.table entry slots)
  | new (he : IsIntermediate entry) (h : ∀ i, slots i = .absent) : Opened entry slots .absent

namespace Opened

variable {entry : Word} {slots : Fin 512 → PageTree} {t : PageTree}

lemma lookup (h : Opened entry slots t) (i : Fin 512) (p : List (Fin 512)) :
    t.lookup (i :: p) = (slots i).lookup p := by
  cases h with
  | old => simp
  | new _ h => simp [h i]

lemma noEmpty (h : Opened entry slots t) (ht : t.NoEmpty) (i : Fin 512) :
    (slots i).NoEmpty := by
  cases h with
  | old => exact ((Radix.noEmpty_table _ _).mp ht).2 i
  | new _ h => simp [h i]

lemma tables (h : Opened entry slots t) (ht : t.Tables IsIntermediate) :
    IsIntermediate entry ∧ ∀ i, (slots i).Tables IsIntermediate := by
  cases h with
  | old => exact (Radix.tables_table _ _ _).mp ht
  | new he h => exact ⟨he, fun i => by simp [h i]⟩

lemma prune (h : Opened entry slots t) (ht : t.NoEmpty) : Radix.prune entry slots = t := by
  cases h with
  | old =>
    obtain ⟨⟨i, hi⟩, -⟩ := (Radix.noEmpty_table _ _).mp ht
    exact Radix.prune_of_ne entry hi
  | new _ h => exact Radix.prune_of_absent entry h

end Opened

/-- From the entries of an opened table to the table. -/
lemma AssignedAt.of_slots {fresh : List Frame} {flags : Word} {d base vbegin vend : ℕ}
    {entry : Word} {slots slots' : Fin 512 → PageTree} {t : PageTree} {memory : Frame → Page}
    (hr : TableRange (d + 1) base vbegin vend) (ht : Opened entry slots t)
    (hout : ∀ i, i ∉ indices (d + 1) vbegin vend → slots' i = slots i)
    (hin : ∀ i ∈ indices (d + 1) vbegin vend,
      AssignedSlot fresh flags d base vbegin vend i (slots i) (slots' i) memory) :
    AssignedAt fresh flags (d + 1) base vbegin vend t (.table entry slots') memory := by
  refine ⟨?_, ?_, ?_, ?_, ?_, ?_⟩
  · intro va h1 h2
    have hmem := hr.tableIndex_mem_indices h1 h2
    obtain ⟨h3, h4⟩ := (hr.mem_child_iff _).mp ⟨h1, h2, rfl⟩
    rw [pathOf_succ, ht.lookup]
    exact (hin _ hmem).unmapped va h3 h4
  · intro va h1 h2
    have hmem := hr.tableIndex_mem_indices h1 h2
    obtain ⟨h3, h4⟩ := (hr.mem_child_iff _).mp ⟨h1, h2, rfl⟩
    simpa using (hin _ hmem).inside va h3 h4
  · intro va h1 h2 h3
    rw [pathOf_succ, Radix.lookup_table_cons, ht.lookup]
    by_cases hmem : tableIndex (d + 1) va ∈ indices (d + 1) vbegin vend
    · obtain ⟨h4, h5⟩ := (tableIndex_eq_iff hr.base_dvd h1 h2 _).mp rfl
      refine (hin _ hmem).outside va h4 ?_ fun h6 => h3 ?_
      · rw [add_mul, one_mul] at h5
        omega
      · obtain ⟨h7, h8, -⟩ := (hr.mem_child_iff _).mpr h6
        exact ⟨h7, h8⟩
    · rw [hout _ hmem]
  · intro hne
    rw [Radix.erase_table _ _ hr.pathsIn_nonempty, ← ht.prune hne]
    congr 1
    funext i
    by_cases hi : i ∈ indices (d + 1) vbegin vend
    · rw [hr.pathsIn_child i, (hin i hi).erase (ht.noEmpty hne i)]
    · rw [hr.pathsIn_child_of_notMem hi, Radix.erase_empty, hout i hi]
  · intro hne
    rw [Radix.noEmpty_table]
    constructor
    · refine ⟨tableIndex (d + 1) vbegin, fun habsent => ?_⟩
      have hmem := hr.tableIndex_mem_indices le_rfl hr.lt
      obtain ⟨h3, h4⟩ := (hr.mem_child_iff _).mp ⟨le_rfl, hr.lt, rfl⟩
      obtain ⟨page, -, hlookup, -⟩ := (hin _ hmem).inside vbegin h3 h4
      rw [habsent, Radix.lookup_absent] at hlookup
      cases hlookup
    · intro i
      by_cases hi : i ∈ indices (d + 1) vbegin vend
      · exact (hin i hi).noEmpty (ht.noEmpty hne i)
      · rw [hout i hi]
        exact ht.noEmpty hne i
  · intro htables
    obtain ⟨hentry, hslots⟩ := ht.tables htables
    rw [Radix.tables_table]
    refine ⟨hentry, fun i => ?_⟩
    by_cases hi : i ∈ indices (d + 1) vbegin vend
    · exact (hin i hi).tables (hslots i)
    · rw [hout i hi]
      exact hslots i

section

variable {owned : Fin 512 → Bool} {d vbegin vend : ℕ} {table : Frame} {s : Pmm} {i : Fin 512}

/-- Allocating the frame entry `i` points at is an iteration on entry `i`. -/
lemma SlotStep.of_alloc {page : Frame} {s' : Pmm} {entry : Word} (hs : Apart owned d table s)
    (hp : isPresent (s.memory table i) = false)
    (halloc : Allocated page s s') (htarget : entryTarget entry = page)
    (hpresent : isPresent entry = true) :
    SlotStep .tables d table i s (s'.setWord table i entry) ∧
      frames ((s'.setWord table i entry).treeAt d table i) = {page} ∧
      (s'.setWord table i entry).memory page = Page.fill 0 := by
  have hne : page ≠ table := fun h => hs.table_notMem_free (h ▸ halloc.mem)
  have hzero : (s'.setWord table i entry).memory page = Page.fill 0 := by
    rw [Pmm.setWord_of_ne_frame _ _ _ hne, halloc.zero]
  have hframes : frames ((s'.setWord table i entry).treeAt d table i) = {page} := by
    unfold Pmm.treeAt
    rw [Pmm.setWord_self]
    cases d with
    | zero => rw [treeOf_zero hpresent, frames_page, htarget]
    | succ d =>
      rw [frames_treeOf_succ hpresent, htarget, slotFrames_of_zero hzero]
      rfl
  refine ⟨⟨halloc.counted, ?_, ?_, ?_, ?_⟩, hframes, hzero⟩
  · rw [hframes, Pmm.treeAt, treeOf_absent hp, frames_absent, zero_add, halloc.freeList]
    rfl
  · exact fun g hg => Or.inl (halloc.free_subset hg)
  · intro g hg _ hfree
    rw [Pmm.setWord_of_ne_frame _ _ _ hg, halloc.other g fun h => hfree (h ▸ halloc.mem)]
  · intro j hj
    rw [Pmm.setWord_of_ne _ _ _ hj, halloc.other table hne.symm]

/-- What `nextTable` returns: the entry is present, its table is the old one or a new, empty
one, and it is apart from the rest. -/
structure NextTable (d : ℕ) (table : Frame) (i : Fin 512) (s : Pmm) (target : Frame) (s' : Pmm) :
    Prop where
  target_eq : entryTarget (s'.memory table i) = target
  present : isPresent (s'.memory table i) = true
  step : SlotStep .tables (d + 1) table i s s'
  apart : Apart allSlots d target s'
  touch : ∀ g ∈ tableFrames (s'.treeAt (d + 1) table i),
    g ∈ s.freeList ∨ g ∈ tableFrames (s.treeAt (d + 1) table i)
  opened : Opened (s'.memory table i) (slotsOf allSlots s'.memory d target)
    (s.treeAt (d + 1) table i)

/-- A new table, when the entry is not present. -/
lemma NextTable.of_alloc {page : Frame} {s' : Pmm} (hs : Apart owned (d + 1) table s)
    (hp : isPresent (s.memory table i) = false) (halloc : Allocated page s s') :
    NextTable d table i s page (s'.setWord table i (entryAddressBits page ||| intermediate)) := by
  have htarget : entryTarget (entryAddressBits page ||| intermediate) = page :=
    entryTarget_or flagBits_intermediate page
  have hpresent : isPresent (entryAddressBits page ||| intermediate) = true :=
    isPresent_or flagBits_intermediate.present _
  obtain ⟨hstep, hframes, hzero⟩ := SlotStep.of_alloc hs hp halloc htarget hpresent
  refine ⟨by simpa using htarget, by simpa using hpresent, hstep, ?_, ?_, ?_⟩
  · constructor
    rw [slotFrames_of_zero hzero, zero_add]
    have hnodup := (Multiset.nodup_add.mp (Multiset.nodup_cons.mp hs.nodup).2).2.1
    rw [halloc.freeList] at hnodup
    exact hnodup
  · intro g hg
    have hmem := Multiset.mem_of_le (Radix.collectTables_le entryTarget _) hg
    have hpage : g = page := by
      rw [show Radix.collect entryTarget _ = frames _ from rfl, hframes] at hmem
      exact Multiset.mem_singleton.mp hmem
    exact Or.inl (hpage ▸ halloc.mem)
  · rw [Pmm.treeAt, treeOf_absent hp, Pmm.setWord_self]
    exact .new (isIntermediate_or page) fun j => treeAt_of_zero hzero d j

lemma nextTable_spec (hs : Apart owned (d + 1) table s) (hi : owned i = true)
    (hcount : s.Counted) :
    Ensures (· = .outOfMemory) (fun r => NextTable d table i s r.1 r.2)
      (nextTable table i s) := by
  unfold nextTable
  cases hp : isPresent (s.memory table i) with
  | true =>
    simp only [hp, Bool.not_true, Bool.false_eq_true, if_false]
    refine ⟨rfl, hp, ⟨hcount, rfl, fun _ hg => Or.inl hg, fun _ _ _ _ => rfl, fun _ _ => rfl⟩,
      hs.child hi hp, fun _ hg => Or.inr hg, ?_⟩
    rw [Pmm.treeAt, treeOf_table hp]
    exact .old
  | false =>
    simp only [hp, Bool.not_false, if_true]
    refine (mmuAllocPage_spec hcount).bind ?_
    rintro ⟨page, s'⟩ halloc
    exact NextTable.of_alloc hs hp halloc

/-- Opening entry `i` and then working on its table is an iteration on entry `i`. -/
lemma NextTable.child {target : Frame} {s₁ s₂ : Pmm} {visited : List (Fin 512)}
    (h : NextTable d table i s target s₁) (hs : Apart owned (d + 1) table s)
    (hi : owned i = true) (hslots : SlotsStep .tables allSlots d target visited s₁ s₂) :
    SlotStep .tables (d + 1) table i s s₂ ∧ s₂.treeAt (d + 1) table i =
      .table (s₁.memory table i) (slotsOf allSlots s₂.memory d target) := by
  have htarget := h.target_eq
  subst htarget
  have hs₁ : Apart owned (d + 1) table s₁ :=
    hs.of_conserved (h.step.slotFrames_conserved hs hi)
  obtain ⟨hstep, htable⟩ := SlotStep.of_child hs₁ hi h.present hslots
  refine ⟨h.step.trans hstep h.touch (fun hT => by cases hT), ?_⟩
  rw [Pmm.treeAt, htable, treeOf_table h.present]

/-- Why `assign` stops: no frame is left, or a page of the range is there already. -/
def AssignStop (mapped : Prop) (e : Panic) : Prop :=
  e = .outOfMemory ∨ e = .assignOverExisting ∧ mapped

lemma AssignStop.outOfMemory {mapped : Prop} {e : Panic} (h : AssignStop mapped e)
    (hm : ¬ mapped) : e = .outOfMemory := by
  rcases h with he | ⟨-, hmapped⟩
  · exact he
  · exact absurd hmapped hm

lemma treeAt_zero_eq_absent (h : Unmapped 0 vbegin vend (s.treeAt 0 table i))
    (hlt : vbegin < vend) : s.treeAt 0 table i = .absent := by
  have hlookup := h vbegin le_rfl hlt
  unfold Pmm.treeAt treeOf at hlookup ⊢
  split_ifs at hlookup ⊢ with hp
  · simp at hlookup
  · rfl

/-- A page is assigned. -/
lemma assignPage_spec {flags : Word} (hflags : FlagBits flags) {fresh : List Frame}
    {base vbegin vend : ℕ} (hr : TableRange 0 base vbegin vend) (hs : Apart owned 0 table s)
    (hcount : s.Counted) (hfresh : ∀ g ∈ s.freeList, g ∈ fresh) :
    Ensures (AssignStop (¬ Unmapped 0 vbegin vend (s.treeAt 0 table i)))
      (fun s' => SlotStep .tables 0 table i s s' ∧
        AssignedAt fresh flags 0 base vbegin vend (s.treeAt 0 table i) (s'.treeAt 0 table i)
          s'.memory) (assignPage table i flags s) := by
  unfold assignPage
  cases hp : isPresent (s.memory table i) with
  | true =>
    rw [if_pos rfl]
    refine Or.inr ⟨rfl, fun hnone => ?_⟩
    have habsent := treeAt_zero_eq_absent hnone hr.lt
    rw [Pmm.treeAt, treeOf_eq_absent_iff, hp] at habsent
    cases habsent
  | false =>
    rw [if_neg (by simp)]
    refine ((mmuAllocPage_spec hcount).mono (fun e he => Or.inl he) fun _ h => h).bind ?_
    rintro ⟨page, s'⟩ halloc
    dsimp only at halloc ⊢
    have hpresent := isPresent_or hflags.present (entryAddressBits page)
    obtain ⟨hstep, -, hzero⟩ :=
      SlotStep.of_alloc hs hp halloc (entryTarget_or hflags page) hpresent
    refine ⟨hstep, ?_⟩
    have htree : (s'.setWord table i (entryAddressBits page ||| flags)).treeAt 0 table i =
        .page (entryAddressBits page ||| flags) := by
      rw [Pmm.treeAt, Pmm.setWord_self, treeOf_zero hpresent]
    have habsent : s.treeAt 0 table i = .absent := treeOf_absent hp 0
    rw [htree, habsent]
    obtain ⟨hbegin, hend⟩ := hr.page
    refine ⟨fun va _ _ => Radix.lookup_absent _, ?_, ?_, ?_, fun _ => Radix.noEmpty_page _,
      fun _ => Radix.tables_page _ _⟩
    · intro va _ _
      exact ⟨page, hfresh page halloc.mem, rfl, hzero⟩
    · intro va h1 h2 h3
      have hsize : pointeeSize (0 + 1) = 4096 := by decide
      omega
    · intro _
      obtain ⟨p, va, h1, h2, h3⟩ := hr.pathsIn_nonempty
      exact Radix.erase_page_of_mem _ (mem_pathsIn h1 h2)

end

/-- No page of the range is below the entries of a table. -/
def SlotsUnmapped (d : ℕ) (table : Frame) (vbegin vend : ℕ) (s : Pmm) : Prop :=
  ∀ va, vbegin ≤ va → va < vend →
    (s.treeAt d table (tableIndex (d + 1) va)).lookup (pathOf d va) = none

lemma SlotsUnmapped.slot {d : ℕ} {table : Frame} {base vbegin vend : ℕ} {s : Pmm}
    (hr : TableRange (d + 1) base vbegin vend) (h : SlotsUnmapped d table vbegin vend s)
    (i : Fin 512) : Unmapped d (nextVbegin (d + 1) vbegin i) (nextVend (d + 1) vbegin vend i)
      (s.treeAt d table i) := by
  intro va h1 h2
  obtain ⟨h3, h4, h5⟩ := (hr.mem_child_iff i).mpr ⟨h1, h2⟩
  have hlookup := h va h3 h4
  rwa [h5] at hlookup

/-- `assign`, for a table of depth `d + 1`. It returns only when the range held no page. -/
theorem assign_slots {flags : Word} (hflags : FlagBits flags) (fresh : List Frame) (d : ℕ)
    {owned : Fin 512 → Bool} {table : Frame} {base vbegin vend : ℕ} {s : Pmm}
    (hr : TableRange (d + 1) base vbegin vend)
    (howned : ∀ i ∈ indices (d + 1) vbegin vend, owned i = true)
    (hs : Apart owned d table s) (hcount : s.Counted) (hfresh : ∀ g ∈ s.freeList, g ∈ fresh) :
    Ensures (AssignStop (¬ SlotsUnmapped d table vbegin vend s)) (fun s' =>
      SlotsStep .tables owned d table (indices (d + 1) vbegin vend) s s' ∧
      ∀ i ∈ indices (d + 1) vbegin vend, AssignedSlot fresh flags d base vbegin vend i
        (s.treeAt d table i) (s'.treeAt d table i) s'.memory)
      (assign (d + 1) table vbegin vend flags s) := by
  induction d generalizing owned table base vbegin vend s with
  | zero =>
    unfold assign
    rw [hr.forEntries_eq]
    refine forEach_slots (AssignedSlot fresh flags 0 base vbegin vend)
      (fun i t t' memory memory' h hmem => AssignedAt.of_agree hflags h hmem)
      (nodup_indices _ _ _) howned hs hcount fun i hi done s' hnotin _ hdone hs' _ => ?_
    have hchild := hr.child hi
    rw [if_neg (Nat.lt_irrefl _)]
    refine (assignPage_spec hflags hchild hs' hdone.counted (hdone.fresh hfresh)).mono ?_
      fun _ h => h
    rintro e (he | ⟨he, hmapped⟩)
    · exact Or.inl he
    · refine Or.inr ⟨he, fun hnone => hmapped ?_⟩
      rw [hdone.same i hnotin (howned i hi)]
      exact hnone.slot hr i
  | succ d ih =>
    unfold assign
    rw [hr.forEntries_eq]
    refine forEach_slots (AssignedSlot fresh flags (d + 1) base vbegin vend)
      (fun i t t' memory memory' h hmem => AssignedAt.of_agree hflags h hmem)
      (nodup_indices _ _ _) howned hs hcount fun i hi done s' hnotin _ hdone hs' _ => ?_
    have hchild := hr.child hi
    rw [if_pos (Nat.succ_lt_succ d.succ_pos)]
    refine ((nextTable_spec hs' (howned i hi) hdone.counted).mono (fun e he => Or.inl he)
      fun _ h => h).bind ?_
    rintro ⟨target, s₁⟩ hnext
    dsimp only at hnext ⊢
    have hfresh' : ∀ g ∈ s₁.freeList, g ∈ fresh := fun g hg =>
      hdone.fresh hfresh g (hnext.step.free_of_tables hg)
    refine (ih hchild (fun _ _ => rfl) hnext.apart hnext.step.counted hfresh').mono ?_ ?_
    · rintro e (he | ⟨he, hmapped⟩)
      · exact Or.inl he
      · refine Or.inr ⟨he, fun hnone => hmapped fun va h1 h2 => ?_⟩
        have hlookup := hnone.slot hr i va h1 h2
        rw [← hdone.same i hnotin (howned i hi), pathOf_succ, hnext.opened.lookup] at hlookup
        exact hlookup
    · rintro s₂ ⟨hslots, hassigned⟩
      obtain ⟨hstep, htree⟩ := hnext.child hs' (howned i hi) hslots
      refine ⟨hstep, ?_⟩
      rw [htree]
      refine AssignedAt.of_slots hchild hnext.opened (fun j hj => ?_) fun j hj => ?_
      · exact hslots.same j hj rfl
      · exact hassigned j hj

end Fluke
