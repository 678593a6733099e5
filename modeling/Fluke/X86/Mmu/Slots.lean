import Mathlib.Data.Multiset.Basic
import Fluke.Library.Radix
import Fluke.X86.Mmu.Index

/-!
# Page tables as trees

`treeOf` reads the tree below an entry out of physical memory. Its frames are the frames the
tree's present entries point at, each counted once for every entry that points at it.

A loop over the entries of a table handles one entry after the other. `SlotStep` says what one
iteration may do: it keeps the frames of its own entry's tree together with the free list, and
it writes only to its own entry, to frames that its tree lets go (`Touch`) and to free frames.
As long as all frames concerned are different, iterations on different entries do not disturb
each other, and `forEntries_slots` puts them together.
-/

namespace Fluke

open Outcome

/-- Tables and pages below an entry, labelled by the entries that point at them. -/
abbrev PageTree := Radix 512 Word

/-- The tree below an entry of a table of depth `d + 1`. -/
def treeOf (memory : Frame → Page) : ℕ → Word → PageTree
  | 0, entry => if isPresent entry then .page entry else .absent
  | d + 1, entry =>
    if isPresent entry then
      .table entry fun i => treeOf memory d (memory (entryTarget entry) i)
    else .absent

/-- The tree below entry `i` of a table. -/
def Pmm.treeAt (s : Pmm) (d : ℕ) (table : Frame) (i : Fin 512) : PageTree :=
  treeOf s.memory d (s.memory table i)

lemma treeOf_absent {memory : Frame → Page} {entry : Word} (h : isPresent entry = false) (d : ℕ) :
    treeOf memory d entry = .absent := by
  cases d <;> simp [treeOf, h]

lemma treeOf_zero {memory : Frame → Page} {entry : Word} (h : isPresent entry = true) :
    treeOf memory 0 entry = .page entry := by
  simp [treeOf, h]

lemma treeOf_succ {memory : Frame → Page} {entry : Word} (h : isPresent entry = true) (d : ℕ) :
    treeOf memory (d + 1) entry =
      .table entry fun i => treeOf memory d (memory (entryTarget entry) i) := by
  simp [treeOf, h]

lemma treeOf_eq_absent_iff {memory : Frame → Page} {entry : Word} {d : ℕ} :
    treeOf memory d entry = .absent ↔ isPresent entry = false := by
  cases h : isPresent entry with
  | false => simp [treeOf_absent h d]
  | true =>
    cases d with
    | zero => simp [treeOf_zero h]
    | succ d => simp [treeOf_succ h d]

/-- All pages of a tree lie at one depth. -/
lemma lookup_of_length {memory : Frame → Page} {d : ℕ} {entry : Word} {p : List (Fin 512)}
    (hp : p.length ≠ d) : (treeOf memory d entry).lookup p = none := by
  induction d generalizing entry p with
  | zero =>
    cases he : isPresent entry with
    | false => rw [treeOf_absent he, Radix.lookup_absent]
    | true =>
      rw [treeOf_zero he]
      cases p with
      | nil => exact absurd rfl hp
      | cons i p => exact Radix.lookup_page_cons _ _ _
  | succ d ih =>
    cases he : isPresent entry with
    | false => rw [treeOf_absent he, Radix.lookup_absent]
    | true =>
      rw [treeOf_succ he]
      cases p with
      | nil => exact Radix.lookup_table_nil _ _
      | cons i p =>
        rw [Radix.lookup_table_cons]
        exact ih fun h => hp (by rw [List.length_cons, h])

/-- The frames the entries of a tree point at. -/
def frames (t : PageTree) : Multiset Frame := t.collect entryTarget

/-- The frames that hold the tables of a tree. -/
def tableFrames (t : PageTree) : Multiset Frame := t.collectTables entryTarget

@[simp] lemma frames_absent : frames .absent = 0 := by simp [frames]

@[simp] lemma frames_page (entry : Word) : frames (.page entry) = {entryTarget entry} := by
  simp [frames]

/-- The frames of the trees in the slots of a table. -/
def framesOfSlots (slots : Fin 512 → PageTree) : Multiset Frame :=
  Radix.collectSlots entryTarget slots

@[simp] lemma frames_table (entry : Word) (slots : Fin 512 → PageTree) :
    frames (.table entry slots) = entryTarget entry ::ₘ framesOfSlots slots := by
  simp [frames, framesOfSlots]

lemma frames_le_framesOfSlots (slots : Fin 512 → PageTree) (i : Fin 512) :
    frames (slots i) ≤ framesOfSlots slots :=
  Radix.collect_le_collectSlots entryTarget slots i

lemma mem_framesOfSlots {slots : Fin 512 → PageTree} {g : Frame} :
    g ∈ framesOfSlots slots ↔ ∃ i, g ∈ frames (slots i) :=
  Radix.mem_collectSlots

lemma framesOfSlots_of_absent {slots : Fin 512 → PageTree} (h : ∀ i, slots i = .absent) :
    framesOfSlots slots = 0 :=
  Radix.collectSlots_of_absent entryTarget h

lemma framesOfSlots_of_ne {slots slots' : Fin 512 → PageTree} {i : Fin 512}
    (h : ∀ j, j ≠ i → slots' j = slots j) :
    framesOfSlots slots' + frames (slots i) = framesOfSlots slots + frames (slots' i) :=
  Radix.collectSlots_of_ne entryTarget h

lemma slot_eq_of_nodup {slots : Fin 512 → PageTree} {i j : Fin 512} {g : Frame}
    (h : (framesOfSlots slots).Nodup) (hi : g ∈ frames (slots i)) (hj : g ∈ frames (slots j)) :
    i = j :=
  Radix.slot_eq_of_nodup entryTarget slots h hi hj

/-- Reading a tree looks at its tables only. -/
lemma treeOf_congr {memory memory' : Frame → Page} {d : ℕ} {entry : Word}
    (h : ∀ g ∈ tableFrames (treeOf memory d entry), memory' g = memory g) :
    treeOf memory' d entry = treeOf memory d entry := by
  induction d generalizing entry with
  | zero => simp [treeOf]
  | succ d ih =>
    cases he : isPresent entry with
    | false => rw [treeOf_absent he, treeOf_absent he]
    | true =>
      rw [treeOf_succ he, treeOf_succ he]
      rw [treeOf_succ he] at h
      simp only [tableFrames, Radix.mem_collectTables_table] at h
      rw [h _ (Or.inl rfl)]
      congr 1
      funext i
      exact ih fun g hg => h g (Or.inr ⟨i, hg⟩)

/-- The frames of a tree whose contents an operation may overwrite. -/
structure Touch where
  frames : PageTree → Multiset Frame
  /-- Whether such frames may also be given back to the free list. -/
  frees : Bool
  mem_table : ∀ g entry slots,
    g ∈ frames (.table entry slots) ↔ g = entryTarget entry ∨ ∃ i, g ∈ frames (slots i)
  le : ∀ t, frames t ≤ Fluke.frames t

/-- An operation that writes to tables and leaves the pages alone. -/
def Touch.tables : Touch where
  frames := tableFrames
  frees := false
  mem_table _ _ _ := Radix.mem_collectTables_table
  le := Radix.collectTables_le entryTarget

/-- An operation that may also give pages back. -/
def Touch.all : Touch where
  frames := Fluke.frames
  frees := true
  mem_table g entry slots := by
    rw [frames_table, Multiset.mem_cons, mem_framesOfSlots]
  le _ := le_rfl

/-- The trees below the entries of a table, as far as the entries are in `owned`. -/
def slotsOf (owned : Fin 512 → Bool) (memory : Frame → Page) (d : ℕ) (table : Frame) :
    Fin 512 → PageTree :=
  fun i => if owned i then treeOf memory d (memory table i) else .absent

/-- All entries of a table. -/
def allSlots : Fin 512 → Bool := fun _ => true

lemma slotsOf_of_owned {owned : Fin 512 → Bool} {i : Fin 512} (h : owned i = true)
    (s : Pmm) (d : ℕ) (table : Frame) : slotsOf owned s.memory d table i = s.treeAt d table i := by
  simp [slotsOf, h, Pmm.treeAt]

@[simp] lemma slotsOf_allSlots (memory : Frame → Page) (d : ℕ) (table : Frame) (i : Fin 512) :
    slotsOf allSlots memory d table i = treeOf memory d (memory table i) := rfl

/-- The frames below the owned entries of a table. -/
def slotFrames (owned : Fin 512 → Bool) (memory : Frame → Page) (d : ℕ) (table : Frame) :
    Multiset Frame :=
  framesOfSlots (slotsOf owned memory d table)

lemma treeOf_table {memory : Frame → Page} {entry : Word} (h : isPresent entry = true) (d : ℕ) :
    treeOf memory (d + 1) entry = .table entry (slotsOf allSlots memory d (entryTarget entry)) :=
  treeOf_succ h d

lemma frames_treeOf_succ {memory : Frame → Page} {entry : Word} (h : isPresent entry = true)
    (d : ℕ) : frames (treeOf memory (d + 1) entry) =
      entryTarget entry ::ₘ slotFrames allSlots memory d (entryTarget entry) := by
  rw [treeOf_table h, frames_table, slotFrames]

/-- The table, the frames below it and the free frames are all different. -/
structure Apart (owned : Fin 512 → Bool) (d : ℕ) (table : Frame) (s : Pmm) : Prop where
  nodup : (table ::ₘ (slotFrames owned s.memory d table + (s.freeList : Multiset Frame))).Nodup

namespace Apart

variable {owned : Fin 512 → Bool} {d : ℕ} {table : Frame} {s : Pmm}

lemma frames_le {i : Fin 512} (hi : owned i = true) :
    frames (s.treeAt d table i) ≤ slotFrames owned s.memory d table := by
  rw [← slotsOf_of_owned hi]
  exact frames_le_framesOfSlots _ i

lemma ne_table (h : Apart owned d table s) {i : Fin 512} (hi : owned i = true) {g : Frame}
    (hg : g ∈ frames (s.treeAt d table i)) : g ≠ table := by
  rintro rfl
  refine (Multiset.nodup_cons.mp h.nodup).1 (Multiset.mem_add.mpr (Or.inl ?_))
  exact Multiset.mem_of_le (frames_le hi) hg

lemma table_notMem_free (h : Apart owned d table s) : table ∉ s.freeList := fun hmem =>
  (Multiset.nodup_cons.mp h.nodup).1 (Multiset.mem_add.mpr (Or.inr (Multiset.mem_coe.mpr hmem)))

lemma notMem_free (h : Apart owned d table s) {i : Fin 512} (hi : owned i = true) {g : Frame}
    (hg : g ∈ frames (s.treeAt d table i)) : g ∉ s.freeList := by
  have hdisj := (Multiset.nodup_add.mp (Multiset.nodup_cons.mp h.nodup).2).2.2
  intro hfree
  exact Multiset.disjoint_left.mp hdisj (Multiset.mem_of_le (frames_le hi) hg)
    (Multiset.mem_coe.mpr hfree)

lemma slot_eq (h : Apart owned d table s) {i j : Fin 512} (hi : owned i = true)
    (hj : owned j = true) {g : Frame} (hgi : g ∈ frames (s.treeAt d table i))
    (hgj : g ∈ frames (s.treeAt d table j)) : i = j := by
  have hnodup := (Multiset.nodup_add.mp (Multiset.nodup_cons.mp h.nodup).2).1
  rw [← slotsOf_of_owned hi] at hgi
  rw [← slotsOf_of_owned hj] at hgj
  exact slot_eq_of_nodup hnodup hgi hgj

/-- What the step on entry `i` may rely on: its own tree is apart from the free list. -/
lemma slot (h : Apart owned d table s) {i : Fin 512} (hi : owned i = true) :
    (table ::ₘ (frames (s.treeAt d table i) + (s.freeList : Multiset Frame))).Nodup :=
  Multiset.nodup_of_le (Multiset.cons_le_cons _ (add_le_add_left (frames_le hi) _)) h.nodup

end Apart

/-- One iteration, on entry `i`. -/
structure SlotStep (T : Touch) (d : ℕ) (table : Frame) (i : Fin 512) (s s' : Pmm) : Prop where
  counted : s'.Counted
  conserved : frames (s'.treeAt d table i) + (s'.freeList : Multiset Frame) =
    frames (s.treeAt d table i) + (s.freeList : Multiset Frame)
  free : ∀ g ∈ s'.freeList,
    g ∈ s.freeList ∨ T.frees = true ∧ g ∈ T.frames (s.treeAt d table i)
  frame : ∀ g, g ≠ table → g ∉ T.frames (s.treeAt d table i) → g ∉ s.freeList →
    s'.memory g = s.memory g
  entries : ∀ j, j ≠ i → s'.memory table j = s.memory table j

/-- A loop over the entries in `visited`. -/
structure SlotsStep (T : Touch) (owned : Fin 512 → Bool) (d : ℕ) (table : Frame)
    (visited : List (Fin 512)) (s s' : Pmm) : Prop where
  counted : s'.Counted
  conserved : slotFrames owned s'.memory d table + (s'.freeList : Multiset Frame) =
    slotFrames owned s.memory d table + (s.freeList : Multiset Frame)
  free : ∀ g ∈ s'.freeList,
    g ∈ s.freeList ∨ T.frees = true ∧ ∃ i ∈ visited, g ∈ T.frames (s.treeAt d table i)
  frame : ∀ g, g ≠ table → (∀ i ∈ visited, g ∉ T.frames (s.treeAt d table i)) →
    g ∉ s.freeList → s'.memory g = s.memory g
  entries : ∀ j, j ∉ visited → s'.memory table j = s.memory table j
  same : ∀ j, j ∉ visited → owned j = true → s'.treeAt d table j = s.treeAt d table j

section Compose

variable {T : Touch} {owned : Fin 512 → Bool} {d : ℕ} {table : Frame} {s s' s'' : Pmm}
  {i : Fin 512} {visited : List (Fin 512)}

lemma SlotsStep.refl (hs : s.Counted) : SlotsStep T owned d table [] s s where
  counted := hs
  conserved := rfl
  free _ hg := Or.inl hg
  frame _ _ _ _ := rfl
  entries _ _ := rfl
  same _ _ _ := rfl

/-- An iteration on `i` does not write to what hangs below another entry. -/
lemma SlotStep.memory_of_mem (h : SlotStep T d table i s s') (hs : Apart owned d table s)
    (hi : owned i = true) {j : Fin 512} (hj : owned j = true) (hji : j ≠ i) {g : Frame}
    (hg : g ∈ frames (s.treeAt d table j)) : s'.memory g = s.memory g := by
  refine h.frame g (hs.ne_table hj hg) (fun hgi => hji ?_) (hs.notMem_free hj hg)
  exact hs.slot_eq hj hi hg (Multiset.mem_of_le (T.le _) hgi)

lemma SlotStep.treeAt_of_ne (h : SlotStep T d table i s s') (hs : Apart owned d table s)
    (hi : owned i = true) {j : Fin 512} (hj : owned j = true) (hji : j ≠ i) :
    s'.treeAt d table j = s.treeAt d table j := by
  unfold Pmm.treeAt
  rw [h.entries j hji]
  exact treeOf_congr fun g hg =>
    h.memory_of_mem hs hi hj hji (Multiset.mem_of_le (Radix.collectTables_le _ _) hg)

lemma SlotStep.slotFrames_conserved (h : SlotStep T d table i s s') (hs : Apart owned d table s)
    (hi : owned i = true) :
    slotFrames owned s'.memory d table + (s'.freeList : Multiset Frame) =
      slotFrames owned s.memory d table + (s.freeList : Multiset Frame) := by
  have hne : slotFrames owned s'.memory d table + frames (s.treeAt d table i) =
      slotFrames owned s.memory d table + frames (s'.treeAt d table i) := by
    rw [← slotsOf_of_owned hi s, ← slotsOf_of_owned hi s']
    refine framesOfSlots_of_ne fun j hji => ?_
    cases hj : owned j with
    | false => simp [slotsOf, hj]
    | true =>
      rw [slotsOf_of_owned hj, slotsOf_of_owned hj]
      exact h.treeAt_of_ne hs hi hj hji
  refine add_right_cancel (b := frames (s.treeAt d table i)) ?_
  calc slotFrames owned s'.memory d table + (s'.freeList : Multiset Frame)
        + frames (s.treeAt d table i)
      = slotFrames owned s'.memory d table + frames (s.treeAt d table i) + s'.freeList := by abel
    _ = slotFrames owned s.memory d table + (frames (s'.treeAt d table i) + s'.freeList) := by
      rw [hne, add_assoc]
    _ = slotFrames owned s.memory d table + (frames (s.treeAt d table i) + s.freeList) := by
      rw [h.conserved]
    _ = _ := by abel

lemma Apart.of_conserved (hs : Apart owned d table s)
    (h : slotFrames owned s'.memory d table + (s'.freeList : Multiset Frame) =
      slotFrames owned s.memory d table + (s.freeList : Multiset Frame)) :
    Apart owned d table s' := by
  constructor
  rw [h]
  exact hs.nodup

/-- A loop followed by one more iteration. -/
lemma SlotsStep.snoc (h : SlotsStep T owned d table visited s s') (hs : Apart owned d table s)
    (hi : i ∉ visited) (hown : owned i = true)
    (h' : SlotStep T d table i s' s'') :
    SlotsStep T owned d table (visited ++ [i]) s s'' := by
  have hs' := hs.of_conserved h.conserved
  have hsame : s'.treeAt d table i = s.treeAt d table i := h.same i hi hown
  refine ⟨h'.counted, ?_, ?_, ?_, ?_, ?_⟩
  · rw [h'.slotFrames_conserved hs' hown, h.conserved]
  · intro g hg
    rcases h'.free g hg with hg' | ⟨hT, hg'⟩
    · rcases h.free g hg' with hfree | ⟨hT, j, hj, htouch⟩
      · exact Or.inl hfree
      · exact Or.inr ⟨hT, j, List.mem_append_left _ hj, htouch⟩
    · rw [hsame] at hg'
      exact Or.inr ⟨hT, i, by simp, hg'⟩
  · intro g hne htouch hfree
    have hbefore : s'.memory g = s.memory g :=
      h.frame g hne (fun j hj => htouch j (List.mem_append_left _ hj)) hfree
    rw [← hbefore]
    refine h'.frame g hne ?_ fun hg => ?_
    · rw [hsame]
      exact htouch i (by simp)
    · rcases h.free g hg with hg' | ⟨-, j, hj, hg'⟩
      · exact hfree hg'
      · exact htouch j (List.mem_append_left _ hj) hg'
  · intro j hj
    simp only [List.mem_append, List.mem_singleton, not_or] at hj
    rw [h'.entries j hj.2, h.entries j hj.1]
  · intro j hj hownj
    simp only [List.mem_append, List.mem_singleton, not_or] at hj
    rw [h'.treeAt_of_ne hs' hown hownj hj.2, h.same j hj.1 hownj]

/-- The loop over distinct owned entries. `R i` is what one iteration makes of the tree below
entry `i`; later iterations keep it, as it depends on that tree's frames only. -/
theorem forEach_slots {E : Panic → Prop} {body : Fin 512 → Pmm → Except Panic Pmm}
    (R : Fin 512 → PageTree → PageTree → (Frame → Page) → Prop)
    (hstable : ∀ i t t' memory memory', R i t t' memory →
      (∀ g ∈ frames t', memory' g = memory g) → R i t t' memory')
    (hnodup : visited.Nodup) (howned : ∀ i ∈ visited, owned i = true)
    (hs : Apart owned d table s) (hcount : s.Counted)
    (hbody : ∀ i ∈ visited, ∀ done s', i ∉ done → (∀ j ∈ done, j ∈ visited) →
      SlotsStep T owned d table done s s' → Apart owned d table s' →
      (∀ j ∈ done, R j (s.treeAt d table j) (s'.treeAt d table j) s'.memory) →
      Ensures E (fun s'' => SlotStep T d table i s' s'' ∧
        R i (s'.treeAt d table i) (s''.treeAt d table i) s''.memory) (body i s')) :
    Ensures E (fun s' => SlotsStep T owned d table visited s s' ∧
      ∀ i ∈ visited, R i (s.treeAt d table i) (s'.treeAt d table i) s'.memory)
      (forEach body visited s) := by
  refine ensures_forEach (E := E) (fun done s' => SlotsStep T owned d table done s s' ∧
    ∀ i ∈ done, R i (s.treeAt d table i) (s'.treeAt d table i) s'.memory) visited [] s ?_
    ⟨SlotsStep.refl hcount, by simp⟩
  rintro i done s' hpre ⟨hdone, hR⟩
  rw [List.nil_append] at hpre
  have hsub : ∀ j ∈ done ++ [i], j ∈ visited := fun j hj => hpre.subset hj
  have hsubDone : ∀ j ∈ done, j ∈ visited := fun j hj => hsub j (List.mem_append_left _ hj)
  have hi : i ∉ done := by
    have hnd : (done ++ [i]).Nodup := hpre.sublist.nodup hnodup
    rw [List.nodup_append] at hnd
    exact fun hmem => hnd.2.2 i hmem i (by simp) rfl
  have hvisited : i ∈ visited := hsub i (by simp)
  have hs' := hs.of_conserved hdone.conserved
  refine (hbody i hvisited done s' hi hsubDone hdone hs' hR).imp fun s'' h => ?_
  obtain ⟨hstep, hrel⟩ := h
  have hown := howned i hvisited
  refine ⟨hdone.snoc hs hi hown hstep, ?_⟩
  intro j hj
  rcases List.mem_append.mp hj with hj | hj
  · have hne : j ≠ i := fun h => hi (h ▸ hj)
    have hownj := howned j (hsubDone j hj)
    rw [hstep.treeAt_of_ne hs' hown hownj hne]
    exact hstable j _ _ _ _ (hR j hj) fun g hg => hstep.memory_of_mem hs' hown hownj hne hg
  · obtain rfl : j = i := by simpa using hj
    rw [← hdone.same j hi hown]
    exact hrel

/-- Two iterations on the same entry. -/
lemma SlotStep.trans (h : SlotStep T d table i s s') (h' : SlotStep T d table i s' s'')
    (htouch : ∀ g ∈ T.frames (s'.treeAt d table i),
      g ∈ s.freeList ∨ g ∈ T.frames (s.treeAt d table i))
    (hfrees : T.frees = true → T.frames (s'.treeAt d table i) ⊆ T.frames (s.treeAt d table i)) :
    SlotStep T d table i s s'' := by
  refine ⟨h'.counted, h'.conserved.trans h.conserved, ?_, ?_, ?_⟩
  · intro g hg
    rcases h'.free g hg with hg' | ⟨hT, hg'⟩
    · exact h.free g hg'
    · exact Or.inr ⟨hT, hfrees hT hg'⟩
  · intro g hne hT hfree
    rw [h'.frame g hne ?_ ?_, h.frame g hne hT hfree]
    · intro hg
      exact (htouch g hg).elim hfree hT
    · intro hg
      rcases h.free g hg with hg' | ⟨-, hg'⟩
      · exact hfree hg'
      · exact hT hg'
  · intro j hj
    rw [h'.entries j hj, h.entries j hj]

lemma SlotStep.free_of_tables (h : SlotStep .tables d table i s s') {g : Frame}
    (hg : g ∈ s'.freeList) : g ∈ s.freeList := by
  rcases h.free g hg with hg' | ⟨hT, -⟩
  · exact hg'
  · cases hT

lemma SlotsStep.fresh (h : SlotsStep .tables owned d table visited s s') {fresh : List Frame}
    (hs : ∀ g ∈ s.freeList, g ∈ fresh) : ∀ g ∈ s'.freeList, g ∈ fresh := by
  intro g hg
  rcases h.free g hg with hg' | ⟨hT, -⟩
  · exact hs g hg'
  · cases hT

/-- A present entry's table is apart from everything else below it. -/
lemma Apart.child (hs : Apart owned (d + 1) table s) (hi : owned i = true)
    (hp : isPresent (s.memory table i) = true) :
    Apart allSlots d (entryTarget (s.memory table i)) s := by
  have hnodup := hs.slot hi
  rw [Pmm.treeAt, frames_treeOf_succ hp, Multiset.nodup_cons, Multiset.cons_add] at hnodup
  exact ⟨hnodup.2⟩

/-- A loop over the table below entry `i` is an iteration on entry `i`. -/
lemma SlotStep.of_child (hs : Apart owned (d + 1) table s) (hi : owned i = true)
    (hp : isPresent (s.memory table i) = true)
    (h : SlotsStep T allSlots d (entryTarget (s.memory table i)) visited s s') :
    SlotStep T (d + 1) table i s s' ∧ s'.memory table = s.memory table := by
  have htree : s.treeAt (d + 1) table i =
      .table (s.memory table i) (slotsOf allSlots s.memory d (entryTarget (s.memory table i))) :=
    treeOf_table hp d
  have hsub : ∀ g, (∃ j ∈ visited, g ∈ T.frames (s.treeAt d (entryTarget (s.memory table i)) j)) →
      g ∈ T.frames (s.treeAt (d + 1) table i) := by
    rintro g ⟨j, -, hg⟩
    rw [htree, T.mem_table]
    exact Or.inr ⟨j, hg⟩
  have htarget : entryTarget (s.memory table i) ∈ frames (s.treeAt (d + 1) table i) := by
    rw [htree, frames_table]
    exact Multiset.mem_cons_self _ _
  have htable : s'.memory table = s.memory table := by
    refine h.frame table (hs.ne_table hi htarget).symm ?_ hs.table_notMem_free
    intro j hj hg
    exact hs.ne_table hi (Multiset.mem_of_le (T.le _) (hsub table ⟨j, hj, hg⟩)) rfl
  refine ⟨⟨h.counted, ?_, ?_, ?_, fun j _ => by rw [htable]⟩, htable⟩
  · unfold Pmm.treeAt
    rw [htable, frames_treeOf_succ hp, frames_treeOf_succ hp, Multiset.cons_add, h.conserved,
      Multiset.cons_add]
  · intro g hg
    rcases h.free g hg with hg' | ⟨hT, hg'⟩
    · exact Or.inl hg'
    · exact Or.inr ⟨hT, hsub g hg'⟩
  · intro g _ hT hfree
    refine h.frame g ?_ (fun j hj hg => hT (hsub g ⟨j, hj, hg⟩)) hfree
    rintro rfl
    rw [htree, T.mem_table] at hT
    exact hT (Or.inl rfl)

end Compose

end Fluke
