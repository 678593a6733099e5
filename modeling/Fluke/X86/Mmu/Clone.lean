import Fluke.X86.Mmu.Clear

/-!
# `clone`

`clone` builds, below an empty table, a tree of the shape of the source's. Its frames are all
fresh; its pages have the permissions and the contents of the source's pages.
-/

namespace Fluke

open Outcome TableEntry

variable {owned : Fin 512 → Bool} {d : ℕ} {table : Frame} {s : Pmm} {i : Fin 512}

/-- The bound of the loop in `clone`: the user half of a `PML4`, or a whole table. -/
def cloneEnd (depth : ℕ) : ℕ := if depth = PML4 then 512 / 2 else 512

/-- The entries `clone` visits. -/
def cloneOwned (depth : ℕ) : Fin 512 → Bool := fun i => i.val < cloneEnd depth

/-- The list of these entries. -/
@[irreducible] def cloneIndices (depth : ℕ) : List (Fin 512) :=
  (List.finRange 512).filter fun i => 0 ≤ i.val ∧ i.val < cloneEnd depth

lemma nodup_cloneIndices (depth : ℕ) : (cloneIndices depth).Nodup := by
  unfold cloneIndices
  exact (List.nodup_finRange 512).filter _

lemma mem_cloneIndices {depth : ℕ} : i ∈ cloneIndices depth ↔ cloneOwned depth i = true := by
  unfold cloneIndices cloneOwned
  simp

lemma forEntries_clone {σ : Type} (depth : ℕ) (body : Fin 512 → σ → Except Panic σ) (s : σ) :
    forEntries 0 (if depth = PML4 then 512 / 2 else 512) body s =
      forEach body (cloneIndices depth) s := by
  unfold cloneIndices forEntries
  refine if_pos ?_
  split <;> decide

lemma cloneOwned_eq_allSlots {depth : ℕ} (h : depth < PML4) : cloneOwned depth = allSlots := by
  funext i
  unfold cloneOwned cloneEnd allSlots
  rw [if_neg h.ne]
  exact decide_eq_true i.isLt

lemma flagBits_entryPermissions {entry : Word} (h : isPresent entry = true) :
    FlagBits (entryPermissions entry) := by
  constructor
  · unfold entryPermissions
    rw [BitVec.and_assoc, BitVec.and_comm (~~~tableEntryAddressMask)]
    simp
  · have hmask : ~~~tableEntryAddressMask &&& present = present := by decide
    unfold isPresent entryPermissions at *
    rw [BitVec.and_assoc, hmask]
    exact h

/-- The copy `b` of a page entry `a`: the same permissions, and the contents `a` had before. -/
def PageCopy (before memory : Frame → Page) (a b : Word) : Prop :=
  entryPermissions b = entryPermissions a ∧ memory (entryTarget b) = before (entryTarget a)

/-- The copy of a tree. -/
abbrev TreeCopy (before memory : Frame → Page) : PageTree → PageTree → Prop :=
  Radix.Rel (PageCopy before memory) fun _ b => IsIntermediate b

lemma TreeCopy.of_agree {before memory memory' : Frame → Page} {t t' : PageTree}
    (h : TreeCopy before memory t t') (hmem : ∀ g ∈ frames t', memory' g = memory g) :
    TreeCopy before memory' t t' :=
  h.mono entryTarget fun _ b hb hab => ⟨hab.1, by rw [hmem _ hb]; exact hab.2⟩

/-- Filling the page that was allocated for entry `i` of a `PT`. -/
lemma SlotStep.setPage {page : Frame} {s' : Pmm} {contents : Page}
    (h : SlotStep .tables 0 table i s s') (hpage : page ∈ s.freeList) (hne : page ≠ table) :
    SlotStep .tables 0 table i s (s'.setPage page contents) := by
  have htable : (s'.setPage page contents).memory table = s'.memory table :=
    Pmm.setPage_of_ne _ _ hne.symm
  refine ⟨h.counted, ?_, h.free, ?_, fun j hj => ?_⟩
  · rw [← h.conserved]
    unfold Pmm.treeAt treeOf
    rw [htable]
    rfl
  · intro g hg hT hfree
    have hgp : g ≠ page := fun h => hfree (h ▸ hpage)
    rw [Pmm.setPage_of_ne _ _ hgp, h.frame g hg hT hfree]
  · rw [htable, h.entries j hj]

/-- The frames a table and everything below it occupy. -/
def tableAndBelow (owned : Fin 512 → Bool) (memory : Frame → Page) (d : ℕ) (table : Frame) :
    Multiset Frame :=
  table ::ₘ slotFrames owned memory d table

/-- What `clone` needs of its source: it is as it was `before`, and it lies apart from the
destination and from the free frames. -/
structure CloneSource (before : Frame → Page) (owned : Fin 512 → Bool) (d : ℕ)
    (source dest : Frame) (s : Pmm) : Prop where
  same : ∀ g ∈ tableAndBelow owned before d source, s.memory g = before g
  ne_dest : ∀ g ∈ tableAndBelow owned before d source, g ≠ dest
  notMem_free : ∀ g ∈ tableAndBelow owned before d source, g ∉ s.freeList

namespace CloneSource

variable {before : Frame → Page} {source dest : Frame}

lemma source_same (h : CloneSource before owned d source dest s) :
    s.memory source = before source := h.same source (Multiset.mem_cons_self _ _)

/-- The source stays good while the destination is filled. -/
lemma of_step {s' : Pmm} {done : List (Fin 512)} (h : CloneSource before owned d source dest s)
    (hstep : SlotsStep .tables owned d dest done s s')
    (hempty : ∀ j ∈ done, isPresent (s.memory dest j) = false) :
    CloneSource before owned d source dest s' := by
  have hfree : ∀ g ∈ s'.freeList, g ∈ s.freeList := hstep.fresh fun _ hg => hg
  refine ⟨fun g hg => ?_, h.ne_dest, fun g hg hmem => h.notMem_free g hg (hfree g hmem)⟩
  rw [← h.same g hg]
  refine hstep.frame g (h.ne_dest g hg) (fun j hj hmem => ?_) (h.notMem_free g hg)
  have hle := Multiset.mem_of_le (Touch.tables.le _) hmem
  rw [Pmm.treeAt, treeOf_absent (hempty j hj)] at hle
  simp at hle

/-- The source below entry `i`, once a table for the copy is allocated. -/
lemma child {page : Frame} {s' : Pmm} (h : CloneSource before owned (d + 1) source dest s)
    (word : Word) (hi : owned i = true)
    (hp : isPresent (before source i) = true) (halloc : Allocated page s s') :
    CloneSource before allSlots d (entryTarget (before source i)) page
      (s'.setWord dest i word) := by
  have hsub : ∀ g ∈ tableAndBelow allSlots before d (entryTarget (before source i)),
      g ∈ tableAndBelow owned before (d + 1) source := by
    intro g hg
    have hframes : frames (treeOf before (d + 1) (before source i)) = _ := frames_treeOf_succ hp d
    rw [tableAndBelow, ← hframes] at hg
    refine Multiset.mem_cons_of_mem (mem_framesOfSlots.mpr ⟨i, ?_⟩)
    rwa [slotsOf, if_pos hi]
  have hne : ∀ g ∈ tableAndBelow owned before (d + 1) source, g ≠ page := fun g hg hgp =>
    h.notMem_free g hg (hgp ▸ halloc.mem)
  refine ⟨fun g hg => ?_, fun g hg => hne g (hsub g hg), fun g hg hmem => ?_⟩
  · rw [Pmm.setWord_of_ne_frame _ _ _ (h.ne_dest g (hsub g hg)),
      halloc.other g (hne g (hsub g hg)), h.same g (hsub g hg)]
  · exact h.notMem_free g (hsub g hg) (halloc.free_subset hmem)

end CloneSource

/-- The iteration of `clone` on a present entry of a `PT`. -/
lemma clonePage_spec {before : Frame → Page} {source dest page : Frame} {s' : Pmm}
    (hs : Apart owned 0 dest s) (hsrc : CloneSource before owned 0 source dest s)
    (hi : owned i = true) (hdest : isPresent (s.memory dest i) = false)
    (hp : isPresent (before source i) = true) (halloc : Allocated page s s') :
    SlotStep .tables 0 dest i s (clonePage source dest i page s') ∧
      TreeCopy before (clonePage source dest i page s').memory
        (treeOf before 0 (before source i))
        ((clonePage source dest i page s').treeAt 0 dest i) := by
  have hmem_source : source ∈ tableAndBelow owned before 0 source := Multiset.mem_cons_self _ _
  have hmem_target : entryTarget (before source i) ∈ tableAndBelow owned before 0 source := by
    refine Multiset.mem_cons_of_mem (mem_framesOfSlots.mpr ⟨i, ?_⟩)
    rw [slotsOf, if_pos hi, treeOf_zero hp, frames_page]
    exact Multiset.mem_singleton_self _
  have hne : ∀ g ∈ tableAndBelow owned before 0 source, g ≠ page := fun g hg hgp =>
    hsrc.notMem_free g hg (hgp ▸ halloc.mem)
  have hpage : page ≠ dest := fun h => hs.table_notMem_free (h ▸ halloc.mem)
  have hentry : s'.memory source i = before source i := by
    rw [halloc.other source (hne source hmem_source), hsrc.source_same]
  have hflags := flagBits_entryPermissions hp
  have hpresent := isPresent_or hflags.present (entryAddressBits page)
  obtain ⟨hstep, -, -⟩ :=
    SlotStep.of_alloc hs hdest halloc (entryTarget_or hflags page) hpresent
  have hword : ∀ g ∈ tableAndBelow owned before 0 source,
      (s'.setWord dest i (entryAddressBits page ||| entryPermissions (before source i))).memory g =
        before g := by
    intro g hg
    rw [Pmm.setWord_of_ne_frame _ _ _ (hsrc.ne_dest g hg), halloc.other g (hne g hg),
      hsrc.same g hg]
  have heq : clonePage source dest i page s' =
      (s'.setWord dest i (entryAddressBits page ||| entryPermissions (before source i))).setPage
        page (before (entryTarget (before source i))) := by
    unfold clonePage
    rw [hentry, ← entryPermissions]
    dsimp only
    rw [hword source hmem_source, hword _ hmem_target]
  rw [heq]
  refine ⟨hstep.setPage halloc.mem hpage, ?_⟩
  have htree : ((s'.setWord dest i (entryAddressBits page |||
      entryPermissions (before source i))).setPage page
        (before (entryTarget (before source i)))).treeAt 0 dest i =
      .page (entryAddressBits page ||| entryPermissions (before source i)) := by
    rw [Pmm.treeAt, Pmm.setPage_of_ne _ _ hpage.symm, Pmm.setWord_self, treeOf_zero hpresent]
  rw [htree, treeOf_zero hp]
  refine .page ⟨entryPermissions_or hflags page, ?_⟩
  rw [entryTarget_or hflags, Pmm.setPage_self]

/-- The copies that were made took one frame for each frame of their originals, and the entry that
comes next was not paid for yet. -/
lemma cloned_card {before : Frame → Page} {source dest : Frame} {s' : Pmm} {done : List (Fin 512)}
    (hempty : ∀ j, owned j = true → isPresent (s.memory dest j) = false)
    (hdone : SlotsStep .tables owned d dest done s s')
    (hcopy : ∀ j ∈ done, TreeCopy before s'.memory (treeOf before d (before source j))
      (s'.treeAt d dest j)) (hi : owned i = true) (hnotin : i ∉ done) :
    s.freeList.length + Multiset.card (frames (treeOf before d (before source i))) ≤
      Multiset.card (slotFrames owned before d source) + s'.freeList.length := by
  have hslots : slotFrames owned s.memory d dest = 0 := by
    refine framesOfSlots_of_absent fun j => ?_
    unfold slotsOf
    split_ifs with hj
    · exact treeOf_absent (hempty j hj) _
    · rfl
  have hspent := congrArg Multiset.card hdone.conserved
  rw [hslots, zero_add, Multiset.card_add, Multiset.coe_card, Multiset.coe_card] at hspent
  have hrest : ∀ j, j ∉ done → owned j = true → s'.treeAt d dest j = .absent := by
    intro j hj hown
    rw [hdone.same j hj hown]
    exact treeOf_absent (hempty j hown) _
  have hle := @Radix.card_collectSlots_add_le _ _ _ entryTarget (slotsOf owned s'.memory d dest)
    (slotsOf owned before d source) i (by rw [slotsOf_of_owned hi]; exact hrest i hnotin hi)
    fun j _ => by
      unfold slotsOf
      split_ifs with hown
      · by_cases hj : j ∈ done
        · exact ((hcopy j hj).card_collect entryTarget).le
        · have habsent : treeOf s'.memory d (s'.memory dest j) = .absent := hrest j hj hown
          rw [habsent]
          exact Nat.zero_le _
      · exact le_rfl
  have htree : slotsOf owned before d source i = treeOf before d (before source i) := if_pos hi
  rw [htree] at hle
  have hle' : Multiset.card (slotFrames owned s'.memory d dest) +
      Multiset.card (frames (treeOf before d (before source i))) ≤
        Multiset.card (slotFrames owned before d source) := hle
  omega

/-- `clone`, for a table of depth `d + 1` into an empty one. It runs out of frames only when fewer
are free than the source has. -/
theorem clone_slots (before : Frame → Page) (d : ℕ) (hd : d + 1 ≤ PML4) {source dest : Frame}
    {s : Pmm} (hs : Apart (cloneOwned (d + 1)) d dest s) (hcount : s.Counted)
    (hempty : ∀ i, cloneOwned (d + 1) i = true → isPresent (s.memory dest i) = false)
    (hsrc : CloneSource before (cloneOwned (d + 1)) d source dest s) :
    Ensures (fun e => e = .outOfMemory ∧
        s.freeList.length < Multiset.card (slotFrames (cloneOwned (d + 1)) before d source))
      (fun s' =>
      SlotsStep .tables (cloneOwned (d + 1)) d dest (cloneIndices (d + 1)) s s' ∧
      ∀ i ∈ cloneIndices (d + 1), TreeCopy before s'.memory (treeOf before d (before source i))
        (s'.treeAt d dest i))
      (clone (d + 1) source dest s) := by
  induction d generalizing source dest s with
  | zero =>
    unfold clone
    rw [forEntries_clone]
    refine forEach_slots (fun i _ t' memory =>
        TreeCopy before memory (treeOf before 0 (before source i)) t')
      (fun i t t' memory memory' h hmem => TreeCopy.of_agree h hmem)
      (nodup_cloneIndices _) (fun i hi => mem_cloneIndices.mp hi) hs hcount
      fun i hi done s' hnotin hdoneOwned hdone hs' hcopied => ?_
    have hown := mem_cloneIndices.mp hi
    have hcard := cloned_card hempty hdone hcopied hown hnotin
    have hsrc' := hsrc.of_step hdone fun j hj => hempty j (mem_cloneIndices.mp (hdoneOwned j hj))
    have hdest : isPresent (s'.memory dest i) = false := by
      rw [hdone.entries i hnotin]
      exact hempty i hown
    rw [hsrc'.source_same]
    cases hp : isPresent (before source i) with
    | false =>
      rw [if_neg (by simp)]
      refine ⟨SlotStep.refl hdone.counted, ?_⟩
      rw [treeOf_absent hp, Pmm.treeAt, treeOf_absent hdest]
      exact .absent
    | true =>
      rw [if_pos rfl]
      have hone : frames (treeOf before 0 (before source i)) = {entryTarget (before source i)} := by
        rw [treeOf_zero hp, frames_page]
      rw [hone, Multiset.card_singleton] at hcard
      have hshort : s'.freeList = [] → s.freeList.length < _ := fun hnil => by
        rw [hnil, List.length_nil] at hcard
        exact hcard.trans_lt' (Nat.lt_add_of_pos_right (Nat.succ_pos _))
      refine ((mmuAllocPage_short hdone.counted).mono (fun e he => ⟨he.1, hshort he.2⟩)
        fun _ h => h).bind ?_
      rintro ⟨page, s₁⟩ halloc
      dsimp only at halloc ⊢
      rw [if_neg (Nat.lt_irrefl _)]
      exact clonePage_spec hs' hsrc' hown hdest hp halloc
  | succ d ih =>
    unfold clone
    rw [forEntries_clone]
    refine forEach_slots (fun i _ t' memory =>
        TreeCopy before memory (treeOf before (d + 1) (before source i)) t')
      (fun i t t' memory memory' h hmem => TreeCopy.of_agree h hmem)
      (nodup_cloneIndices _) (fun i hi => mem_cloneIndices.mp hi) hs hcount
      fun i hi done s' hnotin hdoneOwned hdone hs' hcopied => ?_
    have hown := mem_cloneIndices.mp hi
    have hcard := cloned_card hempty hdone hcopied hown hnotin
    have hsrc' := hsrc.of_step hdone fun j hj => hempty j (mem_cloneIndices.mp (hdoneOwned j hj))
    have hdest : isPresent (s'.memory dest i) = false := by
      rw [hdone.entries i hnotin]
      exact hempty i hown
    rw [hsrc'.source_same]
    cases hp : isPresent (before source i) with
    | false =>
      rw [if_neg (by simp)]
      refine ⟨SlotStep.refl hdone.counted, ?_⟩
      rw [treeOf_absent hp, Pmm.treeAt, treeOf_absent hdest]
      exact .absent
    | true =>
      rw [if_pos rfl]
      rw [frames_treeOf_succ hp, Multiset.card_cons] at hcard
      have hshort : s'.freeList = [] → s.freeList.length < _ := fun hnil => by
        rw [hnil, List.length_nil] at hcard
        exact hcard.trans_lt' (Nat.lt_add_of_pos_right (Nat.succ_pos _))
      refine ((mmuAllocPage_short hdone.counted).mono (fun e he => ⟨he.1, hshort he.2⟩)
        fun _ h => h).bind ?_
      rintro ⟨page, s₁⟩ halloc
      dsimp only at halloc ⊢
      rw [if_pos (Nat.succ_lt_succ d.succ_pos)]
      have hall : cloneOwned (d + 1) = allSlots := cloneOwned_eq_allSlots (by omega)
      have hnext := NextTable.of_alloc hs' hdest halloc
      have hchild := hsrc'.child (entryAddressBits page ||| intermediate) hown hp halloc
      have hsource : (s₁.setWord dest i (entryAddressBits page ||| intermediate)).memory source =
          before source := by
        have hmem : source ∈ tableAndBelow (cloneOwned (d + 1 + 1)) before (d + 1) source :=
          Multiset.mem_cons_self _ _
        have hpage : source ≠ page := fun h => hsrc'.notMem_free source hmem (h ▸ halloc.mem)
        rw [Pmm.setWord_of_ne_frame _ _ _ (hsrc'.ne_dest source hmem), halloc.other source hpage,
          hsrc'.source_same]
      have hzero : (s₁.setWord dest i (entryAddressBits page ||| intermediate)).memory page =
          Page.fill 0 := by
        have hpage : page ≠ dest := fun h => hs'.table_notMem_free (h ▸ halloc.mem)
        rw [Pmm.setWord_of_ne_frame _ _ _ hpage, halloc.zero]
      rw [hsource]
      have hrec := @ih (by omega) (entryTarget (before source i)) page
        (s₁.setWord dest i (entryAddressBits page ||| intermediate))
      rw [hall] at hrec
      refine (hrec hnext.apart hnext.step.counted (fun j _ => ?_) hchild).mono ?_ ?_
      · rw [hzero]
        exact isPresent_fill_zero j
      · rintro e ⟨he, hlt⟩
        have hlength := congrArg List.length halloc.freeList
        rw [List.length_cons] at hlength
        rw [Pmm.setWord_freeList] at hlt
        exact ⟨he, by omega⟩
      · rintro s₂ ⟨hslots, hcopy⟩
        obtain ⟨hstep, htree⟩ := hnext.child hs' hown hslots
        refine ⟨hstep, ?_⟩
        rw [htree, Pmm.setWord_self, treeOf_table hp]
        refine .table (isIntermediate_or page) fun j => hcopy j (mem_cloneIndices.mpr ?_)
        rw [hall]
        rfl

end Fluke
