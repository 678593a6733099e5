import Fluke.User.Vm.Coherence

/-!
# Where `VM::alloc_movable` places an area

The area is placed in a gap of the list just when the hint fits: otherwise the area that follows
the gap is overlapped, and when pages are mapped there `mmu_assign` stops the kernel.
-/

namespace Fluke

open Outcome

/-- The pages that are mapped are those of the areas with access. -/
def MappedExactly (vm : Vm) (heap : Heap) : Prop :=
  ∀ va < memLowHalfMax, userLookup heap.pmm.memory vm.pageMap va ≠ none ↔
    ∃ mode, Covers vm.first va mode ∧ mode &&& MmuMode.user ≠ 0

/-- What `alloc_movable` is for: the new area lies in the address space, overlaps no area and is
added to the list, and no page is mapped twice. -/
def MovableCorrect (vm : Vm) (hint len : ℕ) (flags : BitVec 32) (heap : Heap) : Prop :=
  Ensures (· ≠ .assignOverExisting) (fun out => ∀ a, out.1 = .ok a →
    addrMin ≤ a ∧ a + len ≤ addrMax ∧ Disjoint' vm.first a (a + len) ∧
      ∀ va mode, Covers out.2.1 va mode ↔
        (a ≤ va ∧ va < a + len ∧ protToMode flags = mode) ∨ Covers vm.first va mode)
    (vm.allocMovable hint len flags heap)

section

variable {vm : Vm} {hint len : ℕ} {flags : BitVec 32} {heap : Heap}

lemma MappedExactly.not_strayPage (h : MappedExactly vm heap) : ¬ StrayPage vm heap := by
  rintro ⟨va, hva, hnone, hmapped⟩
  obtain ⟨mode, hcovers, -⟩ := (h va hva).mp hmapped
  exact hnone mode hcovers

/-- No block is left only when no frame is. -/
lemma makeArea_none {heap' : Heap} (hcount : heap.pmm.Counted)
    (h : makeArea heap = .ok (none, heap')) : heap.pmm.freeList = [] := by
  rcases kalloc_cases allocCalcSizeClass_vmArea hcount with ⟨⟨-, hfree⟩, -⟩ | ⟨block, heap₁, hsome⟩
  · exact hfree
  · rw [makeArea, hsome] at h
    cases h

/-- `alloc_movable` is correct where the hint fits, and with enough free frames nowhere else. -/
theorem movableCorrect_iff (hwf : WellFormed vm.first) (hs : SpaceOk vm.pageMap heap.pmm)
    (hmapped : MappedExactly vm heap) (hargs : MovableArgs hint len) :
    (MovableFits vm.first hint len → MovableCorrect vm hint len flags heap) ∧
      (Enough heap len → (MovableCorrect vm hint len flags heap ↔
        MovableFits vm.first hint len)) := by
  have hspec := @Vm.allocMovable_spec vm hint len flags heap hargs hwf hs
  have hcorrect : MovableFits vm.first hint len → MovableCorrect vm hint len flags heap := by
    intro hfits
    refine hspec.mono ?_ fun out hmoved a ha => ?_
    · rintro e ⟨hstop, -⟩ he
      rcases hstop with hmem | ⟨-, hno | hstray⟩
      · rw [he] at hmem
        cases hmem
      · exact hno hfits
      · exact hmapped.not_strayPage hstray
    · obtain ⟨hlower, hupper, hdisj, -, hcovers⟩ := hmoved.fits hfits a ha
      exact ⟨hlower, hupper, hdisj, hcovers⟩
  refine ⟨hcorrect, fun henough => ⟨fun h => ?_, hcorrect⟩⟩
  by_contra hno
  unfold MovableCorrect at h
  cases hrun : vm.allocMovable hint len flags heap with
  | error e =>
    rw [hrun] at h hspec
    obtain ⟨hstop, hfree⟩ := hspec
    rcases hstop with hmem | ⟨hover, -⟩
    · exact hfree henough hmem
    · exact h hover
  | ok out =>
    have hmoved := hspec.of_eq_ok hrun
    have hout := h.of_eq_ok hrun
    cases hres : out.1 with
    | ok a => exact hmoved.overlaps hno a hres (hout a hres).2.2.1
    | error e =>
      obtain ⟨heap', hnone⟩ := hmoved.noSpace hno e hres
      have hempty := makeArea_none hs.counted hnone
      unfold Enough at henough
      rw [hempty] at henough
      simp at henough

end

/-! ### A hint near the end of a gap -/

namespace VmState

/-- Two ranges without access, and a gap of two pages between them. -/
def crowded : VmState where
  vm := ⟨blank.vm.pageMap, [⟨0x1000, 0x3000, protToMode 0, ⟨⟨0x3000, aligned_page3⟩, 0⟩⟩,
    ⟨0x5000, addrMax, protToMode 0, ⟨⟨0x3000, aligned_page3⟩, 32⟩⟩]⟩
  heap := blank.heap

lemma crowded_wellFormed : WellFormed crowded.vm.first := by
  refine ⟨fun a ha => ?_, ?_⟩
  · simp only [crowded, List.mem_cons, List.not_mem_nil, or_false] at ha
    rcases ha with rfl | rfl
    · exact ⟨by decide, by decide, by decide, by decide, by decide⟩
    · exact ⟨by decide, by decide, by decide, by decide, by decide⟩
  · simp [crowded]

lemma crowded_mapped : MappedExactly crowded.vm crowded.heap := by
  intro va _
  refine iff_of_false (fun h => h (userLookup_blank _ _ va)) ?_
  rintro ⟨mode, ⟨a, ha, -, -, rfl⟩, huser⟩
  simp only [crowded, List.mem_cons, List.not_mem_nil, or_false] at ha
  rcases ha with rfl | rfl
  · exact huser (by decide)
  · exact huser (by decide)

lemma settled_mapped : MappedExactly settled.vm settled.heap := by
  intro va hva
  refine ⟨settled_neat.coherent.pages.covered va hva, ?_⟩
  rintro ⟨mode, hcovers, huser⟩
  exact (settled_neat.coherent.pages.mapped va hva mode hcovers huser).ne_none

/-- From the second page of the gap on, one page fits and two do not. -/
lemma settled_fits : MovableFits settled.vm.first 0x4000 0x1000 ∧
    ¬ MovableFits settled.vm.first 0x4000 0x2000 := by
  rw [settled_first]
  constructor
  · refine Or.inr fun lo hi hgap hroomy hlo hlast _ => ?_
    have hle := hlast 0x3000 0x5000 (Or.inr (Or.inl ⟨rfl, rfl⟩)) (Nat.le_of_ble_eq_true rfl)
      (by decide)
    obtain ⟨rfl, rfl⟩ | ⟨rfl, rfl⟩ | ⟨rfl, rfl⟩ | hnone := hgap
    · exact absurd hle (by decide)
    · decide
    · exact absurd hlo (by decide)
    · exact hnone.elim
  · rintro (hupper | hfits)
    · exact absurd hupper (by decide)
    · refine absurd (hfits 0x3000 0x5000 (Or.inr (Or.inl ⟨rfl, rfl⟩)) (Nat.le_of_ble_eq_true rfl)
        (by decide) ?_ ?_) (by decide)
      · rintro lo hi (⟨rfl, rfl⟩ | ⟨rfl, rfl⟩ | ⟨rfl, rfl⟩ | hnone) _ hlo
        · decide
        · exact le_rfl
        · exact absurd hlo (by decide)
        · exact hnone.elim
      · rintro lo hi (⟨rfl, rfl⟩ | ⟨rfl, rfl⟩ | ⟨rfl, rfl⟩ | hnone) _ hlo
        · exact absurd hlo (by decide)
        · exact absurd hlo (by decide)
        · decide
        · exact hnone.elim

/-- A hint in a gap of two pages, with enough free frames -/
theorem movableCorrect_iff_settled :
    ((settled.vm.allocMovable 0x4000 0x1000 protWrite settled.heap).map Prod.fst =
        .ok (.ok 0x4000) ∧
      MovableCorrect settled.vm 0x4000 0x1000 protWrite settled.heap) ∧
    ¬ MovableCorrect settled.vm 0x4000 0x2000 protWrite settled.heap := by
  have hcoherent := settled_neat.coherent
  have hfits := @movableCorrect_iff _ 0x4000 0x1000 protWrite _ hcoherent.areas hcoherent.space
    settled_mapped ⟨by decide, by decide, by decide, by decide⟩
  have hno := @movableCorrect_iff _ 0x4000 0x2000 protWrite _ hcoherent.areas hcoherent.space
    settled_mapped ⟨by decide, by decide, by decide, by decide⟩
  have henough : Enough settled.heap 0x2000 := by
    unfold Enough
    decide +kernel
  refine ⟨⟨by decide +kernel, hfits.1 settled_fits.1⟩, fun hcorrect => ?_⟩
  exact settled_fits.2 ((hno.2 henough).mp hcorrect)

/-- Two pages are placed from the hint on, over the area behind the gap. -/
theorem movable_overlaps : WellFormed crowded.vm.first ∧
    SpaceOk crowded.vm.pageMap crowded.heap.pmm ∧ MappedExactly crowded.vm crowded.heap ∧
    MovableArgs 0x4000 0x2000 ∧ ¬ MovableCorrect crowded.vm 0x4000 0x2000 0 crowded.heap := by
  refine ⟨crowded_wellFormed, blank_initial.space, crowded_mapped,
    ⟨by decide, by decide, by decide, by decide⟩, fun h => ?_⟩
  obtain ⟨out, hrun⟩ : ∃ out, crowded.vm.allocMovable 0x4000 (0x2000 : ℕ) 0 crowded.heap =
      .ok (.ok 0x4000, out) := by
    have hanswer : (crowded.vm.allocMovable 0x4000 (0x2000 : ℕ) 0 crowded.heap).map Prod.fst =
        .ok (.ok 0x4000) := by decide
    cases hrun : crowded.vm.allocMovable 0x4000 (0x2000 : ℕ) 0 crowded.heap with
    | error e =>
      rw [hrun] at hanswer
      cases hanswer
    | ok out =>
      rw [hrun] at hanswer
      exact ⟨out.2, congrArg Except.ok (Prod.ext (Except.ok.inj hanswer) rfl)⟩
  generalize haddress : 0x4000 = address at h hrun
  unfold MovableCorrect at h
  obtain ⟨-, -, hdisj, -⟩ := h.of_eq_ok hrun address rfl
  have harea := hdisj ⟨0x5000, addrMax, protToMode 0, ⟨⟨0x3000, by decide⟩, 32⟩⟩ (by simp [crowded])
  rcases harea with hbefore | hbehind
  · simp only [addrMax, memLowHalfMax] at hbefore
    omega
  · simp only at hbehind
    omega

end VmState

end Fluke
