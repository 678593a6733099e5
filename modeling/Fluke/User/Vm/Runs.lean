import Fluke.User.Vm.Movable

/-!
# Runs of the operations

The list of areas of a process over any number of operations. It stays well formed as long as
no operation overwrites the inside of an area and no area is moved into a gap that has no room
for it from the hint on; the first of these makes the list lose its order.
-/

namespace Fluke

open Outcome

/-- A virtual memory and the heap of the kernel. -/
structure VmState where
  vm : Vm
  heap : Heap

/-- The operations that change the areas. -/
inductive VmOp where
  | free (address len : ℕ)
  | allocFixedNoreplace (address len : ℕ) (flags : BitVec 32)
  | allocFixedOverwrite (address len : ℕ) (flags : BitVec 32)
  | allocMovable (hint len : ℕ) (flags : BitVec 32)

/-- What an operation leaves behind, whatever it answers. -/
def VmState.after {α : Type} (s : VmState) (out : VmOut α) : VmState :=
  ⟨{ s.vm with first := out.2.1 }, out.2.2⟩

/-- One operation. -/
def VmState.step : VmOp → VmState → Except Panic VmState
  | .free address len, s => do
    let out ← s.vm.free address len s.heap
    .ok (s.after out)
  | .allocFixedNoreplace address len flags, s => do
    let out ← s.vm.allocFixedNoreplace address len flags s.heap
    .ok (s.after out)
  | .allocFixedOverwrite address len flags, s => do
    let out ← s.vm.allocFixedOverwrite address len flags s.heap
    .ok (s.after out)
  | .allocMovable hint len flags, s => do
    let out ← s.vm.allocMovable hint len flags s.heap
    .ok (s.after out)

/-- Addresses, hints and lengths are page-aligned and lengths are positive. -/
def VmOp.Args : VmOp → Prop
  | .free address len => VmArgs address len
  | .allocFixedNoreplace address len _ => VmArgs address len
  | .allocFixedOverwrite address len _ => VmArgs address len
  | .allocMovable hint len _ => VmArgs hint len

/-- No area is cut in two by an area that overwrites its inside, and the gap that is found for
an area has room for it. -/
def VmOp.Safe (s : VmState) : VmOp → Prop
  | .free _ _ => True
  | .allocFixedNoreplace _ _ _ => True
  | .allocFixedOverwrite address len _ => ¬ StrictlyInside s.vm.first address (address + len)
  | .allocMovable hint len _ => MovableFits s.vm.first hint len

/-- An empty virtual memory. -/
structure VmState.Initial (s : VmState) : Prop where
  first : s.vm.first = []
  space : SpaceOk s.vm.pageMap s.heap.pmm

/-- The list is well formed, and so are the page tables. -/
structure VmState.Ok (s : VmState) : Prop where
  areas : WellFormed s.vm.first
  space : SpaceOk s.vm.pageMap s.heap.pmm

namespace VmState

variable {s s' : VmState}

/-- An operation that changes neither the areas nor the pages. -/
lemma Ok.kept {α : Type} (h : s.Ok) {out : VmOut α} (hareas : out.2.1 = s.vm.first)
    (hpages : PagesStep s.vm.pageMap Kept s.heap.pmm out.2.2.pmm) : (s.after out).Ok := by
  refine ⟨?_, hpages.ok⟩
  show WellFormed out.2.1
  rw [hareas]
  exact h.areas

/-- What one operation preserves. -/
lemma Ok.step (h : s.Ok) {op : VmOp} (hargs : op.Args) (hsafe : op.Safe s)
    (hstep : VmState.step op s = .ok s') : s'.Ok := by
  cases op with
  | free address len =>
    obtain ⟨⟨res, areas, heap⟩, hfree, hs'⟩ := bind_eq_ok.mp hstep
    have hspec := (Vm.free_spec hargs h.space).of_eq_ok hfree
    cases hs'
    cases res with
    | ok u => exact ⟨(hspec.areas rfl h.areas).1, (hspec.done rfl).ok⟩
    | error e =>
      obtain ⟨hareas, hpages⟩ := hspec.failed e rfl
      exact h.kept hareas hpages
  | allocFixedNoreplace address len flags =>
    obtain ⟨⟨res, areas, heap⟩, halloc, hs'⟩ := bind_eq_ok.mp hstep
    obtain ⟨hdone, hfailed⟩ := (Vm.allocFixedNoreplace_spec hargs h.space).of_eq_ok halloc
    cases hs'
    cases res with
    | ok u =>
      obtain ⟨hmapped, hareas⟩ := hdone rfl
      exact ⟨hareas h.areas, hmapped.pages.ok⟩
    | error e =>
      obtain ⟨hareas, hpages⟩ := hfailed e rfl
      exact h.kept hareas hpages
  | allocFixedOverwrite address len flags =>
    obtain ⟨⟨res, areas, heap⟩, halloc, hs'⟩ := bind_eq_ok.mp hstep
    have hspec := (Vm.allocFixedOverwrite_spec hargs h.space).of_eq_ok halloc
    cases hs'
    refine ⟨(hspec.wellFormed h.areas).2 hsafe, ?_⟩
    cases res with
    | ok u => exact (hspec.done rfl).ok
    | error e => exact (hspec.failed e rfl).elim (fun hpages => hpages.1.ok) fun hpages => hpages.ok
  | allocMovable hint len flags =>
    obtain ⟨⟨res, areas, heap⟩, halloc, hs'⟩ := bind_eq_ok.mp hstep
    have hspec := (Vm.allocMovable_spec hargs h.areas h.space).of_eq_ok halloc
    cases hs'
    cases res with
    | ok a => exact ⟨(hspec.fits hsafe a rfl).2.2.2.1, (hspec.pages a rfl).ok⟩
    | error e =>
      obtain ⟨hareas, hpages⟩ := hspec.failed e rfl
      exact h.kept hareas hpages

lemma Initial.ok (h : s.Initial) : s.Ok := ⟨h.first ▸ wellFormed_nil, h.space⟩

/-- In every run from an empty virtual memory that overwrites no inside of an area and moves no
area to where it does not fit, the areas are proper, page-aligned ranges of user addresses in
ascending order without overlap. -/
theorem areas_wellFormed {s₀ s : VmState} (h₀ : s₀.Initial)
    (h : Reachable (· = s₀) (fun op s => op.Args ∧ op.Safe s) VmState.step s) :
    WellFormed s.vm.first := by
  refine (h.invariant (I := VmState.Ok) ?_ ?_).areas
  · rintro _ rfl
    exact h₀.ok
  · rintro op s s' hok ⟨hargs, hsafe⟩ hstep
    exact hok.step hargs hsafe hstep

end VmState

/-! ### A list out of order -/

/-- What `alloc_fixed_overwrite` does when the heap has blocks. -/
lemma Vm.allocFixedOverwrite_eq {vm : Vm} {address len : ℕ} {heap heap₁ : Heap} {route : Route}
    {block : Block} {next : List Block} (hs : SpaceOk vm.pageMap heap₁.pmm)
    (hargs : VmArgs address len) (hlower : addrMin ≤ address) (hle : address + len ≤ addrMax)
    (hroute : vmClearForInsert vm.first address (address + len) heap = .ok (.ok route, heap₁))
    (hpool : heap₁.pools vmAreaClass = block :: next) :
    ∃ heap', vm.allocFixedOverwrite address len 0 heap = .ok (.ok (), route.passed ++
      ⟨address, address + len, protToMode 0, block⟩ :: route.rest, heap') := by
  have hpos := hargs.pos
  have hlt : address < addrMax := by omega
  have hrange : ¬ (address < addrMin || address ≥ addrMax || address + len > addrMax) = true := by
    simp [hlower, hlt, hle]
  unfold Vm.allocFixedOverwrite
  rw [hargs.assertValid_eq, ok_bind, hargs.uaddIsize_eq hlt, if_neg hrange, hroute, ok_bind]
  obtain ⟨s', hclear⟩ : ∃ s', mmuClear vm.pageMap address len heap₁.pmm = .ok s' := by
    have hspec := mmuClear_spec (hargs.userRange hle) hs
    cases hc : mmuClear vm.pageMap address len heap₁.pmm with
    | ok s' => exact ⟨s', rfl⟩
    | error e =>
      rw [hc] at hspec
      exact hspec.elim
  obtain ⟨heap₂, hmake⟩ : ∃ heap₂, makeArea { heap₁ with pmm := s' } = .ok (some block, heap₂) :=
    ⟨_, makeArea_cons hpool⟩
  have hflags : ¬ ((0 : BitVec 32) ≠ 0) := by decide
  refine ⟨heap₂, ?_⟩
  dsimp only
  rw [clearRange, hclear, ok_bind, ok_bind, hmake, ok_bind]
  dsimp only
  rw [assignArea, if_neg hflags, ok_bind]

namespace VmState

/-- An empty virtual memory on a machine whose heap has blocks for areas. -/
def blank : VmState where
  vm := ⟨⟨0x1000, aligned_page1⟩, []⟩
  heap :=
    { pmm := Pmm.blank []
      pools := fun _ => [⟨⟨0x2000, aligned_page2⟩, 0⟩, ⟨⟨0x2000, aligned_page2⟩, 32⟩,
        ⟨⟨0x2000, aligned_page2⟩, 64⟩]
      stats := fun _ => ⟨3, 3⟩ }

lemma blank_initial : blank.Initial := by
  have hok : PageMapOk blank.vm.pageMap blank.heap.pmm := pageMapOk_blank (by decide)
  exact ⟨rfl, hok.toSpaceOk⟩

/-- The next state, when the operation returns -/
def next (s : VmState) (op : VmOp) : VmState := (VmState.step op s).toOption.getD s

/-- One more operation -/
lemma reachable_next {s₀ s : VmState} {op : VmOp}
    (h : Reachable (· = s₀) (fun op s => op.Args ∧ op.Safe s) VmState.step s) (hargs : op.Args)
    (hsafe : op.Safe s) (hreturns : VmState.step op s = .ok (s.next op)) :
    Reachable (· = s₀) (fun op s => op.Args ∧ op.Safe s) VmState.step (s.next op) :=
  .step op h ⟨hargs, hsafe⟩ hreturns

/-- An empty virtual memory on a machine with free frames -/
def roomy : VmState where
  vm := ⟨⟨0x1000, aligned_page1⟩, []⟩
  heap :=
    { pmm := Pmm.blank (framesFrom 0x10000 20)
      pools := fun _ => []
      stats := fun _ => ⟨0, 0⟩ }

lemma roomy_initial : roomy.Initial := by
  have hok : PageMapOk roomy.vm.pageMap roomy.heap.pmm := pageMapOk_blank (by decide)
  exact ⟨rfl, hok.toSpaceOk⟩

/-- Two writable pages, and three pages without access behind a gap -/
def settled : VmState :=
  (roomy.next (.allocFixedNoreplace 0x1000 0x2000 protWrite)).next
    (.allocFixedNoreplace 0x5000 0x3000 0)

/-- Two pages of code, over the first page without access -/
def overlaid : VmState := settled.next (.allocFixedOverwrite 0x4000 0x2000 protExec)

/-- Without the second page -/
def punched : VmState := overlaid.next (.free 0x2000 0x1000)

/-- With a page behind all others -/
def extended : VmState := punched.next (.allocMovable 0x9000 0x1000 protWrite)

/-- The block of an area, which is cut from the first frame -/
def areaBlock (offset : ℕ) : Block := ⟨Frame.offset 0x10000 0, offset⟩

/-- The run, with the areas after the second, the fourth and the last operation -/
lemma run_eq :
    (VmState.step (.allocFixedNoreplace 0x1000 0x2000 protWrite) roomy).toOption.isSome ∧
    (VmState.step (.allocFixedNoreplace 0x5000 0x3000 0)
      (roomy.next (.allocFixedNoreplace 0x1000 0x2000 protWrite))).toOption.map
        (fun s => s.vm.first) = some [
      ⟨0x1000, 0x3000, protToMode protWrite, areaBlock 0⟩,
      ⟨0x5000, 0x8000, protToMode 0, areaBlock 4064⟩] ∧
    (VmState.step (.allocFixedOverwrite 0x4000 0x2000 protExec) settled).toOption.isSome ∧
    (VmState.step (.free 0x2000 0x1000) overlaid).toOption.map (fun s => s.vm.first) = some [
      ⟨0x1000, 0x2000, protToMode protWrite, areaBlock 0⟩,
      ⟨0x4000, 0x6000, protToMode protExec, areaBlock 4032⟩,
      ⟨0x6000, 0x8000, protToMode 0, areaBlock 4064⟩] ∧
    (VmState.step (.allocMovable 0x9000 0x1000 protWrite) punched).toOption.map
      (fun s => s.vm.first.map fun area => (area.begin, area.end_)) =
        some [(0x1000, 0x2000), (0x4000, 0x6000), (0x6000, 0x8000), (0x9000, 0xa000)] := by
  decide +kernel

lemma settled_first : settled.vm.first = [
    ⟨0x1000, 0x3000, protToMode protWrite, areaBlock 0⟩,
    ⟨0x5000, 0x8000, protToMode 0, areaBlock 4064⟩] := (eq_ok_of_map run_eq.2.1 _).2

lemma punched_first : punched.vm.first = [
    ⟨0x1000, 0x2000, protToMode protWrite, areaBlock 0⟩,
    ⟨0x4000, 0x6000, protToMode protExec, areaBlock 4032⟩,
    ⟨0x6000, 0x8000, protToMode 0, areaBlock 4064⟩] := (eq_ok_of_map run_eq.2.2.2.1 _).2

/-- The hint is behind all areas. -/
lemma punched_fits : MovableFits punched.vm.first 0x9000 0x1000 := by
  refine Or.inr fun lo hi hgap _ _ hlast _ => ?_
  have hend : IsGap punched.vm.first 0x8000 addrMax := by
    rw [punched_first]
    exact Or.inr (Or.inr (Or.inr (Or.inl ⟨rfl, rfl⟩)))
  have hroomy : Roomy 0x1000 0x8000 addrMax := Nat.le_of_ble_eq_true rfl
  have hle := hlast 0x8000 addrMax hend hroomy (by decide)
  rw [punched_first] at hgap
  obtain ⟨rfl, rfl⟩ | ⟨rfl, rfl⟩ | ⟨rfl, rfl⟩ | ⟨rfl, rfl⟩ | hnone := hgap
  · exact absurd hle (by decide)
  · exact absurd hle (by decide)
  · exact absurd hle (by decide)
  · decide
  · exact hnone.elim

lemma settled_reachable : Reachable (· = roomy) (fun op s => op.Args ∧ op.Safe s) VmState.step
    settled := by
  refine reachable_next (reachable_next (.init rfl) ?_ trivial
    (eq_ok_getD run_eq.1 _)) ?_ trivial (eq_ok_of_map run_eq.2.1 _).1
  · exact ⟨by decide, by decide, by decide, by decide⟩
  · exact ⟨by decide, by decide, by decide, by decide⟩

/-- Areas are added, overwritten in part, freed in part and moved. -/
lemma extended_reachable : Reachable (· = roomy) (fun op s => op.Args ∧ op.Safe s) VmState.step
    extended := by
  have hinside : ¬ StrictlyInside settled.vm.first 0x4000 (0x4000 + 0x2000) := by
    unfold StrictlyInside
    rw [settled_first]
    decide
  refine reachable_next (reachable_next (reachable_next settled_reachable ?_ hinside
    (eq_ok_getD run_eq.2.2.1 _)) ?_ trivial (eq_ok_of_map run_eq.2.2.2.1 _).1) ?_ punched_fits
    (eq_ok_of_map run_eq.2.2.2.2 _).1
  · exact ⟨by decide, by decide, by decide, by decide⟩
  · exact ⟨by decide, by decide, by decide, by decide⟩
  · exact ⟨by decide, by decide, by decide, by decide⟩

/-- Four areas after five operations -/
theorem areas_wellFormed_extended :
    extended.vm.first.map (fun area => (area.begin, area.end_)) =
      [(0x1000, 0x2000), (0x4000, 0x6000), (0x6000, 0x8000), (0x9000, 0xa000)] ∧
    WellFormed extended.vm.first :=
  ⟨(eq_ok_of_map run_eq.2.2.2.2 _).2, areas_wellFormed roomy_initial extended_reachable⟩

/-- The state after the reservation. -/
def reserved : VmState where
  vm := ⟨blank.vm.pageMap, [⟨0x1000, 0x4000, protToMode 0, ⟨⟨0x2000, aligned_page2⟩, 0⟩⟩]⟩
  heap := blank.heap.setPool vmAreaClass
    [⟨⟨0x2000, aligned_page2⟩, 32⟩, ⟨⟨0x2000, aligned_page2⟩, 64⟩] ⟨2, 3⟩

lemma reserve : VmState.step (.allocFixedNoreplace 0x1000 0x3000 0) blank = .ok reserved := rfl

/-- The middle of the reserved range is overwritten: the new area stands in front of the area it
was cut from. -/
lemma overwrite_inside : ∃ heap', VmState.step (.allocFixedOverwrite 0x2000 0x1000 0) reserved =
    .ok ⟨⟨blank.vm.pageMap, [
      ⟨0x2000, 0x3000, protToMode 0, ⟨⟨0x2000, by decide⟩, 64⟩⟩,
      ⟨0x1000, 0x2000, protToMode 0, ⟨⟨0x2000, by decide⟩, 0⟩⟩,
      ⟨0x3000, 0x4000, protToMode 0, ⟨⟨0x2000, by decide⟩, 32⟩⟩]⟩, heap'⟩ := by
  have hok : SpaceOk reserved.vm.pageMap (Pmm.blank []) := blank_initial.space
  have hargs : VmArgs 0x2000 0x1000 := ⟨by decide, by decide, by decide, by decide⟩
  obtain ⟨heap', hout⟩ := @Vm.allocFixedOverwrite_eq reserved.vm 0x2000 0x1000 reserved.heap _ _ _ _
    hok hargs (by decide) (by decide) rfl rfl
  exact ⟨heap', bind_eq_ok.mpr ⟨_, hout, rfl⟩⟩

/-- A run of admitted operations after which the list is not in ascending order. -/
theorem areas_unsorted : blank.Initial ∧
    ∃ s, Reachable (· = blank) (fun op _ => op.Args) VmState.step s ∧ ¬ WellFormed s.vm.first := by
  obtain ⟨heap', hstep⟩ := overwrite_inside
  refine ⟨blank_initial, _, .step _ (.step _ (.init rfl) ?_ reserve) ?_ hstep, fun hwf => ?_⟩
  · exact ⟨by decide, by decide, by decide, by decide⟩
  · exact ⟨by decide, by decide, by decide, by decide⟩
  · have hle := (List.pairwise_cons.mp hwf.sorted).1 _ List.mem_cons_self
    exact absurd hle (by decide)

end VmState

end Fluke
