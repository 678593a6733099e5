import Fluke.X86.Mmu.Walk

/-!
# Many address spaces

The kernel keeps one address space for every process, and all of them draw their frames from
one free list. `MmuOp` are the operations on them; between two operations the tables of the live
spaces, their pages and the free list share out the frames that were free at the start.
-/

namespace Fluke

open Outcome TableEntry

/-- No page map: the value `Page_map` variables start with. -/
def Frame.null : Frame := ⟨0, aligned_zero⟩

/-- Physical memory, the address space in CR3, the one the kernel started in, and those made
since. -/
structure MmuState where
  pmm : Pmm
  cr3 : Frame
  boot : Frame
  spaces : List Frame

/-- The operations on address spaces. -/
inductive MmuOp where
  | create
  | assign (pm : Frame) (address : ℕ) (len : ℤ) (mode : MmuMode) (cache : MmuCache)
  | clear (pm : Frame) (address : ℕ) (len : ℤ)
  | clone (pm : Frame)
  | destroy (pm : Frame)
  /-- `mmu_set_address_space` -/
  | load (pm : Frame)

/-- One operation. -/
def MmuState.step : MmuOp → MmuState → Except Panic MmuState
  | .create, m => do
    let (page, pmm) ← mmuCreateAddressSpace m.cr3 .null m.pmm
    .ok { m with pmm := pmm, spaces := page :: m.spaces }
  | .assign pm address len mode cache, m => do
    let pmm ← mmuAssign pm address len mode cache m.pmm
    .ok { m with pmm := pmm }
  | .clear pm address len, m => do
    let pmm ← mmuClear pm address len m.pmm
    .ok { m with pmm := pmm }
  | .clone pm, m => do
    let (page, pmm) ← mmuCloneAddressSpace pm .null m.pmm
    .ok { m with pmm := pmm, spaces := page :: m.spaces }
  | .destroy pm, m => do
    let pmm ← mmuDestroyAddressSpace m.cr3 pm m.pmm
    .ok { m with pmm := pmm, spaces := m.spaces.erase pm }
  | .load pm, m => .ok { m with cr3 := pm }

/-- An `isize` length and an address of the user half. -/
def UserLimits (address : ℕ) (len : ℤ) : Prop := address ≤ memLowHalfMax ∧ len < 2 ^ 63

/-- What the callers of the operations see to: the space is live, the range is in the user half,
and no page is assigned twice. -/
def MmuState.Admits : MmuOp → MmuState → Prop
  | .create, _ => True
  | .assign pm address len _ _, m => pm ∈ m.spaces ∧ UserLimits address len ∧
      ∀ va, address ≤ va → va < address + len → leafEntry m.pmm.memory pm va = none
  | .clear pm address len, m => pm ∈ m.spaces ∧ UserLimits address len
  | .clone pm, m => pm ∈ m.spaces
  | .destroy pm, m => pm ∈ m.spaces
  | .load pm, m => pm ∈ m.spaces ∨ pm = m.boot

/-- Before the first address space is made. -/
structure MmuState.Initial (m : MmuState) : Prop where
  spaces : m.spaces = []
  cr3 : m.cr3 = m.boot
  boot : m.boot ∉ m.pmm.freeList
  nodup : m.pmm.freeList.Nodup
  counted : m.pmm.Counted

/-- What the entries of all user halves point at, counted once for every entry. -/
def MmuState.pointed (m : MmuState) : Multiset Frame :=
  (m.spaces : Multiset Frame).bind (userFrames m.pmm.memory)

/-- The frames of all spaces, their roots included. -/
def MmuState.owned (m : MmuState) : Multiset Frame :=
  (m.spaces : Multiset Frame).bind (spaceFrames m.pmm.memory)

/-- A range that `validate_limits` accepts. -/
lemma userRange_of_validateLimits {address : ℕ} {len : ℤ} (hlim : UserLimits address len)
    (h : validateLimits address len = .ok ()) : ∃ n : ℕ, len = n ∧ UserRange address n := by
  obtain ⟨h1, h2⟩ := hlim
  unfold validateLimits at h
  rw [if_pos h1] at h
  obtain ⟨_, halign, h⟩ := bind_eq_ok.mp h
  obtain ⟨_, hpos, h⟩ := bind_eq_ok.mp h
  simp only [assert_eq_ok, decide_eq_true_eq, pageSize, memLowHalfMax] at halign hpos h h1
  obtain ⟨n, rfl⟩ := Int.eq_ofNat_of_zero_le hpos.le
  have hsum : uaddIsize address n = address + n := by
    rw [uaddIsize_of_nonneg hpos.le (by omega), Int.toNat_natCast]
  rw [hsum] at h
  refine ⟨n, rfl, ?_, ?_, ?_, h⟩ <;> omega

/-! ### The invariant -/

/-- The frames that were free at the start are now the frames of the live spaces and the free
frames; the trees are well formed and without empty tables. -/
structure MmuState.Ok (start : Multiset Frame) (m : MmuState) : Prop where
  conserved : m.owned + (m.pmm.freeList : Multiset Frame) = start
  counted : m.pmm.Counted
  tables : ∀ pm ∈ m.spaces, ∀ i, (userSlots m.pmm.memory pm i).Tables IsIntermediate
  noEmpty : ∀ pm ∈ m.spaces, NoEmptyTables m.pmm.memory pm
  cr3 : m.cr3 ∈ m.spaces ∨ m.cr3 = m.boot

lemma userSlots_congr {memory memory' : Frame → Page} {pm : Frame}
    (h : ∀ g ∈ spaceFrames memory pm, memory' g = memory g) :
    userSlots memory' pm = userSlots memory pm := by
  funext i
  unfold userSlots slotsOf
  rw [h pm (Multiset.mem_cons_self _ _)]
  split_ifs with hi
  · refine treeOf_congr fun g hg => h g (Multiset.mem_cons_of_mem (mem_framesOfSlots.mpr ⟨i, ?_⟩))
    rw [slotsOf, if_pos hi]
    exact Multiset.mem_of_le (Radix.collectTables_le _ _) hg
  · rfl

lemma spaceFrames_congr {memory memory' : Frame → Page} {pm : Frame}
    (h : ∀ g ∈ spaceFrames memory pm, memory' g = memory g) :
    spaceFrames memory' pm = spaceFrames memory pm := by
  have hslots : userFrames memory' pm = userFrames memory pm :=
    congrArg framesOfSlots (userSlots_congr h)
  rw [spaceFrames, spaceFrames, hslots]

/-- The frames of a list of spaces. -/
def framesOf (memory : Frame → Page) (spaces : List Frame) : Multiset Frame :=
  (spaces : Multiset Frame).bind (spaceFrames memory)

lemma framesOf_cons (memory : Frame → Page) (pm : Frame) (spaces : List Frame) :
    framesOf memory (pm :: spaces) = spaceFrames memory pm + framesOf memory spaces := by
  rw [framesOf, ← Multiset.cons_coe, Multiset.cons_bind]
  rfl

lemma mem_framesOf {memory : Frame → Page} {spaces : List Frame} {g : Frame} :
    g ∈ framesOf memory spaces ↔ ∃ pm ∈ spaces, g ∈ spaceFrames memory pm := by
  simp [framesOf, Multiset.mem_bind]

lemma framesOf_congr {memory memory' : Frame → Page} {spaces : List Frame}
    (h : ∀ g ∈ framesOf memory spaces, memory' g = memory g) :
    framesOf memory' spaces = framesOf memory spaces := by
  refine Multiset.bind_congr fun pm hpm => spaceFrames_congr fun g hg => ?_
  exact h g (mem_framesOf.mpr ⟨pm, hpm, hg⟩)

namespace MmuState

variable {start : Multiset Frame} {m m' : MmuState} {pm : Frame}

/-- One space, and the others. -/
lemma owned_eq (hpm : pm ∈ m.spaces) : m.owned =
    spaceFrames m.pmm.memory pm + framesOf m.pmm.memory (m.spaces.erase pm) := by
  have hperm : (m.spaces : Multiset Frame) = (pm :: m.spaces.erase pm : List Frame) :=
    Multiset.coe_eq_coe.mpr (List.perm_cons_erase hpm)
  rw [owned, hperm, ← framesOf, framesOf_cons]

namespace Ok

lemma nodup (h : m.Ok start) (hstart : start.Nodup) (hpm : pm ∈ m.spaces) :
    (spaceFrames m.pmm.memory pm + framesOf m.pmm.memory (m.spaces.erase pm) +
      (m.pmm.freeList : Multiset Frame)).Nodup := by
  rw [← owned_eq hpm, h.conserved]
  exact hstart

lemma space (h : m.Ok start) (hstart : start.Nodup) (hpm : pm ∈ m.spaces) :
    SpaceOk pm m.pmm := by
  refine ⟨⟨?_⟩, h.counted, h.tables pm hpm⟩
  rw [← Multiset.cons_add]
  refine Multiset.nodup_of_le ?_ (h.nodup hstart hpm)
  exact add_le_add_left (Multiset.le_add_right _ _) _

/-- The other spaces lie apart from this one and from the free list. -/
lemma others (h : m.Ok start) (hstart : start.Nodup) (hpm : pm ∈ m.spaces) {g : Frame}
    (hg : g ∈ framesOf m.pmm.memory (m.spaces.erase pm)) :
    g ∉ spaceFrames m.pmm.memory pm ∧ g ∉ m.pmm.freeList := by
  have hnodup := h.nodup hstart hpm
  obtain ⟨hleft, -, hfree⟩ := Multiset.nodup_add.mp hnodup
  refine ⟨fun hmem => ?_, fun hmem => ?_⟩
  · exact Multiset.disjoint_left.mp (Multiset.nodup_add.mp hleft).2.2 hmem hg
  · exact Multiset.disjoint_left.mp hfree (Multiset.mem_add.mpr (Or.inr hg))
      (Multiset.mem_coe.mpr hmem)

/-- A live space other than `pm` does not notice what happens to `pm`. -/
lemma userSlots_same (h : m.Ok start) (hstart : start.Nodup) (hpm : pm ∈ m.spaces) {s' : Pmm}
    (hframe : ∀ g ∉ spaceFrames m.pmm.memory pm, g ∉ m.pmm.freeList →
      s'.memory g = m.pmm.memory g) {pm' : Frame} (hpm' : pm' ∈ m.spaces.erase pm) :
    userSlots s'.memory pm' = userSlots m.pmm.memory pm' := by
  refine userSlots_congr fun g hg => ?_
  obtain ⟨hspace, hfree⟩ := h.others hstart hpm (mem_framesOf.mpr ⟨pm', hpm', hg⟩)
  exact hframe g hspace hfree

lemma framesOf_same (h : m.Ok start) (hstart : start.Nodup) (hpm : pm ∈ m.spaces) {s' : Pmm}
    (hframe : ∀ g ∉ spaceFrames m.pmm.memory pm, g ∉ m.pmm.freeList →
      s'.memory g = m.pmm.memory g) :
    framesOf s'.memory (m.spaces.erase pm) = framesOf m.pmm.memory (m.spaces.erase pm) := by
  refine framesOf_congr fun g hg => ?_
  obtain ⟨hspace, hfree⟩ := h.others hstart hpm hg
  exact hframe g hspace hfree

/-- A live space is `pm` or one of the others. -/
lemma eq_or_mem_erase (pm : Frame) {pm' : Frame} (hpm' : pm' ∈ m.spaces) :
    pm' = pm ∨ pm' ∈ m.spaces.erase pm := by
  by_cases heq : pm' = pm
  · exact Or.inl heq
  · exact Or.inr ((List.mem_erase_of_ne heq).mpr hpm')

/-- An operation on one live space. -/
lemma of_step (h : m.Ok start) (hstart : start.Nodup) (hpm : pm ∈ m.spaces) {s' : Pmm}
    (hstep : SpaceStep pm m.pmm s') (hok : SpaceOk pm s') (hne : NoEmptyTables s'.memory pm) :
    ({ m with pmm := s' } : MmuState).Ok start := by
  have hsame := fun {pm'} (hpm' : pm' ∈ m.spaces.erase pm) =>
    h.userSlots_same hstart hpm hstep.frame hpm'
  refine ⟨?_, hstep.counted, fun pm' hpm' i => ?_, fun pm' hpm' i => ?_, h.cr3⟩
  · have hconserved := h.conserved
    rw [owned_eq hpm] at hconserved
    rw [owned_eq (m := { m with pmm := s' }) hpm, h.framesOf_same hstart hpm hstep.frame,
      ← hconserved, spaceFrames, spaceFrames, Multiset.cons_add, Multiset.cons_add,
      Multiset.cons_add, Multiset.cons_add, add_right_comm, hstep.conserved, add_right_comm]
  · rcases eq_or_mem_erase pm hpm' with rfl | hother
    · exact hok.tables i
    · rw [hsame hother]
      exact h.tables pm' hpm' i
  · rcases eq_or_mem_erase pm hpm' with rfl | hother
    · exact hne i
    · rw [hsame hother]
      exact h.noEmpty pm' hpm' i

/-- A new space. -/
lemma of_new (h : m.Ok start) (hstart : start.Nodup) {source page : Frame} {s' : Pmm}
    (hnew : NewSpace source page m.pmm s') (hne : NoEmptyTables s'.memory page) :
    ({ m with pmm := s', spaces := page :: m.spaces } : MmuState).Ok start := by
  have hfree : ∀ g ∈ m.owned, g ∉ m.pmm.freeList := by
    intro g hg hmem
    have hnodup := hstart
    rw [← h.conserved] at hnodup
    exact Multiset.disjoint_left.mp (Multiset.nodup_add.mp hnodup).2.2 hg
      (Multiset.mem_coe.mpr hmem)
  have hsame : ∀ pm ∈ m.spaces, userSlots s'.memory pm = userSlots m.pmm.memory pm :=
    fun pm hpm => userSlots_congr fun g hg =>
      hnew.frame g (hfree g (mem_framesOf.mpr ⟨pm, hpm, hg⟩))
  have howned : framesOf s'.memory m.spaces = m.owned :=
    framesOf_congr fun g hg => hnew.frame g (hfree g hg)
  refine ⟨?_, hnew.ok.counted, ?_, ?_, h.cr3.imp_left (List.mem_cons_of_mem _)⟩
  · show framesOf s'.memory (page :: m.spaces) + _ = start
    rw [framesOf_cons, howned, ← h.conserved, ← hnew.conserved]
    abel
  · intro pm hpm i
    rcases List.mem_cons.mp hpm with rfl | hpm
    · exact hnew.ok.tables i
    · rw [hsame pm hpm]
      exact h.tables pm hpm i
  · intro pm hpm i
    rcases List.mem_cons.mp hpm with rfl | hpm
    · exact hne i
    · rw [hsame pm hpm]
      exact h.noEmpty pm hpm i

/-- A space is destroyed. -/
lemma of_destroyed (h : m.Ok start) (hstart : start.Nodup) (hpm : pm ∈ m.spaces)
    (hcr3 : pm ≠ m.cr3) {s' : Pmm} (hd : Destroyed pm m.pmm s') :
    ({ m with pmm := s', spaces := m.spaces.erase pm } : MmuState).Ok start := by
  have hsame := fun {pm'} (hpm' : pm' ∈ m.spaces.erase pm) =>
    h.userSlots_same hstart hpm hd.frame hpm'
  refine ⟨?_, hd.counted, fun pm' hpm' i => ?_, fun pm' hpm' i => ?_, ?_⟩
  · show framesOf s'.memory (m.spaces.erase pm) + _ = start
    rw [h.framesOf_same hstart hpm hd.frame, hd.freed, ← h.conserved, owned_eq hpm]
    abel
  · rw [hsame hpm']
    exact h.tables pm' (List.mem_of_mem_erase hpm') i
  · rw [hsame hpm']
    exact h.noEmpty pm' (List.mem_of_mem_erase hpm') i
  · exact h.cr3.imp_left fun hmem => (List.mem_erase_of_ne hcr3.symm).mpr hmem

end Ok

/-- The address space in CR3 is not on the free list. -/
lemma Ok.cr3_notMem_free {start : Multiset Frame} (hstart : start.Nodup) {m : MmuState}
    (hboot : m.boot ∉ start) (h : m.Ok start) : m.cr3 ∉ m.pmm.freeList := by
  rcases h.cr3 with hlive | heq
  · exact (h.space hstart hlive).apart.table_notMem_free
  · rw [heq]
    intro hmem
    rw [← h.conserved] at hboot
    exact hboot (Multiset.mem_add.mpr (Or.inr (Multiset.mem_coe.mpr hmem)))

/-- What one operation preserves. -/
lemma Ok.step {start : Multiset Frame} (hstart : start.Nodup) {m m' : MmuState}
    (hboot : m.boot ∉ start) (h : m.Ok start) {op : MmuOp} (hadmits : m.Admits op)
    (hstep : MmuState.step op m = .ok m') : m'.Ok start ∧ m'.boot = m.boot := by
  have hfree : m.pmm.freeList.Nodup := by
    rw [← h.conserved] at hstart
    exact (Multiset.nodup_add.mp hstart).2.1
  cases op with
  | create =>
    obtain ⟨⟨page, s'⟩, hcreate, hm'⟩ := bind_eq_ok.mp hstep
    obtain ⟨hnew, habsent⟩ := (mmuCreateAddressSpace_spec rfl hfree
      (h.cr3_notMem_free hstart hboot) h.counted).of_eq_ok hcreate
    cases hm'
    refine ⟨h.of_new hstart hnew fun i => ?_, rfl⟩
    rw [habsent i]
    exact Radix.noEmpty_absent
  | assign pm address len mode cache =>
    obtain ⟨hpm, hlimits, -⟩ := hadmits
    obtain ⟨s', hassign, hm'⟩ := bind_eq_ok.mp hstep
    obtain ⟨_, hvalid, -⟩ := bind_eq_ok.mp hassign
    obtain ⟨n, rfl, hr⟩ := userRange_of_validateLimits hlimits hvalid
    have hspec := (mmuAssign_spec hr (h.space hstart hpm)).of_eq_ok hassign
    cases hm'
    exact ⟨h.of_step hstart hpm hspec.step hspec.ok (hspec.noEmpty (h.noEmpty pm hpm)), rfl⟩
  | clear pm address len =>
    obtain ⟨hpm, hlimits⟩ := hadmits
    obtain ⟨s', hclear, hm'⟩ := bind_eq_ok.mp hstep
    obtain ⟨_, hvalid, -⟩ := bind_eq_ok.mp hclear
    obtain ⟨n, rfl, hr⟩ := userRange_of_validateLimits hlimits hvalid
    have hspec := (mmuClear_spec hr (h.space hstart hpm)).of_eq_ok hclear
    cases hm'
    exact ⟨h.of_step hstart hpm hspec.step hspec.ok (hspec.noEmpty (h.noEmpty pm hpm)), rfl⟩
  | clone pm =>
    obtain ⟨⟨page, s'⟩, hclone, hm'⟩ := bind_eq_ok.mp hstep
    obtain ⟨hnew, hcopy⟩ := (mmuCloneAddressSpace_spec rfl (h.space hstart hadmits)).of_eq_ok hclone
    cases hm'
    exact ⟨h.of_new hstart hnew fun i => (hcopy i).noEmpty (h.noEmpty pm hadmits i), rfl⟩
  | destroy pm =>
    obtain ⟨s', hdestroy, hm'⟩ := bind_eq_ok.mp hstep
    obtain ⟨_, hassert, -⟩ := bind_eq_ok.mp hdestroy
    have hcr3 : pm ≠ m.cr3 := fun heq => by simp [assert_eq_ok, heq] at hassert
    have hspec := (mmuDestroyAddressSpace_spec hcr3 (h.space hstart hadmits)
      (h.noEmpty pm hadmits)).of_eq_ok hdestroy
    cases hm'
    exact ⟨h.of_destroyed hstart hadmits hcr3 hspec, rfl⟩
  | load pm =>
    cases hstep
    exact ⟨⟨h.conserved, h.counted, h.tables, h.noEmpty, hadmits⟩, rfl⟩

/-- What holds before the first operation. -/
lemma Initial.ok {m : MmuState} (h : m.Initial) : m.Ok m.pmm.freeList := by
  refine ⟨?_, h.counted, ?_, ?_, Or.inr h.cr3⟩
  · rw [owned, h.spaces]
    simp
  · simp [h.spaces]
  · simp [h.spaces]

/-- What holds in every state that a run reaches. -/
lemma Ok.of_reachable {m₀ m : MmuState} (h₀ : m₀.Initial)
    (h : Reachable (· = m₀) (fun op m => m.Admits op) MmuState.step m) :
    m.Ok m₀.pmm.freeList := by
  have hboot := h₀.boot
  have hnodup : (m₀.pmm.freeList : Multiset Frame).Nodup := h₀.nodup
  refine (h.invariant (I := fun m => m.Ok m₀.pmm.freeList ∧ m.boot = m₀.boot) ?_ ?_).1
  · rintro _ rfl
    exact ⟨h₀.ok, rfl⟩
  · rintro op m m' ⟨hok, hb⟩ hadmits hstep
    obtain ⟨hok', hb'⟩ := hok.step hnodup (by rw [hb]; exact hboot) hadmits hstep
    exact ⟨hok', hb'.trans hb⟩

/-- The roots of the spaces and what their entries point at. -/
lemma owned_eq_pointed (m : MmuState) : m.owned = (m.spaces : Multiset Frame) + m.pointed := by
  unfold owned pointed spaceFrames
  induction m.spaces with
  | nil => simp
  | cons pm spaces ih =>
    rw [← Multiset.cons_coe, Multiset.cons_bind, Multiset.cons_bind, ih, Multiset.cons_add,
      Multiset.cons_add]
    congr 1
    abel

/-- In every state of every run: a frame that an entry points at is pointed at by no other entry
and is not free; no table is empty; the frames that were free at the start are the free ones and
those of the live spaces; and destroying a space gives back its frames and no others. -/
theorem frames_conserved {m₀ m : MmuState} (h₀ : m₀.Initial)
    (h : Reachable (· = m₀) (fun op m => m.Admits op) MmuState.step m) :
    (∀ g ∈ m.pointed, m.pointed.count g = 1 ∧ g ∉ m.pmm.freeList ∧ g ∉ m.spaces) ∧
    (∀ pm ∈ m.spaces, NoEmptyTables m.pmm.memory pm) ∧
    (m.owned.Nodup ∧ m.pmm.freeList.Nodup ∧
      m.owned + (m.pmm.freeList : Multiset Frame) = m₀.pmm.freeList) ∧
    ∀ pm ∈ m.spaces, pm ≠ m.cr3 →
      Ensures (fun _ => False) (fun s' =>
        (s'.freeList : Multiset Frame) = spaceFrames m.pmm.memory pm + m.pmm.freeList ∧
        ∀ pm' ∈ m.spaces.erase pm, userSlots s'.memory pm' = userSlots m.pmm.memory pm')
        (mmuDestroyAddressSpace m.cr3 pm m.pmm) := by
  have hok := Ok.of_reachable h₀ h
  have hstart : (m₀.pmm.freeList : Multiset Frame).Nodup := h₀.nodup
  have hnodup := hstart
  rw [← hok.conserved] at hnodup
  obtain ⟨howned, hfree, hdisj⟩ := Multiset.nodup_add.mp hnodup
  refine ⟨fun g hg => ?_, hok.noEmpty, ⟨howned, hfree, hok.conserved⟩, fun pm hpm hcr3 => ?_⟩
  · rw [owned_eq_pointed] at howned hdisj
    obtain ⟨-, hpointed, hroots⟩ := Multiset.nodup_add.mp howned
    refine ⟨Multiset.count_eq_one_of_mem hpointed hg, fun hmem => ?_, fun hmem => ?_⟩
    · exact Multiset.disjoint_left.mp hdisj (Multiset.mem_add.mpr (Or.inr hg))
        (Multiset.mem_coe.mpr hmem)
    · exact Multiset.disjoint_left.mp hroots (Multiset.mem_coe.mpr hmem) hg
  · refine (mmuDestroyAddressSpace_spec hcr3 (hok.space hstart hpm) (hok.noEmpty pm hpm)).imp ?_
    exact fun s' hd => ⟨hd.freed, fun pm' hpm' => hok.userSlots_same hstart hpm hd.frame hpm'⟩

/-- A copy takes its frames from the free list. -/
lemma card_of_clone {source copy : Frame} {s s' : Pmm} (hs : SpaceOk source s)
    (hclone : mmuCloneAddressSpace source .null s = .ok (copy, s')) :
    (spaceFrames s'.memory copy).card + s'.freeList.length = s.freeList.length := by
  obtain ⟨hnew, -⟩ := (@mmuCloneAddressSpace_spec source .null s rfl hs).of_eq_ok hclone
  simpa using congrArg Multiset.card hnew.conserved

/-! ### A run -/

/-- The next state, when the operation returns -/
def next (m : MmuState) (op : MmuOp) : MmuState := (MmuState.step op m).toOption.getD m

lemma next_eq {m m' : MmuState} {op : MmuOp} (h : MmuState.step op m = .ok m') :
    m.next op = m' := by
  rw [next, h]
  rfl

/-- A range of a live space can always be cleared, and the other spaces do not notice. -/
lemma Ok.next_clear {start : Multiset Frame} {m : MmuState} {pm : Frame} {address len : ℕ}
    (h : m.Ok start) (hstart : start.Nodup) (hpm : pm ∈ m.spaces) (hr : UserRange address len) :
    MmuState.step (.clear pm address len) m = .ok (m.next (.clear pm address len)) ∧
      (m.next (.clear pm address len)).spaces = m.spaces ∧
      (m.next (.clear pm address len)).cr3 = m.cr3 ∧
      ∀ pm' ∈ m.spaces.erase pm, userSlots (m.next (.clear pm address len)).pmm.memory pm' =
        userSlots m.pmm.memory pm' := by
  obtain ⟨s', hclear, hspec⟩ := (mmuClear_spec hr (h.space hstart hpm)).exists_ok
  have hstep : MmuState.step (.clear pm address len) m = .ok { m with pmm := s' } := by
    rw [MmuState.step, hclear]
    rfl
  rw [next_eq hstep]
  exact ⟨hstep, rfl, rfl, fun pm' hpm' => h.userSlots_same hstart hpm hspec.step.frame hpm'⟩

/-- A live space that is not in use can always be destroyed. -/
lemma Ok.next_destroy {start : Multiset Frame} {m : MmuState} {pm : Frame} (h : m.Ok start)
    (hstart : start.Nodup) (hpm : pm ∈ m.spaces) (hcr3 : pm ≠ m.cr3) :
    MmuState.step (.destroy pm) m = .ok (m.next (.destroy pm)) ∧
      (m.next (.destroy pm)).spaces = m.spaces.erase pm ∧
      ∀ pm' ∈ m.spaces.erase pm, userSlots (m.next (.destroy pm)).pmm.memory pm' =
        userSlots m.pmm.memory pm' := by
  obtain ⟨s', hdestroy, hspec⟩ :=
    (mmuDestroyAddressSpace_spec hcr3 (h.space hstart hpm) (h.noEmpty pm hpm)).exists_ok
  have hstep : MmuState.step (.destroy pm) m =
      .ok { m with pmm := s', spaces := m.spaces.erase pm } := by
    rw [MmuState.step, hdestroy]
    rfl
  rw [next_eq hstep]
  exact ⟨hstep, rfl, fun pm' hpm' => h.userSlots_same hstart hpm hspec.frame hpm'⟩

/-- A machine with free frames, before the first address space is made. -/
def roomy : MmuState where
  pmm := Pmm.blank (framesFrom 0x10000 20)
  cr3 := ⟨0x1000, aligned_page1⟩
  boot := ⟨0x1000, aligned_page1⟩
  spaces := []

lemma roomy_initial : roomy.Initial := ⟨rfl, rfl, by decide, by decide, rfl⟩

/-- The `i`-th of the frames that were free -/
def roomyFrame (i : ℕ) : Frame := Frame.offset 0x10000 (i * pageSize)

lemma roomyFrame_ne_cr3 : roomyFrame 0 ≠ roomy.cr3 := by decide

lemma roomyFrame_ne : roomyFrame 6 ≠ roomyFrame 0 := by decide

/-- One address space -/
def created : MmuState := roomy.next .create

/-- With two writable pages -/
def assigned : MmuState := created.next
  (.assign (roomyFrame 0) 0x1000 0x2000 (MmuMode.user ||| MmuMode.write) MmuCache.default)

/-- Another space, the copy of the first -/
def cloned : MmuState := assigned.next (.clone (roomyFrame 0))

/-- The first space with one page -/
def cleared : MmuState := cloned.next (.clear (roomyFrame 0) 0x1000 0x1000)

/-- The copy alone -/
def destroyed : MmuState := cleared.next (.destroy (roomyFrame 0))

/-- The run up to the copy. The copy has six frames: its root, three tables and two pages. -/
lemma cloned_eq :
    (MmuState.step .create roomy).toOption.map MmuState.spaces = some [roomyFrame 0] ∧
    isPresent (created.pmm.memory (roomyFrame 0) 0) = false ∧
    (MmuState.step (.assign (roomyFrame 0) 0x1000 0x2000 (MmuMode.user ||| MmuMode.write)
      MmuCache.default) created).toOption.map (fun m => (m.spaces, m.pmm.freeList.length)) =
        some ([roomyFrame 0], 14) ∧
    (MmuState.step (.clone (roomyFrame 0)) assigned).toOption.map
      (fun m => (m.spaces, m.cr3, m.pmm.freeList.length)) =
        some ([roomyFrame 6, roomyFrame 0], roomy.cr3, 8) := by decide +kernel

lemma created_spec : MmuState.step .create roomy = .ok created ∧
    created.spaces = [roomyFrame 0] := eq_ok_of_map cloned_eq.1 roomy

lemma created_unmapped {va : ℕ} (hva : va < 2 ^ 39) :
    leafEntry created.pmm.memory (roomyFrame 0) va = none := by
  have hindex : tableIndex PML4 va = 0 := by
    have hshift : va >>> virtShift PML4 = 0 := by
      rw [Nat.shiftRight_eq_div_pow]
      exact Nat.div_eq_of_lt hva
    have hval : (tableIndex PML4 va).val = 0 := by
      show 0x1ff &&& (va >>> virtShift PML4) = 0
      rw [hshift, Nat.and_zero]
    exact Fin.ext hval
  unfold leafEntry walk
  rw [hindex]
  simp [cloned_eq.2.1]

lemma assigned_spec : MmuState.step (.assign (roomyFrame 0) 0x1000 0x2000
      (MmuMode.user ||| MmuMode.write) MmuCache.default) created = .ok assigned ∧
    assigned.spaces = [roomyFrame 0] ∧ assigned.pmm.freeList.length = 14 := by
  obtain ⟨hstep, hfields⟩ := eq_ok_of_map cloned_eq.2.2.1 created
  exact ⟨hstep, Prod.mk.inj hfields⟩

lemma cloned_spec : MmuState.step (.clone (roomyFrame 0)) assigned = .ok cloned ∧
    cloned.spaces = [roomyFrame 6, roomyFrame 0] ∧ cloned.cr3 = roomy.cr3 ∧
    cloned.pmm.freeList.length = 8 := by
  obtain ⟨hstep, hfields⟩ := eq_ok_of_map cloned_eq.2.2.2 assigned
  obtain ⟨hspaces, hrest⟩ := Prod.mk.inj hfields
  exact ⟨hstep, hspaces, Prod.mk.inj hrest⟩

lemma userLimits_roomy {len : ℤ} (hlen : len ≤ 0x2000) : UserLimits 0x1000 len := by
  unfold UserLimits
  simp only [memLowHalfMax]
  omega

lemma mem_assigned_spaces : roomyFrame 0 ∈ assigned.spaces := by
  rw [assigned_spec.2.1]
  exact List.mem_singleton.mpr rfl

/-- A space is made and used. -/
lemma assigned_reachable :
    Reachable (· = roomy) (fun op m => m.Admits op) MmuState.step assigned := by
  have hcreated : Reachable (· = roomy) (fun op m => m.Admits op) MmuState.step created :=
    .step .create (.init rfl) trivial created_spec.1
  refine .step (.assign _ _ _ _ _) hcreated ⟨?_, userLimits_roomy le_rfl, fun va _ hva => ?_⟩
    assigned_spec.1
  · rw [created_spec.2]
    exact List.mem_singleton.mpr rfl
  · exact created_unmapped (by omega)

lemma assigned_spaceOk : SpaceOk (roomyFrame 0) assigned.pmm :=
  (Ok.of_reachable roomy_initial assigned_reachable).space roomy_initial.nodup
    mem_assigned_spaces

lemma mmuCloneAddressSpace_assigned :
    mmuCloneAddressSpace (roomyFrame 0) .null assigned.pmm = .ok (roomyFrame 6, cloned.pmm) := by
  obtain ⟨hstep, hspaces, -⟩ := cloned_spec
  rw [step] at hstep
  obtain ⟨⟨copy, pmm⟩, hclone, heq⟩ := bind_eq_ok.mp hstep
  injection heq with heq
  rw [← heq] at hspaces ⊢
  rw [hclone, (List.cons.inj hspaces).1]

lemma first_mem_cloned : roomyFrame 0 ∈ cloned.spaces := by
  rw [cloned_spec.2.1]
  exact List.mem_cons_of_mem _ (List.mem_singleton.mpr rfl)

lemma cloned_reachable :
    Reachable (· = roomy) (fun op m => m.Admits op) MmuState.step cloned :=
  .step (.clone _) assigned_reachable mem_assigned_spaces cloned_spec.1

/-- The first space is used again, and the copy does not notice. -/
lemma cleared_spec :
    MmuState.step (.clear (roomyFrame 0) 0x1000 0x1000) cloned = .ok cleared ∧
      cleared.spaces = cloned.spaces ∧ cleared.cr3 = cloned.cr3 ∧
      ∀ pm ∈ cloned.spaces.erase (roomyFrame 0),
        userSlots cleared.pmm.memory pm = userSlots cloned.pmm.memory pm :=
  (Ok.of_reachable roomy_initial cloned_reachable).next_clear roomy_initial.nodup first_mem_cloned
    (⟨by decide, by decide, by decide, by decide⟩ : UserRange 0x1000 0x1000)

lemma cleared_reachable :
    Reachable (· = roomy) (fun op m => m.Admits op) MmuState.step cleared :=
  .step (.clear _ _ _) cloned_reachable ⟨first_mem_cloned, userLimits_roomy (by decide)⟩
    cleared_spec.1

lemma first_mem_cleared : roomyFrame 0 ∈ cleared.spaces := by
  rw [cleared_spec.2.1]
  exact first_mem_cloned

/-- It is destroyed. -/
lemma destroyed_spec : MmuState.step (.destroy (roomyFrame 0)) cleared = .ok destroyed ∧
    destroyed.spaces = cleared.spaces.erase (roomyFrame 0) ∧
    ∀ pm ∈ cleared.spaces.erase (roomyFrame 0),
      userSlots destroyed.pmm.memory pm = userSlots cleared.pmm.memory pm := by
  have hne : roomyFrame 0 ≠ cleared.cr3 := by
    rw [cleared_spec.2.2.1, cloned_spec.2.2.1]
    exact roomyFrame_ne_cr3
  exact (Ok.of_reachable roomy_initial cleared_reachable).next_destroy roomy_initial.nodup
    first_mem_cleared hne

lemma destroyed_reachable :
    Reachable (· = roomy) (fun op m => m.Admits op) MmuState.step destroyed :=
  .step (.destroy _) cleared_reachable first_mem_cleared destroyed_spec.1

lemma destroyed_spaces : destroyed.spaces = [roomyFrame 6] := by
  rw [destroyed_spec.2.1, cleared_spec.2.1, cloned_spec.2.1,
    List.erase_cons_tail (by simp [roomyFrame_ne]), List.erase_cons_head]

/-- The copy has the frames that it was made with. -/
lemma destroyed_frames :
    spaceFrames destroyed.pmm.memory (roomyFrame 6) =
      spaceFrames cloned.pmm.memory (roomyFrame 6) := by
  obtain ⟨-, hspaces, -, hcleared⟩ := cleared_spec
  have hmem : roomyFrame 6 ∈ cloned.spaces.erase (roomyFrame 0) := by
    rw [← hspaces, ← destroyed_spec.2.1, destroyed_spaces]
    exact List.mem_singleton.mpr rfl
  have hslots := (destroyed_spec.2.2 _ (hspaces ▸ hmem)).trans (hcleared _ hmem)
  exact congrArg (fun slots => roomyFrame 6 ::ₘ framesOfSlots slots) hslots

lemma destroyed_free : destroyed.pmm.freeList.length = 14 := by
  have hconserved := (Ok.of_reachable roomy_initial destroyed_reachable).conserved
  have howned : destroyed.owned = spaceFrames cloned.pmm.memory (roomyFrame 6) := by
    rw [owned, destroyed_spaces, Multiset.coe_singleton, Multiset.singleton_bind, destroyed_frames]
  rw [howned] at hconserved
  have hcard := congrArg Multiset.card hconserved
  rw [Multiset.card_add, Multiset.coe_card, Multiset.coe_card] at hcard
  have hclone := card_of_clone assigned_spaceOk mmuCloneAddressSpace_assigned
  have hfree := cloned_spec.2.2.2
  have hstart : roomy.pmm.freeList.length = 20 := by
    simp [roomy, Pmm.blank, framesFrom]
  have hassigned := assigned_spec.2.2
  omega

/-- The copy of a space that was destroyed -/
theorem frames_conserved_destroyed :
    (destroyed.spaces = [roomyFrame 6] ∧ destroyed.pmm.freeList.length = 14) ∧
    (∀ g ∈ destroyed.pointed, destroyed.pointed.count g = 1 ∧ g ∉ destroyed.pmm.freeList ∧
      g ∉ destroyed.spaces) ∧
    (∀ pm ∈ destroyed.spaces, NoEmptyTables destroyed.pmm.memory pm) ∧
    (destroyed.owned.Nodup ∧ destroyed.pmm.freeList.Nodup ∧
      destroyed.owned + (destroyed.pmm.freeList : Multiset Frame) = roomy.pmm.freeList) ∧
    ∀ pm ∈ destroyed.spaces, pm ≠ destroyed.cr3 →
      Ensures (fun _ => False) (fun s' =>
        (s'.freeList : Multiset Frame) =
          spaceFrames destroyed.pmm.memory pm + destroyed.pmm.freeList ∧
        ∀ pm' ∈ destroyed.spaces.erase pm,
          userSlots s'.memory pm' = userSlots destroyed.pmm.memory pm')
        (mmuDestroyAddressSpace destroyed.cr3 pm destroyed.pmm) :=
  ⟨⟨destroyed_spaces, destroyed_free⟩, frames_conserved roomy_initial destroyed_reachable⟩

end MmuState

end Fluke
