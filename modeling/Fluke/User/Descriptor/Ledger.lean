import Fluke.User.Descriptor.Destroy
import Fluke.User.Descriptor.Syscalls

/-!
# The objects and their references

What the system calls on descriptors do to the objects, given how many descriptors of all processes
refer to each of them. An object is closed when the last of them goes, and at no other time.
-/

namespace Fluke

open Outcome

/-- The objects agree with the number of descriptors that refer to them. -/
structure ObjectsOk (total : HandleId → ℕ) (o : Objects) : Prop where
  count : ∀ h, o.refCount h = total h
  live : ∀ h, 0 < total h → o.Live h
  sized : o.Sized
  counted : o.heap.pmm.Counted
  claimed : ∀ n, o.isClaimed n = true ↔ 0 < total (.irq n)
  modules : ∀ n, (o.modules n).isSome ↔ 0 < total (.module n)
  fresh : ∀ n, o.created ≤ n → o.ipcs n = none ∧
    ∀ h, h = .ipc n ∨ h = .module n → total h = 0 ∧ h ∉ o.closes
  once : ∀ h, (∀ n, h ≠ .irq n) → o.closes.count h ≤ 1 ∧ (0 < total h → h ∉ o.closes)

/-- The objects that were closed are those whose last descriptor has gone. -/
def ClosedLast (total total' : HandleId → ℕ) (s s' : Handles) : Prop :=
  ∃ closed, s'.closes = closed ++ s.closes ∧ closed.Nodup ∧
    ∀ h, h ∈ closed ↔ 0 < total h ∧ total' h = 0

/-- No object yet -/
def Objects.none (heap : Heap) : Objects :=
  { heap := heap, refCount := fun _ => 0, isClaimed := fun _ => false, ipcs := fun _ => .none,
    modules := fun _ => .none, closes := [], created := 0 }

/-! ### References -/

section

variable {total total' grown : HandleId → ℕ} {o o' : Objects} {s s' : Handles}

lemma Objects.eta (o : Objects) (s : Handles) :
    ({ o with toHandles := s } : Objects).toHandles = s := rfl

lemma ClosedLast.refl (h : s'.closes = s.closes) (hzero : ∀ g, 0 < total g → 0 < total' g) :
    ClosedLast total total' s s' := by
  refine ⟨[], by rw [h]; rfl, List.nodup_nil, fun g => ?_⟩
  have := hzero g
  simp only [List.not_mem_nil, false_iff]
  omega

lemma ObjectsOk.congr (h : ObjectsOk total o) (heq : ∀ g, total g = total' g) :
    ObjectsOk total' o := by
  obtain rfl : total = total' := funext heq
  exact h

lemma ObjectsOk.refs (h : ObjectsOk total o) {t : DescriptorTable} {other : HandleId → ℕ}
    (htotal : ∀ g, total g = t.uses g + other g) : RefsOk t other o.toHandles := by
  refine ⟨fun g => ?_, fun g hg => h.live g ?_, h.sized⟩
  · rw [h.count, htotal]
    push_cast
    rfl
  · rw [h.count] at hg
    exact_mod_cast hg

/-- References have been added to objects that are in use. -/
lemma ObjectsOk.moreRefs (h : ObjectsOk total o)
    (heq : s = { o.toHandles with heap := s.heap, refCount := s.refCount })
    (hcount : ∀ g, s.refCount g = o.refCount g + grown g) (hc : s.heap.pmm.Counted)
    (hgrown : ∀ g, 0 < grown g → 0 < total g) (htotal : ∀ g, total' g = total g + grown g) :
    ObjectsOk total' { o with toHandles := s } := by
  have hpos : ∀ g, 0 < total' g ↔ 0 < total g := by
    intro g
    have := hgrown g
    rw [htotal]
    omega
  have hlive : ∀ g, s.Live g ↔ o.Live g := by
    intro g
    rw [heq]
    cases g <;> exact Iff.rfl
  refine ⟨fun g => ?_, fun g hg => (hlive g).mpr (h.live g ((hpos g).mp hg)), ?_, hc,
    fun n => ?_, fun n => ?_, fun n hn => ?_, fun g hg => ?_⟩
  · rw [Objects.eta, hcount, h.count, htotal]
    push_cast
    rfl
  · rw [Objects.eta, heq]
    exact h.sized
  · rw [Objects.eta, heq, hpos]
    exact h.claimed n
  · rw [Objects.eta, heq, hpos]
    exact h.modules n
  · rw [Objects.eta, heq]
    obtain ⟨hipcs, hfresh⟩ := h.fresh n hn
    refine ⟨hipcs, fun g hg => ⟨?_, (hfresh g hg).2⟩⟩
    have := (hpos g).mp
    have := (hfresh g hg).1
    omega
  · rw [Objects.eta, heq, hpos]
    exact h.once g hg

lemma ObjectsOk.more (h : ObjectsOk total o) (hs : MoreRefs grown o.toHandles s)
    (hgrown : ∀ g, 0 < grown g → 0 < total g) (htotal : ∀ g, total' g = total g + grown g) :
    ObjectsOk total' { o with toHandles := s } :=
  h.moreRefs hs.eq hs.refCount hs.heap.counted hgrown htotal

lemma ObjectsOk.none {heap : Heap} (hc : heap.pmm.Counted) :
    ObjectsOk (fun _ => 0) (Objects.none heap) where
  count _ := rfl
  live _ h := absurd h (lt_irrefl 0)
  sized n ipc h := by cases h
  counted := hc
  claimed n := by simp [Objects.none]
  modules n := by simp [Objects.none]
  fresh n _ := ⟨rfl, fun h _ => ⟨rfl, by simp [Objects.none]⟩⟩
  once h _ := by simp [Objects.none]

lemma ObjectsOk.same (h : ObjectsOk total o) (hs : SameObjects o.toHandles s) :
    ObjectsOk total { o with toHandles := s } :=
  h.more (MoreRefs.of_same hs) (fun _ hg => absurd hg (lt_irrefl 0)) fun _ => rfl

lemma MoreRefs.dup (s : Handles) (hc : s.heap.pmm.Counted) (handle : HandleId) :
    MoreRefs (fun g => if g = handle then 1 else 0) s (s.dup handle) := by
  refine ⟨rfl, fun g => ?_, .refl hc⟩
  by_cases hg : g = handle
  · subst hg
    simp [Handles.dup, Handles.setRefCount]
  · simp [Handles.dup, Handles.setRefCount, hg]

/-- References have gone. -/
lemma ObjectsOk.dropped (h : ObjectsOk total o) (hs : Dropped o.toHandles s) (hsized : s.Sized)
    (hlive : ∀ g, 0 < s.refCount g → s.Live g) (htotal : ∀ g, s.refCount g = total' g) :
    ObjectsOk total' { o with toHandles := s } ∧ ClosedLast total total' o.toHandles s := by
  have hle : ∀ g, total' g ≤ total g := by
    intro g
    have := hs.le g
    rw [htotal, h.count] at this
    exact_mod_cast this
  have hlast : ∀ g, 0 < o.refCount g ∧ s.refCount g = 0 ↔ 0 < total g ∧ total' g = 0 := by
    intro g
    rw [htotal, h.count]
    norm_cast
  obtain ⟨closed, hcloses, hnodup, hmem⟩ := hs.closes
  have hmem' : ∀ g, g ∈ closed ↔ 0 < total g ∧ total' g = 0 := fun g =>
    (hmem g).trans (hlast g)
  refine ⟨⟨htotal, fun g hg => hlive g ?_, hsized, ?_, fun n => ?_, fun n => ?_, fun n hn => ?_,
    fun g hg => ?_⟩, closed, hcloses, hnodup, hmem'⟩
  · rw [htotal]
    exact_mod_cast hg
  · rw [Objects.eta, hs.pmm]
    exact h.counted
  · have hclaimed := h.claimed n
    have := hle (.irq n)
    rw [Objects.eta, hs.claimed, if_congr (hlast _) rfl rfl]
    split_ifs with hgone
    · simp [hgone.2]
    · rw [hclaimed]
      omega
  · have := hle (.module n)
    rw [Objects.eta, hs.modules, hlast, h.modules]
    omega
  · obtain ⟨hipcs, hfresh⟩ := h.fresh n hn
    refine ⟨hs.ipcs n hipcs, fun g hg => ?_⟩
    obtain ⟨hzero, hnotin⟩ := hfresh g hg
    have := hle g
    refine ⟨by omega, ?_⟩
    rw [Objects.eta, hcloses, List.mem_append, hmem', not_or]
    exact ⟨by omega, hnotin⟩
  · obtain ⟨honce, hnotin⟩ := h.once g hg
    have := hle g
    rw [Objects.eta, hcloses, List.count_append, List.mem_append, hmem']
    refine ⟨?_, fun hpos => not_or.mpr ⟨by omega, hnotin (by omega)⟩⟩
    by_cases hgone : g ∈ closed
    · have hzero := List.count_eq_zero_of_not_mem (hnotin ((hmem' g).mp hgone).1)
      have hone := List.nodup_iff_count_le_one.mp hnodup g
      omega
    · rw [List.count_eq_zero_of_not_mem hgone]
      omega

/-! ### New objects -/

/-- An object has come into use, with no references yet. -/
structure ObjectAdded (h : HandleId) (o o' : Objects) : Prop where
  unused : o.refCount h = 0
  refCount : o'.refCount = o.refCount
  live : ∀ g, o'.Live g ↔ o.Live g ∨ g = h
  sized : o'.Sized
  counted : o'.heap.pmm.Counted
  claimed : ∀ n, o'.isClaimed n = true ↔ o.isClaimed n = true ∨ h = .irq n
  modules : ∀ n, (o'.modules n).isSome ↔ (o.modules n).isSome ∨ h = .module n
  closes : o'.closes = o.closes
  created : o.created ≤ o'.created
  ipcs : ∀ n, o'.created ≤ n → o'.ipcs n = o.ipcs n
  fresh : ∀ n, h = .ipc n ∨ h = .module n → n < o'.created ∧ h ∉ o.closes

/-- The first reference to an object that has come into use -/
lemma ObjectsOk.added (h : ObjectsOk total o) {handle : HandleId} (hadded : ObjectAdded handle o o')
    (htotal : ∀ g, total' g = total g + if g = handle then 1 else 0) :
    ObjectsOk total' { o' with toHandles := o'.dup handle } := by
  have hzero : total handle = 0 := by
    have := h.count handle
    rw [hadded.unused] at this
    exact_mod_cast this.symm
  have hpos : ∀ g, 0 < total' g ↔ 0 < total g ∨ g = handle := by
    intro g
    rw [htotal]
    split_ifs with hg
    · simp [hg]
    · simp [hg]
  refine ⟨fun g => ?_, fun g hg => ?_, hadded.sized, hadded.counted, fun n => ?_, fun n => ?_,
    fun n hn => ?_, fun g hg => ?_⟩
  · rw [(MoreRefs.dup o'.toHandles hadded.counted handle).refCount, hadded.refCount, h.count,
      htotal]
    push_cast
    rfl
  · have hlive : o'.Live g := (hadded.live g).mpr (((hpos g).mp hg).imp_left (h.live g))
    cases g <;> exact hlive
  · rw [hpos, ← h.claimed, eq_comm (a := HandleId.irq n)]
    exact hadded.claimed n
  · rw [hpos, ← h.modules, eq_comm (a := HandleId.module n)]
    exact hadded.modules n
  · obtain ⟨hipcs, hfresh⟩ := h.fresh n (hadded.created.trans hn)
    refine ⟨(hadded.ipcs n hn).trans hipcs, fun g hg => ?_⟩
    have hne : g ≠ handle := by
      rintro rfl
      exact absurd (hadded.fresh n hg).1 (not_lt.mpr hn)
    refine ⟨?_, ?_⟩
    · rw [htotal, (hfresh g hg).1, if_neg hne]
    · have hnotin := (hfresh g hg).2
      rw [← hadded.closes] at hnotin
      exact hnotin
  · have honce := h.once g hg
    rw [← hadded.closes] at honce
    refine ⟨honce.1, fun hgpos => ?_⟩
    rcases (hpos g).mp hgpos with hold | rfl
    · exact honce.2 hold
    · have hnotin : g ∉ o.closes := by
        cases g with
        | irq n => exact absurd rfl (hg n)
        | ipc n => exact (hadded.fresh n (Or.inl rfl)).2
        | module n => exact (hadded.fresh n (Or.inr rfl)).2
      rw [← hadded.closes] at hnotin
      exact hnotin

/-- A claim -/
lemma ObjectsOk.irqClaim (h : ObjectsOk total o) {irq : ℤ} {handle : HandleId}
    (hclaim : o.toHandles.irqClaim irq = (.ok handle, s)) :
    ObjectAdded handle o { o with toHandles := s } := by
  unfold Handles.irqClaim at hclaim
  cases hn : irqIndex irq with
  | none =>
    rw [hn] at hclaim
    cases hclaim
  | some n =>
    rw [hn] at hclaim
    dsimp only at hclaim
    split_ifs at hclaim with hclaimed
    · cases hclaim
    cases hclaim
    have hzero : total (.irq n) = 0 := by
      by_contra hne
      exact hclaimed ((h.claimed n).mpr (Nat.pos_of_ne_zero hne))
    refine ⟨?_, rfl, fun g => ?_, h.sized, h.counted, fun m => ?_, fun m => ?_, rfl, le_rfl,
      fun _ _ => rfl, fun m hm => ?_⟩
    · rw [h.count, hzero]
      rfl
    · cases g with
      | irq m => exact iff_of_true trivial (Or.inl trivial)
      | ipc m => exact (or_iff_left (by simp)).symm
      | module m => exact (or_iff_left (by simp)).symm
    · by_cases hm : m = n
      · subst hm
        simp
      · simp [hm, Ne.symm hm]
    · exact (or_iff_left (by simp)).symm
    · rcases hm with hm | hm <;> cases hm

lemma handleOpenModule_spec (h : ObjectsOk total o) {size : ℕ} (hsize : 0 < size) :
    Ensures (fun _ => False) (fun r =>
      (r.1 = none → ∃ s, SameObjects o.toHandles s ∧ r.2 = { o with toHandles := s }) ∧
      ∀ handle, r.1 = some handle → ObjectAdded handle o r.2) (handleOpenModule size o) := by
  unfold handleOpenModule
  have hassert : assert (size > 0) Assertion.moduleSize = .ok () :=
    assert_eq_ok.mpr (decide_eq_true hsize)
  rw [hassert, ok_bind]
  refine (kalloc_spec (by decide) h.counted).bind ?_
  rintro ⟨_ | block, heap⟩ hstep
  · exact ⟨fun _ => ⟨_, ⟨rfl, hstep⟩, rfl⟩, fun handle he => (by cases he)⟩
  refine ⟨fun he => (by cases he), fun handle he => ?_⟩
  cases he
  obtain ⟨hipcs, hfresh⟩ := h.fresh o.created le_rfl
  obtain ⟨hzero, hnotin⟩ := hfresh (.module o.created) (Or.inr rfl)
  have hcount : o.refCount (.module o.created) = 0 := by
    rw [h.count, hzero]
    rfl
  refine ⟨hcount, ?_, fun g => ?_, h.sized, hstep.counted, fun m => ?_, fun m => ?_, rfl,
    Nat.le_succ _, fun _ _ => rfl, fun m hm => ?_⟩
  · rw [← hcount]
    exact Function.update_eq_self ..
  · cases g with
    | irq m => exact iff_of_true trivial (Or.inl trivial)
    | ipc m => exact (or_iff_left (by simp)).symm
    | module m =>
      by_cases hm : m = o.created
      · simp [Handles.Live, hm]
      · simp [Handles.Live, hm]
  · exact (or_iff_left (by simp)).symm
  · by_cases hm : m = o.created
    · simp [hm]
    · simp [hm, Ne.symm hm]
  · rcases hm with hm | hm
    · cases hm
    · cases hm
      exact ⟨Nat.lt_succ_self _, hnotin⟩

/-- The modules of the boot loader have a size that an `isize` holds. -/
def BootModule.Valid (m : BootModule) : Prop := 0 < m.size ∧ m.size ≤ 2 ^ 63 - 1

lemma bootloaderOpenModule_spec (h : ObjectsOk total o) {modules : List BootModule}
    (hmodules : ∀ m ∈ modules, m.Valid) (path : List (BitVec 8)) :
    Ensures (fun _ => False) (fun r =>
      (r.1 = none → ∃ s, SameObjects o.toHandles s ∧ r.2 = { o with toHandles := s }) ∧
      ∀ handle, r.1 = some handle → ObjectAdded handle o r.2)
      (bootloaderOpenModule modules path o) := by
  unfold bootloaderOpenModule
  cases hfind : modules.find? fun m => m.path = path with
  | none => exact ⟨fun _ => ⟨o.toHandles, .refl h.counted, rfl⟩, fun handle he => (by cases he)⟩
  | some m =>
    obtain ⟨hpos, hle⟩ := hmodules m (List.mem_of_find?_eq_some hfind)
    dsimp only
    rw [if_neg (by omega)]
    exact handleOpenModule_spec h hpos

lemma ipcTransfers_channels {transfers : List ℕ} :
    ∀ {maxChannel : ℕ} {transferMap : List ℕ} {r : List ℕ × ℕ}, maxChannel ≤ transferMax →
      ipcTransfers transfers maxChannel transferMap = .ok r → r.2 ≤ transferMax := by
  induction transfers with
  | nil =>
    intro maxChannel transferMap r hmax hr
    cases hr
    exact hmax
  | cons channel transfers ih =>
    intro maxChannel transferMap r hmax hr
    rw [ipcTransfers] at hr
    split_ifs at hr with hzero hgt hlarger
    · exact ih hmax hr
    · exact ih (not_lt.mp hgt) hr
    · exact ih hmax hr

lemma ipcCreateObject_spec (h : ObjectsOk total o) (transfers : List ℕ) :
    Ensures (fun _ => False) (fun r =>
      (∀ e, r.1 = .error e → ∃ s, SameObjects o.toHandles s ∧ r.2 = { o with toHandles := s }) ∧
      ∀ handle, r.1 = .ok handle → ObjectAdded handle o r.2) (ipcCreateObject transfers o) := by
  unfold ipcCreateObject
  cases htransfers : ipcTransfers transfers 0 [] with
  | error e =>
    exact ⟨fun _ _ => ⟨o.toHandles, .refl h.counted, rfl⟩, fun handle he => (by cases he)⟩
  | ok r =>
    obtain ⟨transferMap, maxChannel⟩ := r
    have hmax : maxChannel ≤ 5 := ipcTransfers_channels (Nat.zero_le _) htransfers
    have hsize : 56 + maxChannel * 24 ≤ allocMax := by
      simp only [allocMax, pageSize]
      omega
    refine (kalloc_spec hsize h.counted).bind ?_
    rintro ⟨_ | block, heap⟩ hstep
    · exact ⟨fun _ _ => ⟨_, ⟨rfl, hstep⟩, rfl⟩, fun handle he => (by cases he)⟩
    refine ⟨fun e he => (by cases he), fun handle he => ?_⟩
    cases he
    obtain ⟨hipcs, hfresh⟩ := h.fresh o.created le_rfl
    obtain ⟨hzero, hnotin⟩ := hfresh (.ipc o.created) (Or.inl rfl)
    have hcount : o.refCount (.ipc o.created) = 0 := by
      rw [h.count, hzero]
      rfl
    refine ⟨hcount, ?_, fun g => ?_, fun n ipc hipc => ?_, hstep.counted, fun m => ?_, fun m => ?_,
      rfl, Nat.le_succ _, fun n hn => ?_, fun m hm => ?_⟩
    · rw [← hcount]
      exact Function.update_eq_self ..
    · cases g with
      | irq m => exact iff_of_true trivial (Or.inl trivial)
      | ipc m =>
        by_cases hm : m = o.created
        · simp [Handles.Live, hm]
        · simp [Handles.Live, hm]
      | module m => exact (or_iff_left (by simp)).symm
    · by_cases hn : n = o.created
      · subst hn
        simp only [Function.update_self, Option.some.injEq] at hipc
        rw [← hipc]
        exact hmax
      · exact h.sized n ipc (by simpa [hn] using hipc)
    · exact (or_iff_left (by simp)).symm
    · exact (or_iff_left (by simp)).symm
    · have hne : n ≠ o.created := by
        have : o.created + 1 ≤ n := hn
        omega
      exact Function.update_of_ne hne ..
    · rcases hm with hm | hm
      · cases hm
        exact ⟨Nat.lt_succ_self _, hnotin⟩
      · cases hm

end

/-! ### System calls -/

/-- How many descriptors refer to an object: those of the process, and `other` ones -/
def CallState.refs (c : CallState) (other : HandleId → ℕ) (h : HandleId) : ℕ :=
  c.table.uses h + other h

/-- The objects agree with all descriptors. -/
def CallState.Settled (c : CallState) (other : HandleId → ℕ) : Prop :=
  ObjectsOk (c.refs other) c.objects

/-- What a system call does to the objects -/
structure Settles (other : HandleId → ℕ) (c c' : CallState) : Prop where
  settled : c'.Settled other
  closed : ClosedLast (c.refs other) (c'.refs other) c.objects.toHandles c'.objects.toHandles

section

variable {other : HandleId → ℕ} {c c' : CallState} {t : DescriptorTable} {s s' : Handles}

lemma CallState.Settled.refsOk (h : c.Settled other) : RefsOk c.table other c.objects.toHandles :=
  ObjectsOk.refs h fun _ => rfl

/-- A process without descriptors, when there is no object -/
lemma CallState.settled_none (ctx : Registers) {heap : Heap} (hc : heap.pmm.Counted) :
    (CallState.mk ctx .empty (Objects.none heap)).Settled fun _ => 0 := by
  refine ObjectsOk.congr (ObjectsOk.none hc) fun g => ?_
  rw [CallState.refs, DescriptorTable.uses_empty]

lemma CallState.Settled.refl (h : c.Settled other) : Settles other c c :=
  ⟨h, .refl rfl fun _ hg => hg⟩

lemma CallState.refs_put (hread : t.read = c.table.read) (s : Handles) :
    (c.put t s).refs other = c.refs other := by
  funext g
  rw [CallState.refs, CallState.refs, CallState.put_table, DescriptorTable.uses_congr hread]

/-- A sub-table may be new. -/
lemma CallState.Settled.put (h : c.Settled other) (hread : t.read = c.table.read)
    (hs : SameObjects c.objects.toHandles s) : (c.put t s).Settled other := by
  rw [CallState.Settled, CallState.refs_put hread]
  exact ObjectsOk.same h hs

lemma SameObjects.closes (h : SameObjects s s') : s'.closes = s.closes := by
  rw [h.eq]

lemma CallState.Settled.same (h : c.Settled other) (hread : t.read = c.table.read)
    (hs : SameObjects c.objects.toHandles s) : Settles other c (c.put t s) := by
  refine ⟨h.put hread hs, .refl hs.closes fun g hg => ?_⟩
  rw [CallState.refs_put hread]
  exact hg

lemma CallState.Settled.setSame {o : Objects} (h : c.Settled other)
    (ho : ∃ s, SameObjects c.objects.toHandles s ∧ o = { c.objects with toHandles := s }) :
    Settles other c (c.setObjects o) := by
  obtain ⟨s, hs, rfl⟩ := ho
  exact h.same (t := c.table) rfl hs

/-- References have gone, after a sub-table has been made. -/
lemma CallState.Settled.dropped (h : c.Settled other) (hs : SameObjects c.objects.toHandles s)
    (hs' : Dropped s s') (hrefs : RefsOk t other s') : Settles other c (c.put t s') := by
  have hsame := ObjectsOk.same h hs
  have hcount : ∀ g, s'.refCount g = ((c.put t s').refs other g : ℕ) := by
    intro g
    rw [hrefs.count, CallState.refs, CallState.put_table]
    push_cast
    rfl
  obtain ⟨hok, hclosed⟩ := hsame.dropped hs' hrefs.sized hrefs.live hcount
  refine ⟨hok, ?_⟩
  rw [ClosedLast, Objects.eta, hs.closes] at hclosed
  exact hclosed

lemma CallState.assign_refs (hrefs : RefsOk c.table other c.objects.toHandles) {slot : Slot}
    (hhas : c.table.Has slot) (hread : c.table.read slot = none) {handle : HandleId}
    (hlive : c.objects.Live handle) (cloexec : Bool) (fd : ℕ) :
    ∃ c', c.assign slot handle cloexec fd = .ok (.ok fd, c') ∧
      c'.objects = { c.objects with toHandles := c.objects.dup handle } ∧
      ∀ g, c'.refs other g = c.refs other g + if g = handle then 1 else 0 := by
  obtain ⟨s', hassign, rfl, -, -⟩ :=
    DescriptorTable.assign_spec hrefs hhas hread handle cloexec hlive
  refine ⟨c.put (c.table.write slot (some ⟨handle, cloexec⟩)) (c.objects.dup handle), ?_, rfl,
    fun g => ?_⟩
  · rw [CallState.assign, hassign]
    rfl
  · have huses := DescriptorTable.uses_write hhas (some ⟨handle, cloexec⟩) g
    rw [hread] at huses
    simp only [Descriptor.refersTo_none, Bool.false_eq_true, if_false, Descriptor.refersTo_some,
      decide_eq_true_eq, add_zero] at huses
    rw [CallState.refs, CallState.put_table, huses, CallState.refs, if_congr (eq_comm) rfl rfl]
    omega

/-- A descriptor for an object that is in use -/
lemma Settles.assign (h : Settles other c c') {slot : Slot} (hhas : c'.table.Has slot)
    (hread : c'.table.read slot = none) {handle : HandleId} (hpos : 0 < c'.refs other handle)
    (cloexec : Bool) (fd : ℕ) :
    Ensures (fun _ => False) (fun r => Settles other c r.2) (c'.assign slot handle cloexec fd) := by
  obtain ⟨c'', hassign, hobjects, hrefs⟩ := CallState.assign_refs h.settled.refsOk hhas hread
    (ObjectsOk.live h.settled handle hpos) cloexec fd
  rw [hassign]
  have hcounted := ObjectsOk.counted h.settled
  have hmore := MoreRefs.dup c'.objects.toHandles hcounted handle
  have hpos' : ∀ g, 0 < (if g = handle then 1 else 0) → 0 < c'.refs other g := by
    intro g hg
    split_ifs at hg with heq
    · rw [heq]
      exact hpos
    · exact absurd hg (lt_irrefl 0)
  refine ⟨?_, ?_⟩
  · change ObjectsOk (c''.refs other) c''.objects
    rw [hobjects]
    exact ObjectsOk.more h.settled hmore hpos' hrefs
  · obtain ⟨closed, hcloses, hnodup, hmem⟩ := h.closed
    refine ⟨closed, ?_, hnodup, fun g => ?_⟩
    · change c''.objects.closes = _
      rw [hobjects]
      exact hcloses
    · have := hpos' g
      rw [hmem, hrefs]
      omega

/-- A descriptor for an object that has come into use -/
lemma CallState.Settled.assign {o : Objects} (h : c.Settled other) {handle : HandleId}
    (hadded : ObjectAdded handle c.objects o) {slot : Slot} (hhas : c.table.Has slot)
    (hread : c.table.read slot = none) (cloexec : Bool) (fd : ℕ) :
    Ensures (fun _ => False) (fun r => r.1 = .ok fd ∧ Settles other c r.2)
      ((c.setObjects o).assign slot handle cloexec fd) := by
  have hrefs := h.refsOk
  have hrefs' : RefsOk c.table other o.toHandles := by
    refine ⟨fun g => ?_, fun g hg => ?_, hadded.sized⟩
    · rw [hadded.refCount]
      exact hrefs.count g
    · rw [hadded.refCount] at hg
      exact (hadded.live g).mpr (Or.inl (hrefs.live g hg))
  obtain ⟨c', hassign, hobjects, hcount⟩ := CallState.assign_refs (c := c.setObjects o) hrefs' hhas
    hread ((hadded.live handle).mpr (Or.inr rfl)) cloexec fd
  rw [hassign]
  refine ⟨rfl, ?_, ?_⟩
  · change ObjectsOk (c'.refs other) c'.objects
    rw [hobjects]
    exact ObjectsOk.added h hadded hcount
  · refine .refl ?_ fun g hg => ?_
    · change c'.objects.closes = _
      rw [hobjects]
      exact hadded.closes
    · have hold : (c.setObjects o).refs other g = c.refs other g := rfl
      rw [hcount, hold]
      omega

/-- What `alloc` returns is free. -/
structure SlotFound (other : HandleId → ℕ) (c : CallState)
    (r : Result (ℕ × Slot) × CallState) : Prop where
  settles : Settles other c r.2
  read : r.2.table.read = c.table.read
  closes : r.2.objects.closes = c.objects.closes
  done : ∀ fd slot, r.1 = .ok (fd, slot) → r.2.table.Has slot ∧ r.2.table.read slot = none

lemma CallState.Settled.alloc (h : c.Settled other) :
    Ensures (fun _ => False) (SlotFound other c) c.alloc := by
  refine (c.table.alloc_spec (ObjectsOk.counted h)).bind ?_
  rintro ⟨r, table, s⟩ hallocated
  refine ⟨h.same hallocated.read hallocated.same, hallocated.read, hallocated.same.closes,
    fun fd slot hr => ?_⟩
  obtain ⟨-, hfree, hhas, -⟩ := hallocated.done fd slot hr
  refine ⟨hhas, ?_⟩
  rw [← hfree]
  exact congrFun hallocated.read slot

/-- What follows an `alloc` -/
lemma SlotFound.trans {r : Result (ℕ × Slot) × CallState} (h : SlotFound other c r)
    (h' : Settles other r.2 c') : Settles other c c' := by
  refine ⟨h'.settled, ?_⟩
  have hrefs : r.2.refs other = c.refs other := by
    funext g
    rw [CallState.refs, CallState.refs, DescriptorTable.uses_congr h.read]
  have hclosed := h'.closed
  rw [ClosedLast, hrefs, h.closes] at hclosed
  exact hclosed

lemma doSyscallOpenModule_settles (h : c.Settled other) {modules : List BootModule}
    (hmodules : ∀ m ∈ modules, m.Valid) (memory : ℕ → Option (BitVec 8)) :
    Ensures (fun _ => False) (fun r => Settles other c r.2)
      (doSyscallOpenModule modules memory c) := by
  rw [doSyscallOpenModule]
  refine h.alloc.bind ?_
  rintro ⟨_ | ⟨fd, slot⟩, c'⟩ hfound
  · exact hfound.settles
  obtain ⟨hhas, hread⟩ := hfound.done fd slot rfl
  dsimp only
  split_ifs with hlen
  · exact hfound.settles
  cases copyFromUser memory c'.ctx.a0 c'.ctx.a1 with
  | error e => exact hfound.settles
  | ok path =>
    refine (bootloaderOpenModule_spec hfound.settles.settled hmodules path).bind ?_
    rintro ⟨_ | handle, objects⟩ ⟨hnone, hsome⟩
    · exact hfound.trans (hfound.settles.settled.setSame (hnone rfl))
    · refine (hfound.settles.settled.assign (hsome handle rfl) hhas hread false fd).imp ?_
      exact fun r hr => hfound.trans hr.2

lemma doSyscallClaimIrq_settles (h : c.Settled other) :
    Ensures (fun _ => False) (fun r => Settles other c r.2) (doSyscallClaimIrq c) := by
  rw [doSyscallClaimIrq]
  refine h.alloc.bind ?_
  rintro ⟨_ | ⟨fd, slot⟩, c'⟩ hfound
  · exact hfound.settles
  obtain ⟨hhas, hread⟩ := hfound.done fd slot rfl
  have hsame := c'.objects.toHandles.irqClaim_kept (toInt c'.ctx.a0)
  dsimp only
  cases hclaim : c'.objects.toHandles.irqClaim (toInt c'.ctx.a0) with
  | mk r s =>
    cases r with
    | error e =>
      rw [hclaim] at hsame
      obtain rfl := hsame e rfl
      exact hfound.settles
    | ok handle =>
      have hadded := ObjectsOk.irqClaim hfound.settles.settled hclaim
      refine (hfound.settles.settled.assign hadded hhas hread true fd).imp ?_
      exact fun r hr => hfound.trans hr.2

lemma doSyscallIpcCreate_settles (h : c.Settled other) (memory : ℕ → Option (BitVec 8)) :
    Ensures (fun _ => False) (fun r => Settles other c r.2) (doSyscallIpcCreate memory c) := by
  rw [doSyscallIpcCreate]
  dsimp only
  split_ifs with hlen
  · exact h.refl
  cases copyFromUser memory c.ctx.a0 c.ctx.a1 with
  | error e => exact h.refl
  | ok bytes =>
    refine h.alloc.bind ?_
    rintro ⟨_ | ⟨fd, slot⟩, c'⟩ hfound
    · exact hfound.settles
    obtain ⟨hhas, hread⟩ := hfound.done fd slot rfl
    refine (ipcCreateObject_spec hfound.settles.settled (transfersOf bytes)).bind ?_
    rintro ⟨e | handle, objects⟩ ⟨herror, hok⟩
    · exact hfound.trans (hfound.settles.settled.setSame (herror e rfl))
    · refine (hfound.settles.settled.assign (hok handle rfl) hhas hread false fd).bind ?_
      rintro ⟨r, c''⟩ ⟨-, hsettles⟩
      exact hfound.trans ⟨hsettles.settled, hsettles.closed⟩

lemma doSyscallClose_settles (h : c.Settled other) :
    Ensures (fun _ => False) (fun r => Settles other c r.2) (doSyscallClose c) := by
  rw [doSyscallClose]
  refine (DescriptorTable.close_dropped h.refsOk _).bind ?_
  rintro ⟨r, table, s⟩ ⟨hdropped, hrefs⟩
  exact h.dropped (.refl (ObjectsOk.counted h)) hdropped hrefs

lemma doSyscallExecFlush_settles (h : c.Settled other) :
    Ensures (fun _ => False) (fun r => Settles other c r.2) (doSyscallExecFlush c) := by
  rw [doSyscallExecFlush]
  refine (DescriptorTable.cloexec_dropped h.refsOk).bind ?_
  rintro ⟨table, s⟩ ⟨hdropped, hrefs⟩
  have hsettles := h.dropped (.refl (ObjectsOk.counted h)) hdropped hrefs
  exact ⟨hsettles.settled, hsettles.closed⟩

/-- The descriptor that `dup` is going to fill is closed. No other one has changed. -/
structure TargetReady (other : HandleId → ℕ) (c : CallState) (newfd : ℤ)
    (r : Result (ℕ × Slot) × CallState) : Prop where
  settles : Settles other c r.2
  done : ∀ fd slot, r.1 = .ok (fd, slot) → r.2.table.Has slot ∧ r.2.table.read slot = none ∧
    (slotOf newfd = some slot ∨ c.table.read slot = none) ∧
    ∀ slot' ≠ slot, r.2.table.read slot' = c.table.read slot'

lemma CallState.Settled.dupTarget (h : c.Settled other) (newfd : ℤ) :
    Ensures (fun _ => False) (TargetReady other c newfd) (c.dupTarget newfd) := by
  have hcounted := ObjectsOk.counted h
  rw [CallState.dupTarget]
  split_ifs with hnew
  · refine ((DescriptorTable.allocOverwrite_spec h.refsOk hcounted).and
      (DescriptorTable.allocOverwrite_dropped h.refsOk hcounted newfd)).bind ?_
    rintro ⟨r, table, s⟩ ⟨hcleared, s₁, hsame, hdropped, hrefs⟩
    refine ⟨h.dropped hsame hdropped hrefs, fun fd slot hr => ?_⟩
    cases r with
    | error e => cases hr
    | ok slot' =>
      cases hr
      obtain ⟨hslot, hhas, s₂, -, hremoved⟩ := hcleared.done slot rfl
      refine ⟨hhas, ?_, Or.inl hslot, fun slot' hne => ?_⟩
      · rw [CallState.put_table, hremoved.read, Function.update_self]
      · rw [CallState.put_table, hremoved.read, Function.update_of_ne hne]
  · refine h.alloc.imp fun r hfound => ⟨hfound.settles, fun fd slot hr => ?_⟩
    obtain ⟨hhas, hread⟩ := hfound.done fd slot hr
    refine ⟨hhas, hread, Or.inr ?_, fun slot' _ => congrFun hfound.read slot'⟩
    rw [← hread]
    exact (congrFun hfound.read slot).symm

/-- The descriptor that is copied stays open while another one is closed, so that its object is
in use. -/
lemma doSyscallDup_settles (h : c.Settled other) :
    Ensures (fun _ => False) (fun r => Settles other c r.2) (doSyscallDup c) := by
  rw [doSyscallDup]
  split_ifs with hsame
  · exact h.refl
  have hget := c.table.get_eq (toInt c.ctx.a0)
  cases hslot : slotOf (toInt c.ctx.a0) with
  | none =>
    rw [hslot] at hget
    rw [hget]
    exact h.refl
  | some olddesc =>
    rw [hslot] at hget
    dsimp only at hget
    cases hread : c.table.read olddesc with
    | none =>
      rw [hread] at hget
      rw [hget]
      exact h.refl
    | some tagged =>
      rw [hread] at hget
      rw [hget]
      refine (h.dupTarget (toInt c.ctx.a1)).bind ?_
      rintro ⟨e | ⟨fd, slot⟩, c'⟩ htarget
      · exact htarget.settles
      obtain ⟨hhas, hfree, hplace, hkeep⟩ := htarget.done fd slot rfl
      have hne : olddesc ≠ slot := by
        rintro rfl
        rcases hplace with hplace | hplace
        · exact hsame ((slotOf_eq_some.mp hslot).symm.trans (slotOf_eq_some.mp hplace))
        · rw [hread] at hplace
          cases hplace
      have hold : c'.table.read olddesc = some tagged := by
        rw [← hread]
        exact hkeep olddesc hne
      have hpos : 0 < c'.refs other tagged.handle := by
        have huses : 0 < c'.table.uses tagged.handle := by
          rw [DescriptorTable.uses, List.countP_pos_iff]
          exact ⟨olddesc, mem_descriptorSlots olddesc, by simp [hold]⟩
        rw [CallState.refs]
        omega
      simp only [hold]
      exact htarget.settles.assign hhas hfree hpos _ fd

/-- A system call that adds or changes descriptors keeps the objects in agreement with them. -/
lemma DescriptorCall.run_settles (h : c.Settled other) {modules : List BootModule}
    (hmodules : ∀ m ∈ modules, m.Valid) (memory : ℕ → Option (BitVec 8)) (call : DescriptorCall) :
    Ensures (fun _ => False) (fun r => Settles other c r.2) (call.run modules memory c) := by
  cases call with
  | openModule => exact doSyscallOpenModule_settles h hmodules memory
  | claimIrq => exact doSyscallClaimIrq_settles h
  | ipcCreate => exact doSyscallIpcCreate_settles h memory
  | dup => exact doSyscallDup_settles h
  | close => exact doSyscallClose_settles h

end

end Fluke
