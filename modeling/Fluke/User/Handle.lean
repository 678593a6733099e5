import Fluke.Mem.Alloc

/-!
# Handles

The kernel objects that descriptors refer to: interrupts, IPC objects and boot modules. An
object lives as long as descriptors refer to it; the last reference that goes closes it.

An object is known by its kind and a number; its block stands in the record. The threads that a
close wakes up belong to the scheduler and are not part of this state.
-/

namespace Fluke

open Outcome

/-- `Handle*` -/
inductive HandleId where
  | irq (n : Fin 16)
  | ipc (n : ℕ)
  | module (n : ℕ)
  deriving DecidableEq

/-- `IPCimpl`, as far as its life time goes -/
structure IpcObject where
  block : Block
  channelCount : ℕ
  closedCall : Bool
  closedListen : Bool

/-- The objects, with the heap they come from. `modules` and `ipcs` hold the objects that are
live; `closes` lists the calls of `Handle::close`, the latest first. -/
structure Handles where
  heap : Heap
  refCount : HandleId → ℤ
  isClaimed : Fin 16 → Bool
  ipcs : ℕ → Option IpcObject
  modules : ℕ → Option Block
  closes : List HandleId

/-- `sizeof(Module)` -/
def moduleSize : ℕ := 40

/-- `IPCimpl::size` -/
def IpcObject.size (ipc : IpcObject) : ℕ := 56 + ipc.channelCount * 24

/-- `IRQ_handle::close`, `IPC_handle::close` and `Module::close` -/
def Handles.closeObject (s : Handles) : HandleId → Except Panic Handles
  | .irq n => .ok { s with isClaimed := Function.update s.isClaimed n false }
  | .ipc n =>
    match s.ipcs n with
    | none => .error .invalidPointer
    | some ipc =>
      if ipc.closedListen then do
        let heap ← kfree ipc.block ipc.size s.heap
        .ok { s with heap := heap, ipcs := Function.update s.ipcs n none }
      else
        .ok { s with ipcs := Function.update s.ipcs n (some { ipc with closedCall := true }) }
  | .module n =>
    match s.modules n with
    | none => .error .invalidPointer
    | some block => do
      let heap ← kfree block moduleSize s.heap
      .ok { s with heap := heap, modules := Function.update s.modules n none }

/-- `Handle::close` -/
def Handles.close (s : Handles) (h : HandleId) : Except Panic Handles :=
  { s with closes := h :: s.closes }.closeObject h

/-- Set `ref_count_`. -/
def Handles.setRefCount (s : Handles) (h : HandleId) (count : ℤ) : Handles :=
  { s with refCount := Function.update s.refCount h count }

/-- `Handle::dup` -/
def Handles.dup (s : Handles) (h : HandleId) : Handles := s.setRefCount h (s.refCount h + 1)

/-- `Handle::release` -/
def Handles.release (s : Handles) (h : HandleId) : Except Panic Handles := do
  assert (s.refCount h > 0) .refCountPositive
  let s := s.setRefCount h (s.refCount h - 1)
  if s.refCount h = 0 then s.close h else .ok s

/-- The object is there. -/
def Handles.Live (s : Handles) : HandleId → Prop
  | .irq _ => True
  | .ipc n => (s.ipcs n).isSome
  | .module n => (s.modules n).isSome

/-- What closing an object changes: this object and the heap. -/
structure Closed (h : HandleId) (s s' : Handles) : Prop where
  refCount : s'.refCount = s.refCount
  closes : s'.closes = h :: s.closes
  live : ∀ h' ≠ h, s'.Live h' ↔ s.Live h'
  claimed : ∀ n, s'.isClaimed n = if h = .irq n then false else s.isClaimed n
  pmm : s'.heap.pmm = s.heap.pmm

/-- Every object is of a size that the heap serves. -/
def Handles.Sized (s : Handles) : Prop := ∀ n ipc, s.ipcs n = some ipc → ipc.channelCount ≤ 5

lemma Handles.close_spec {s : Handles} {h : HandleId} (hlive : s.Live h) (hsized : s.Sized) :
    Ensures (fun _ => False) (fun s' => Closed h s s' ∧ s'.Sized) (s.close h) := by
  cases h with
  | irq n =>
    refine ⟨⟨rfl, rfl, fun h' _ => by cases h' <;> rfl, fun m => ?_, rfl⟩, hsized⟩
    by_cases hm : m = n
    · subst hm
      simp
    · simp [hm, Ne.symm hm]
  | ipc n =>
    obtain ⟨ipc, hipc⟩ := Option.isSome_iff_exists.mp hlive
    have hne : ∀ {h' : HandleId}, h' ≠ .ipc n → ∀ x heap,
        ({ s with heap := heap, ipcs := Function.update s.ipcs n x }.Live h' ↔ s.Live h') := by
      intro h' hne x heap
      cases h' with
      | irq m => exact Iff.rfl
      | ipc m =>
        have hm : m ≠ n := fun heq => hne (heq ▸ rfl)
        simp [Handles.Live, hm]
      | module m => exact Iff.rfl
    unfold Handles.close Handles.closeObject
    dsimp only
    rw [hipc]
    dsimp only
    have hsize : ipc.size ≤ allocMax := by
      have := hsized n ipc hipc
      unfold IpcObject.size
      simp only [allocMax, pageSize]
      omega
    split_ifs with hclosed
    · refine (kfree_spec hsize ipc.block s.heap).bind fun heap hpmm => ?_
      refine ⟨⟨rfl, rfl, fun h' h => hne h none heap, fun m => (by simp), hpmm⟩, fun m o ho => ?_⟩
      by_cases hm : m = n
      · subst hm
        simp at ho
      · exact hsized m o (by simpa [hm] using ho)
    · refine ⟨⟨rfl, rfl, fun h' h => hne h _ s.heap, fun m => (by simp), rfl⟩, fun m o ho => ?_⟩
      by_cases hm : m = n
      · subst hm
        simp only [Function.update_self, Option.some.injEq] at ho
        subst ho
        exact hsized m ipc hipc
      · exact hsized m o (by simpa [hm] using ho)
  | module n =>
    obtain ⟨block, hblock⟩ := Option.isSome_iff_exists.mp hlive
    unfold Handles.close Handles.closeObject
    dsimp only
    rw [hblock]
    refine (kfree_spec (by decide) block s.heap).bind fun heap hpmm => ?_
    refine ⟨⟨rfl, rfl, fun h' h => ?_, fun m => (by simp), hpmm⟩, hsized⟩
    cases h' with
    | irq m => exact Iff.rfl
    | ipc m => exact Iff.rfl
    | module m =>
      have hm : m ≠ n := fun heq => h (heq ▸ rfl)
      simp [Handles.Live, hm]

end Fluke
