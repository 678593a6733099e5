import Fluke.User.Handle

/-!
# Descriptors

A process names the objects it uses by small numbers. The first eight descriptors stand in the
table itself; the others stand in four sub-tables that are allocated when they are needed.

A descriptor holds the pointer to its object, with the close-on-exec flag in the lowest bit. As
objects are aligned, a descriptor is a pair here.
-/

namespace Fluke

open Outcome

/-- `_handle` of an open descriptor: the object and the flag in the pointer's lowest bit -/
structure TaggedHandle where
  handle : HandleId
  cloexec : Bool
  deriving DecidableEq

/-- `struct Descriptor`; nothing is the null pointer. -/
abbrev Descriptor := Option TaggedHandle

/-- `is_open` -/
def Descriptor.isOpen (desc : Descriptor) : Bool := desc.isSome

/-- `is_cloexec` -/
def Descriptor.isCloexec (desc : Descriptor) : Bool :=
  match desc with
  | some tagged => tagged.cloexec
  | none => false

/-- `Descriptor::assign`, with what the descriptor holds afterwards -/
def Descriptor.assign (desc : Descriptor) (h : HandleId) (cloexec : Bool) (s : Handles) :
    Except Panic (Descriptor × Handles) := do
  assert (!desc.isOpen) .descriptorUnused
  assert (s.refCount h ≥ 0) .refCountNonneg
  .ok (some ⟨h, cloexec⟩, s.dup h)

/-- `Descriptor::close` -/
def Descriptor.close (desc : Descriptor) (s : Handles) : Except Panic (Descriptor × Handles) :=
  match desc with
  | none => .error (.assertion .descriptorOpen)
  | some tagged => do
    let s ← s.release tagged.handle
    .ok (none, s)

/-- `std::array<Descriptor, N>` -/
abbrev DescriptorArray (N : ℕ) := Fin N → Descriptor

/-- `owned<table_l1l0>`, of a table that is there -/
structure SubTable where
  block : Block
  entries : DescriptorArray 16

/-- `struct Descriptor_table` -/
structure DescriptorTable where
  l0 : DescriptorArray 8
  l1 : Fin 4 → Option SubTable

/-- `Descriptor_table{}` -/
def DescriptorTable.empty : DescriptorTable := ⟨fun _ => none, fun _ => none⟩

/-- `Descriptor*`, into a table -/
inductive Slot where
  | direct (i : Fin 8)
  | indirect (i : Fin 4) (j : Fin 16)
  deriving DecidableEq

/-- The descriptor in a slot; a sub-table that is not there has none. -/
def DescriptorTable.read (t : DescriptorTable) : Slot → Descriptor
  | .direct i => t.l0 i
  | .indirect i j =>
    match t.l1 i with
    | none => none
    | some sub => sub.entries j

lemma DescriptorTable.read_indirect (t : DescriptorTable) (i : Fin 4) (j : Fin 16) :
    t.read (.indirect i j) =
      ((t.l1 i).map SubTable.entries).elim none fun entries => entries j := by
  cases h : t.l1 i <;> simp [DescriptorTable.read, h]

/-- Replace a sub-table. -/
def DescriptorTable.setSub (t : DescriptorTable) (i : Fin 4) (sub : Option SubTable) :
    DescriptorTable :=
  { t with l1 := Function.update t.l1 i sub }

@[simp] lemma DescriptorTable.setSub_self (t : DescriptorTable) (i : Fin 4)
    (sub : Option SubTable) : (t.setSub i sub).l1 i = sub := by
  simp [DescriptorTable.setSub]

lemma DescriptorTable.setSub_of_ne (t : DescriptorTable) {i j : Fin 4} (sub : Option SubTable)
    (h : j ≠ i) : (t.setSub i sub).l1 j = t.l1 j := by
  simp [DescriptorTable.setSub, h]

/-- Store to a slot. -/
def DescriptorTable.write (t : DescriptorTable) (slot : Slot) (desc : Descriptor) :
    DescriptorTable :=
  match slot with
  | .direct i => { t with l0 := Function.update t.l0 i desc }
  | .indirect i j =>
    match t.l1 i with
    | none => t
    | some sub => t.setSub i (some { sub with entries := Function.update sub.entries j desc })

/-- `sizeof(table_l1l0)` -/
def subTableSize : ℕ := 128

/-- `owned<table_l1l0>::make` -/
def makeSubTable (s : Handles) : Except Panic (Option SubTable × Handles) := do
  let (block, heap) ← kalloc subTableSize s.heap
  .ok (block.map fun block => ⟨block, fun _ => none⟩, { s with heap := heap })

/-- The loop of `Descriptor_table::alloc` over the sub-tables, with the descriptor `n` first. -/
def DescriptorTable.allocIndirect (t : DescriptorTable) : List (Fin 4) → ℕ → Handles →
    Except Panic (Result (ℕ × Slot) × DescriptorTable × Handles)
  | [], _, s => .ok (.error .EMFILE, t, s)
  | i :: is, n, s =>
    match t.l1 i with
    | none => do
      match ← makeSubTable s with
      | (none, s) => .ok (.error .ENOMEM, t, s)
      | (some sub, s) => .ok (.ok (n, .indirect i 0), t.setSub i (some sub), s)
    | some sub =>
      match (List.finRange 16).find? fun j => !(sub.entries j).isOpen with
      | some j => .ok (.ok (n + j.val, .indirect i j), t, s)
      | none => t.allocIndirect is (n + 16) s

/-- `Descriptor_table::alloc`, with the number of the descriptor and its slot -/
def DescriptorTable.alloc (t : DescriptorTable) (s : Handles) :
    Except Panic (Result (ℕ × Slot) × DescriptorTable × Handles) :=
  match (List.finRange 8).find? fun i => !(t.l0 i).isOpen with
  | some i => .ok (.ok (i.val, .direct i), t, s)
  | none => t.allocIndirect (List.finRange 4) 8 s

/-- Close the descriptor in a slot if it is open. -/
def DescriptorTable.closeIfOpen (t : DescriptorTable) (slot : Slot) (s : Handles) :
    Except Panic (DescriptorTable × Handles) :=
  if (t.read slot).isOpen then do
    let (desc, s) ← (t.read slot).close s
    .ok (t.write slot desc, s)
  else .ok (t, s)

/-- `Descriptor_table::alloc_overwrite` -/
def DescriptorTable.allocOverwrite (t : DescriptorTable) (fd : ℤ) (s : Handles) :
    Except Panic (Result Slot × DescriptorTable × Handles) :=
  if fd < 0 then .ok (.error .EBADF, t, s)
  else if h : fd.toNat < 8 then do
    let slot := Slot.direct ⟨fd.toNat, h⟩
    let (t, s) ← t.closeIfOpen slot s
    .ok (.ok slot, t, s)
  else if h' : fd.toNat - 8 < 64 then
    let i : Fin 4 := ⟨(fd.toNat - 8) / 16, by omega⟩
    let slot := Slot.indirect i ⟨(fd.toNat - 8) % 16, by omega⟩
    match t.l1 i with
    | some _ => do
      let (t, s) ← t.closeIfOpen slot s
      .ok (.ok slot, t, s)
    | none => do
      match ← makeSubTable s with
      | (none, s) => .ok (.error .ENOMEM, t, s)
      | (some sub, s) =>
        let (t, s) ← (t.setSub i (some sub)).closeIfOpen slot s
        .ok (.ok slot, t, s)
  else .ok (.error .EBADF, t, s)

/-- `Descriptor_table::get` -/
def DescriptorTable.get (t : DescriptorTable) (fd : ℤ) : Result Slot :=
  if fd < 0 then .error .EBADF
  else if h : fd.toNat < 8 then
    let slot := Slot.direct ⟨fd.toNat, h⟩
    if !(t.read slot).isOpen then .error .EBADF else .ok slot
  else if h' : fd.toNat - 8 < 64 then
    let i : Fin 4 := ⟨(fd.toNat - 8) / 16, by omega⟩
    let slot := Slot.indirect i ⟨(fd.toNat - 8) % 16, by omega⟩
    match t.l1 i with
    | none => .error .EBADF
    | some _ => if !(t.read slot).isOpen then .error .EBADF else .ok slot
  else .error .EBADF

/-- `Descriptor_table::close` -/
def DescriptorTable.close (t : DescriptorTable) (fd : ℤ) (s : Handles) :
    Except Panic (Result Unit × DescriptorTable × Handles) :=
  match t.get fd with
  | .error e => .ok (.error e, t, s)
  | .ok slot => do
    let (desc, s) ← (t.read slot).close s
    .ok (.ok (), t.write slot desc, s)

/-- `clone` of a descriptor array -/
def cloneArray {N : ℕ} (source dest : DescriptorArray N) (s : Handles) :
    Except Panic (DescriptorArray N × Handles) :=
  forEach (fun i (r : DescriptorArray N × Handles) => do
    assert (!(r.1 i).isOpen) .descriptorUnused
    match source i with
    | none => .ok r
    | some tagged =>
      let (desc, s) ← (r.1 i).assign tagged.handle tagged.cloexec r.2
      .ok (Function.update r.1 i desc, s)) (List.finRange N) (dest, s)

/-- The loop of `Descriptor_table::clone` over the sub-tables. It returns the table also when it
stops with an error. -/
def DescriptorTable.cloneIndirect (source : DescriptorTable) : List (Fin 4) →
    DescriptorTable → Handles → Except Panic (Result Unit × DescriptorTable × Handles)
  | [], dest, s => .ok (.ok (), dest, s)
  | i :: is, dest, s => do
    assert (dest.l1 i).isNone .tableUnused
    match source.l1 i with
    | none => source.cloneIndirect is dest s
    | some sub =>
      match ← makeSubTable s with
      | (none, s) => .ok (.error .ENOMEM, dest, s)
      | (some new, s) =>
        let (entries, s) ← cloneArray sub.entries new.entries s
        source.cloneIndirect is (dest.setSub i (some { new with entries := entries })) s

/-- `Descriptor_table::clone` -/
def DescriptorTable.clone (source dest : DescriptorTable) (s : Handles) :
    Except Panic (Result Unit × DescriptorTable × Handles) := do
  let (l0, s) ← cloneArray source.l0 dest.l0 s
  source.cloneIndirect (List.finRange 4) { dest with l0 := l0 } s

/-- The slots of a table in the order of the loops over it -/
def descriptorSlots : List Slot :=
  (List.finRange 8).map .direct ++
    (List.finRange 4).flatMap fun i => (List.finRange 16).map (.indirect i)

/-- `Descriptor_table::cloexec`; a sub-table that is not there has no descriptor to close. -/
def DescriptorTable.cloexec (t : DescriptorTable) (s : Handles) :
    Except Panic (DescriptorTable × Handles) :=
  forEach (fun slot (r : DescriptorTable × Handles) =>
    if (r.1.read slot).isCloexec then do
      let (desc, s) ← (r.1.read slot).close r.2
      .ok (r.1.write slot desc, s)
    else .ok r) descriptorSlots (t, s)

end Fluke
