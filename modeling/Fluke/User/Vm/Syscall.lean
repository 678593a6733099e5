import Fluke.Mem.Memory
import Fluke.User.Vm

/-!
# `virtual_map` and `virtual_unmap`

The system calls check the registers and call the operations of the process's virtual memory.
-/

namespace Fluke

/-- `PROT_READ` -/
def protRead : BitVec 32 := 1 <<< 0
/-- `MAP_FIXED` -/
def mapFixed : Word := 1 <<< 0
/-- `MAP_FIXED_NOREPLACE` -/
def mapFixedNoreplace : Word := 1 <<< 1

/-- The length in a register, rounded up to pages -/
def roundedLength (register : Word) : ℤ := toIsize (roundUpP2 register.toNat pageSize)

/-- `virtual_map`, with the registers `A0` to `A3` -/
def virtualMap (vm : Vm) (a0 a1 a2 a3 : Word) (heap : Heap) : Except Panic (VmOut ℕ) :=
  let len := roundedLength a1
  let addr := a0.toNat
  match checkUserRange addr len with
  | .error e => .ok (.error e, vm.first, heap)
  | .ok () =>
    if a2 &&& ~~~((protExec ||| protRead ||| protWrite).setWidth 64) ≠ 0 then
      .ok (.error .EINVAL, vm.first, heap)
    else if a3 &&& ~~~(mapFixed ||| mapFixedNoreplace) ≠ 0 then
      .ok (.error .EINVAL, vm.first, heap)
    else if a3 &&& (mapFixed ||| mapFixedNoreplace) ≠ 0 then
      if !isPageAligned addr then .ok (.error .EINVAL, vm.first, heap)
      else if a3 &&& mapFixed ≠ 0 then do
        let (result, areas, heap) ← vm.allocFixedOverwrite addr len (a2.setWidth 32) heap
        .ok (result.map fun _ => addr, areas, heap)
      else do
        let (result, areas, heap) ← vm.allocFixedNoreplace addr len (a2.setWidth 32) heap
        .ok (result.map fun _ => addr, areas, heap)
    else vm.allocMovable (roundDownP2 addr pageSize) len (a2.setWidth 32) heap

/-- `virtual_unmap`, with the registers `A0` and `A1`. When it returns 0 the address space has
been reloaded. -/
def virtualUnmap (vm : Vm) (a0 a1 : Word) (heap : Heap) : Except Panic (VmOut Unit) :=
  let len := roundedLength a1
  let addr := a0.toNat
  if !isPageAligned addr then .ok (.error .EINVAL, vm.first, heap)
  else
    match checkUserRange addr len with
    | .error e => .ok (.error e, vm.first, heap)
    | .ok () => vm.free addr len heap

end Fluke
