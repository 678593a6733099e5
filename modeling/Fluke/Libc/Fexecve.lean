import Fluke.Libc.Memmove
import Fluke.Libc.Stdio
import Fluke.Libc.Strlen
import Fluke.Library.Outcome

/-!
# Executing a file

`fexecve` builds the stack that the new program starts with. The number of arguments and the
pointers to the arguments and to the environment are written from the bottom of the mapping on, the
strings from its top down; at the end the pointers are moved up to the strings. `__libc_start_main`
reads the stack again.

An error leaves `build_stack` through the jump buffer of the `stack_builder`. The builder is a local
variable of `fexecve`, apart from the rest of the memory; `build_stack` clears it after `_setjmp`
has filled its jump buffer.
-/

namespace Fluke.Libc

open ByteMemory Outcome

/-- `STACK_SIZE` -/
abbrev stackSize : ℕ := 80 * 1024

/-- `ARG_MAX` -/
abbrev argMax : ℕ := 32768

/-- `ENOEXEC` -/
abbrev ENOEXEC : ℕ := 11

/-- `E2BIG` -/
abbrev E2BIG : ℕ := 19

/-- `jmp_buf`: the return address of `_setjmp` and the registers it saves -/
structure JmpBuf where
  returnAddress : ℕ
  r12 : ℕ
  r13 : ℕ
  r14 : ℕ
  r15 : ℕ
  rbx : ℕ
  rbp : ℕ
  rsp : ℕ
  deriving DecidableEq

/-- `struct stack_builder` -/
structure StackBuilder where
  base : ℕ
  top : ℕ
  argNext : ℕ
  dataArea : ℕ
  onError : JmpBuf

/-- What `memset` makes of a builder -/
def StackBuilder.cleared : StackBuilder := ⟨0, 0, 0, 0, ⟨0, 0, 0, 0, 0, 0, 0, 0⟩⟩

/-- The process that builds a stack. `mapped` lists what it has mapped, with the sizes. -/
structure Builder where
  memory : ByteMemory
  errno : ℕ
  mapped : List (ℕ × ℕ)
  s : StackBuilder

/-- How a function ends that does not return. -/
inductive Leave where
  /-- `_longjmp` through this buffer -/
  | jumps (buf : JmpBuf) (b : Builder)
  /-- A read outside of the address space -/
  | fault

/-- `mmap` of an anonymous range, where `virtualMap` is what the system call returns -/
def mmap (virtualMap : ℕ → ℕ → ℤ) (hint len : ℕ) (b : Builder) : Option ℕ × Builder :=
  let p := virtualMap hint len
  if p ≥ 0 then
    (some p.toNat, { b with
      memory := b.memory.writeBytes p.toNat (List.replicate len 0)
      mapped := (p.toNat, len) :: b.mapped })
  else (none, { b with errno := (-p).toNat })

/-- `munmap` of a range that is mapped -/
def munmap (addr len : ℕ) (b : Builder) : Builder :=
  { b with mapped := b.mapped.erase (addr, len) }

/-- The hint of `create_stack`, from the time-stamp counter -/
def stackHint (tsc : ℕ) : ℕ := 0x7e0000000000 ||| (0xfffffff000 &&& (tsc <<< 12))

/-- `create_stack` -/
def createStack (virtualMap : ℕ → ℕ → ℤ) (tsc : ℕ) (b : Builder) : Except Leave Builder :=
  match mmap virtualMap (stackHint tsc) stackSize b with
  | (none, b) => .error (.jumps b.s.onError b)
  | (some stackBase, b) => .ok { b with s := { b.s with
      base := stackBase
      argNext := stackBase
      dataArea := uadd stackBase stackSize
      top := uadd stackBase stackSize } }

/-- `overflow` -/
def overflow (b : Builder) : Leave := .jumps b.s.onError { b with errno := E2BIG }

/-- `check_space` -/
def checkSpace (additional : ℕ) (b : Builder) : Except Leave Unit :=
  let space := usub b.s.dataArea b.s.argNext
  let used := usub stackSize space
  if uadd used additional ≥ argMax then .error (overflow b) else .ok ()

/-- `push_arg` -/
def pushArg (v : BitVec 64) (b : Builder) : Except Leave Builder := do
  checkSpace 8 b
  .ok { b with
    memory := b.memory.store b.s.argNext v
    s := { b.s with argNext := uadd b.s.argNext 8 } }

/-- `push_data_string` -/
@[irreducible] def pushDataString (str : ℕ) (b : Builder) : Except Leave Builder :=
  match Sse2.strlen b.memory str with
  | none => .error .fault
  | some (len, _) => do
    checkSpace (uadd len 1) b
    let dataArea := usub b.s.dataArea (uadd len 1)
    let memory := (memcpy b.memory dataArea str len).1
    .ok { b with
      memory := Function.update memory (uadd dataArea len) 0
      s := { b.s with dataArea := dataArea } }

/-- `add_array` of the array at an address -/
def addArray (a : ℕ) (b : Builder) : Except Leave Builder :=
  if a + 8 ≤ 2 ^ 64 then
    if b.memory.load a ≠ 0 then do
      let b ← pushDataString (b.memory.load a).toNat b
      let b ← pushArg (BitVec.ofNat 64 b.s.dataArea) b
      addArray (a + 8) b
    else pushArg 0 b
  else .error .fault
termination_by 2 ^ 64 - a

/-- The end of the pointers in `finish_stack` -/
@[irreducible] def pointersEnd (dataArea argSize : ℕ) : ℕ :=
  let dataArea := dataArea - dataArea % 8
  if usub dataArea argSize &&& 8 ≠ 0 then usub dataArea 8 else dataArea

/-- `finish_stack`: the stack pointer -/
def finishStack (b : Builder) : ℕ × Builder :=
  let argSize := usub b.s.argNext b.s.base
  let dataArea := pointersEnd b.s.dataArea argSize
  let stackPtr := usub dataArea argSize
  let moved := memmove b.memory stackPtr b.s.base argSize
  (moved.2, { b with memory := moved.1, s := { b.s with dataArea := dataArea } })

/-- `build_stack` after the first return of `_setjmp` -/
def fillStack (virtualMap : ℕ → ℕ → ℤ) (tsc argv envp : ℕ) (b : Builder) :
    Except Leave (ℕ × Builder) := do
  let b := { b with s := .cleared }
  let b ← createStack virtualMap tsc b
  let b ← pushArg 0 b
  let b ← addArray argv b
  let argc := usub (usub b.s.argNext 16) b.s.base / 8
  let b := { b with memory := b.memory.store b.s.base (BitVec.ofNat 64 argc) }
  let b ← addArray envp b
  let b ← pushArg 0 b
  .ok (finishStack b)

/-- `build_stack`, with the context that `_setjmp` saves. A jump through a buffer with this context
makes `_setjmp` return again. -/
def buildStack (virtualMap : ℕ → ℕ → ℤ) (ctx : JmpBuf) (tsc argv envp : ℕ) (b : Builder) :
    Except Leave (ℕ × Builder) :=
  match fillStack virtualMap tsc argv envp { b with s := { b.s with onError := ctx } } with
  | .ok r => .ok r
  | .error .fault => .error .fault
  | .error (.jumps buf b) =>
    if buf = ctx then
      if b.s.base ≠ 0 then .ok (0, munmap b.s.base (usub b.s.top b.s.base) b) else .ok (0, b)
    else .error (.jumps buf b)

/-! ### The file -/

/-- The file that is executed: the error code of `lseek` if it fails, the bytes, and how the coming
reads go. A read fails with an error code, or delivers at most so many bytes, but one at least
unless none is left. -/
structure ExecFile where
  seek : Option ℕ
  bytes : List Byte
  reads : List (Except ℕ ℕ)

/-- `read` -/
def ExecFile.read (f : ExecFile) (n : ℕ) : Except ℕ (List Byte) × ExecFile :=
  match f.reads with
  | .error e :: reads => (.error e, { f with reads := reads })
  | .ok k :: reads =>
    let count := min n (max 1 k)
    (.ok (f.bytes.take count), { f with bytes := f.bytes.drop count, reads := reads })
  | [] => (.ok (f.bytes.take n), { f with bytes := f.bytes.drop n })

/-- `read_into`: the bytes, or the error code -/
def readInto (f : ExecFile) (len : ℕ) : Except ℕ (List Byte × ExecFile) :=
  match f.read len with
  | (.error e, _) => .error e
  | (.ok [], _) => .error ENOEXEC
  | (.ok (byte :: bytes), f) =>
    let rest := len - (bytes.length + 1)
    if 0 < rest then do
      let (more, f) ← readInto f rest
      .ok (byte :: bytes ++ more, f)
    else .ok (byte :: bytes, f)
termination_by len

/-- `sizeof(Elf64_Ehdr)` -/
abbrev ehdrSize : ℕ := 64

/-- `sizeof(Elf64_Phdr)` -/
abbrev phdrSize : ℕ := 56

/-- `Elf64_Ehdr`, with the fields that `check_elf_valid` reads -/
structure Ehdr where
  eIdent : List Byte
  eType : ℕ
  eMachine : ℕ
  eVersion : ℕ
  eEntry : ℕ
  ePhoff : ℕ
  eEhsize : ℕ
  ePhentsize : ℕ
  ePhnum : ℕ

/-- A field of so many bytes -/
def headerField (header : List Byte) (offset size : ℕ) : ℕ :=
  ofLittleEndian ((header.drop offset).take size)

/-- The header that the bytes hold -/
def Ehdr.ofBytes (header : List Byte) : Ehdr where
  eIdent := header.take 16
  eType := headerField header 16 2
  eMachine := headerField header 18 2
  eVersion := headerField header 20 4
  eEntry := headerField header 24 8
  ePhoff := headerField header 32 8
  eEhsize := headerField header 52 2
  ePhentsize := headerField header 54 2
  ePhnum := headerField header 56 2

/-- `IDENT` in `check_elf_valid` -/
def elfIdent : List Byte := [0x7f, 0x45, 0x4c, 0x46, 2, 1, 1, 0]

/-- `check_elf_valid` -/
def checkElfValid (elf : Ehdr) : Bool :=
  elf.eIdent.take elfIdent.length == elfIdent && elf.eType == 2 && elf.eMachine == 62 &&
    elf.eVersion == 1 && elf.eEntry != 0 && elf.ePhoff != 0 && elf.eEhsize == ehdrSize &&
    elf.ePhentsize == phdrSize && decide (elf.ePhnum > 0)

/-- `fexecve`: the stack pointer that `exec` is called with, or nothing when it returns -1 -/
def fexecve (virtualMap : ℕ → ℕ → ℤ) (ctx : JmpBuf) (tsc argv envp : ℕ) (f : ExecFile)
    (b : Builder) : Except Leave (Option ℕ × Builder) :=
  match f.seek with
  | some e => .ok (none, { b with errno := e })
  | none =>
    match readInto f ehdrSize with
    | .error e => .ok (none, { b with errno := e })
    | .ok (header, _) =>
      if !checkElfValid (.ofBytes header) then .ok (none, b)
      else do
        let (sp, b) ← buildStack virtualMap ctx tsc argv envp b
        if sp = 0 then .ok (none, b) else .ok (some sp, b)

/-- `__libc_start_main`: `argc`, `argv` and `envp` as it passes them to `main` -/
def libcStartMain (m : ByteMemory) (stackVars : ℕ) : ℤ × ℕ × ℕ :=
  let argc := ((m.load stackVars).setWidth 32).toInt
  let argv := uadd stackVars 8
  (argc, argv, uaddIsize argv (8 * (argc + 1)))

end Fluke.Libc
