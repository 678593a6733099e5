import Fluke.User.Schedule
import Fluke.Mem.Memory

/-!
# IPC

Callers and listeners meet at the channels of an IPC object. An object is known by a number, and
so is its handle, which is a part of it.
-/

namespace Fluke

open Outcome

/-! ### Modes -/

/-- `IPC_CLASS_MASK` -/
abbrev ipcClassMask : ℕ := 0xffff0000
/-- `IPC_SYSTEM_READ` -/
abbrev ipcSystemRead : ℕ := 0x100
/-- `IPC_SYSTEM_WRITE` -/
abbrev ipcSystemWrite : ℕ := 0x200
/-- `IPC_CALL_TXSTR` -/
abbrev ipcCallTxstr : ℕ := 1
/-- `IPC_CALL_RXSTR` -/
abbrev ipcCallRxstr : ℕ := 2
/-- `IPC_CALL_FRAGMENT` -/
abbrev ipcCallFragment : ℕ := 4

/-- `IPC_TRANSFER_REGISTER` -/
abbrev ipcTransferRegister : ℕ := 0
/-- `IPC_TRANSFER_SMALLSTR` -/
abbrev ipcTransferSmallstr : ℕ := 1
/-- `IPC_TRANSFER_LARGESTR` -/
abbrev ipcTransferLargestr : ℕ := 2
/-- `IPC_TRANSFER_READ` -/
abbrev ipcTransferRead : ℕ := 3
/-- `IPC_TRANSFER_WRITE` -/
abbrev ipcTransferWrite : ℕ := 4

/-- `TRANSFER_MAX` -/
abbrev transferMax : ℕ := 5
/-- `PATH_MAX` -/
abbrev pathMax : ℕ := 4096

/-- A `usize` as an `int`, up to its sign -/
def toInt32 (a : ℕ) : ℕ := a % 2 ^ 32

/-- `call_transfer_mode` -/
def callTransferMode (caller : Registers) : Result ℕ :=
  let callMode := toInt32 caller.a3
  if callMode &&& ipcClassMask = 0 then .error .EPERM
  else if callMode &&& ipcCallTxstr ≠ 0 then do
    let size := caller.a2
    checkUserRange caller.a1 (toIsize size)
    .ok (if size ≤ pathMax then ipcTransferSmallstr else ipcTransferLargestr)
  else .ok ipcTransferRegister

namespace IpcImpl

/-- `IPCimpl::transfer_channel`: an index into `channels` -/
def transferChannel (ipc : IpcImpl) (transferMode : ℕ) : Except Panic (Result ℕ) :=
  match ipc.transferMap[transferMode]? with
  | none => .error .outOfBounds
  | some channelId => .ok (if channelId = 0 then .error .EIPCNX else .ok (channelId - 1))

/-- `IPCimpl::size` -/
def size (ipc : IpcImpl) : ℕ := 56 + ipc.channelCount * 24

end IpcImpl

/-- The loop of `IPC::create`: the map without the entries that are 0, and the largest channel -/
def ipcTransfers : List ℕ → ℕ → List ℕ → Result (List ℕ × ℕ)
  | [], maxChannel, transferMap => .ok (transferMap, maxChannel)
  | channel :: transfers, maxChannel, transferMap =>
    if channel = 0 then ipcTransfers transfers maxChannel (transferMap ++ [0])
    else if channel > transferMax then .error .EINVAL
    else ipcTransfers transfers (if channel > maxChannel then channel else maxChannel)
      (transferMap ++ [channel])

/-- `IPC::create`, given whether `kalloc` has a block -/
def ipcCreate (transfers : List ℕ) (allocated : Bool) : Result IpcImpl := do
  let (transferMap, maxChannel) ← ipcTransfers transfers 0 []
  if allocated then
    .ok { transferMap := transferMap, channelCount := maxChannel, closedCall := false,
          closedListen := false, channels := List.replicate maxChannel .empty }
  else .error .ENOMEM

namespace Kernel

/-- The object behind an IPC pointer -/
def ipcAt (k : Kernel) (i : ℕ) : Except Panic IpcImpl :=
  match k.ipcs i with
  | some ipc => .ok ipc
  | none => .error .invalidPointer

/-- `channels[c].state` -/
def channelState (ipc : IpcImpl) (c : ℕ) : Except Panic ChannelState :=
  match ipc.channels[c]? with
  | some state => .ok state
  | none => .error .outOfBounds

/-- `channels[c].state = state` -/
def setChannelState (k : Kernel) (i c : ℕ) (ipc : IpcImpl) (state : ChannelState) : Kernel :=
  k.setIpc i (some { ipc with channels := ipc.channels.set c state })

/-! ### Transfers -/

/-- `transfer_error` -/
def transferError (shame : ErrorCode) (guilty innocent : ThreadId) (k : Kernel) :
    Except Panic Kernel := do
  let k := k.setR0 guilty shame.negated
  let k := k.setR0 innocent ErrorCode.ipcIo.negated
  let k ← k.scheduleReady guilty
  let k ← k.scheduleReady innocent
  k.scheduleOrExit

/-- `copy_string` -/
def copyString (source dest : ThreadId) (k : Kernel) : Except Panic (Flow Unit × Kernel) := do
  assert (k.currentThread = none) .noCurrentThread
  let (err, k) := k.memcpyUserUserCatchFault
  if err = 0 then .ok (.returns (), k)
  else if err = memcpyFaultRead then do
    let k ← k.transferError .EFAULT source dest
    .ok (.exits, k)
  else do
    let k ← k.transferError .EFAULT dest source
    .ok (.exits, k)

/-- `CTX_LEN(&thread->ctx) = len` and `CTX_MODE(&thread->ctx) = mode` -/
def setLenMode (k : Kernel) (t : ThreadId) (len mode : ℕ) : Kernel :=
  k.setCtx t { (k.thread t).ctx with a2 := len, a3 := mode }

/-- `CTX_MODE(&thread->ctx) = mode` -/
def setMode (k : Kernel) (t : ThreadId) (mode : ℕ) : Kernel :=
  k.setCtx t { (k.thread t).ctx with a3 := mode }

/-- The message of a call, by transfer mode: the `switch` of `call_transfer` -/
def transferMessage (caller listener : ThreadId) (transferMode : ℕ) (k : Kernel) :
    Except Panic (Flow Unit × Kernel) :=
  let callerCtx := (k.thread caller).ctx
  let listenerCtx := (k.thread listener).ctx
  if transferMode = ipcTransferRegister then
    .ok (.returns (), k.setCtx listener
      { listenerCtx with a1 := callerCtx.a1, a2 := callerCtx.a2, a3 := callerCtx.a3 })
  else if transferMode = ipcTransferSmallstr ∨ transferMode = ipcTransferLargestr then
    let len := callerCtx.a2
    let listenerLen := listenerCtx.a2
    if len > listenerLen ∧ callerCtx.a3 &&& ipcCallFragment = 0 then do
      let k ← k.transferError .E2BIG caller listener
      .ok (.exits, k)
    else
      let len := if len > listenerLen then listenerLen else len
      (k.setLenMode listener len callerCtx.a3).copyString caller listener
  else if transferMode = ipcTransferWrite then
    let len := min callerCtx.a2 listenerCtx.a2
    let k := k.setLenMode listener len (ipcSystemWrite ||| ipcCallTxstr ||| ipcCallFragment)
    (k.setMode caller 0).copyString caller listener
  else if transferMode = ipcTransferRead then
    let k := k.setLenMode listener callerCtx.a2 (ipcSystemRead ||| ipcCallRxstr)
    .ok (.returns (), k.setMode caller ipcCallRxstr)
  else .error .transferMode

/-- `call_transfer` -/
def callTransfer (caller listener : ThreadId) (transferMode : ℕ) (k : Kernel) :
    Except Panic Kernel := do
  assert ((k.thread caller).state = .floating) .threadFloating
  assert ((k.thread listener).state = .floating) .threadFloating
  assert ((k.thread listener).ipcCaller = none) .listenerIdle
  let listenerCallback := (k.thread listener).ctx.a4
  let k := k.setCtx listener { (k.thread listener).ctx with
    a4 := (k.thread caller).ctx.a4, a5 := (k.thread caller).ctx.a5 }
  match ← k.transferMessage caller listener transferMode with
  | (.exits, k) => .ok k
  | (.returns (), k) =>
    let k := k.setState caller .calling
    let k := k.setIpcCaller listener (some caller)
    let k := k.setCtx listener { (k.thread listener).ctx with pc := listenerCallback }
    k.cpuContextRestoreAndExit listener

/-! ### Calls -/

/-- `IPC_handle::ipc_call` for a transfer mode -/
def ipcCallMode (i transferMode : ℕ) (k : Kernel) :
    Except Panic (Flow (Result ℕ) × Kernel) := do
  let ipc ← k.ipcAt i
  if ipc.closedListen then .ok (.returns (.error .EPIPE), k)
  else do
    assert (!ipc.closedCall) .endOpen
    match ← ipc.transferChannel transferMode with
    | .error e => .ok (.returns (.error e), k)
    | .ok c => do
      let state ← channelState ipc c
      let (caller, k) ← k.cpuContextSave
      let k := k.setCtx caller { (k.thread caller).ctx with a0 := transferMode }
      match state with
      | .empty => do
        assert (k.queue (.channel i c) = []) .channelQueue
        let k := k.setChannelState i c ipc .calling
        let k ← k.pushInto (.channel i c) caller
        let k ← k.scheduleOrExit
        .ok (.exits, k)
      | .listening => do
        match ← k.popFrom (.channel i c) with
        | (none, _) => .error (.assertion .channelQueue)
        | (some listener, k) => do
          let k := if k.queue (.channel i c) = [] then k.setChannelState i c ipc .empty else k
          let k ← k.callTransfer caller listener transferMode
          .ok (.exits, k)
      | .calling => do
        assert (k.queue (.channel i c) ≠ []) .channelQueue
        let k ← k.pushInto (.channel i c) caller
        let k ← k.scheduleOrExit
        .ok (.exits, k)

/-- `IPC::listen` -/
def ipcListen (i : ℕ) (ctx : Registers) (k : Kernel) :
    Except Panic (Flow (Result ℕ) × Kernel) := do
  let ipc ← k.ipcAt i
  if ipc.closedCall then .ok (.returns (.error .EPIPE), k)
  else do
    assert (!ipc.closedListen) .endOpen
    let channelId := ctx.a3
    if channelId > ipc.channelCount then .ok (.returns (.error .EINVAL), k)
    else do
      let c := usub channelId 1
      let state ← channelState ipc c
      let (listener, k) ← k.cpuContextSave
      match state with
      | .empty => do
        assert (k.queue (.channel i c) = []) .channelQueue
        let k := k.setChannelState i c ipc .listening
        let k ← k.pushInto (.channel i c) listener
        let k ← k.scheduleOrExit
        .ok (.exits, k)
      | .listening => do
        assert (k.queue (.channel i c) ≠ []) .channelQueue
        let k ← k.pushInto (.channel i c) listener
        let k ← k.scheduleOrExit
        .ok (.exits, k)
      | .calling => do
        match ← k.popFrom (.channel i c) with
        | (none, _) => .error (.assertion .channelQueue)
        | (some caller, k) => do
          let k := if k.queue (.channel i c) = [] then k.setChannelState i c ipc .empty else k
          let k ← k.callTransfer caller listener (toInt32 (k.thread caller).ctx.a0)
          .ok (.exits, k)

/-- `response_error` -/
def responseError (caller : ThreadId) (shame : ErrorCode) (k : Kernel) :
    Except Panic (Flow (Result ℕ) × Kernel) := do
  let k := k.setR0 caller ErrorCode.ipcIo.negated
  let k ← k.scheduleReady caller
  .ok (.returns (.error shame), k)

/-- The responder answers with a string: the last part of `IPC::respond` -/
def respondString (caller : ThreadId) (len : ℕ) (k : Kernel) :
    Except Panic (Flow (Result ℕ) × Kernel) := do
  let (responder, k) ← k.cpuContextSave
  match ← k.copyString responder caller with
  | (.exits, k) => .ok (.exits, k)
  | (.returns (), k) => do
    let k := k.setCtx caller { (k.thread caller).ctx with
      r0 := (k.thread responder).ctx.a0, a2 := len }
    let k := k.setR0 responder 0
    let k ← k.scheduleReady responder
    let k ← k.cpuContextRestoreAndExit caller
    .ok (.exits, k)

/-- `IPC::respond` -/
def ipcRespond (rctx : Registers) (k : Kernel) : Except Panic (Flow (Result ℕ) × Kernel) :=
  match k.currentThread with
  | none => .error .invalidPointer
  | some responder =>
    match (k.thread responder).ipcCaller with
    | none => .ok (.returns (.error .ENODEV), k)
    | some caller => do
      let k := k.setIpcCaller responder none
      assert ((k.thread caller).state = .calling) .callerCalling
      let k := k.setState caller .floating
      if rctx.a3 &&& ipcCallRxstr = 0 then do
        let k := k.setCtx caller { (k.thread caller).ctx with r0 := rctx.a0, a2 := rctx.a1 }
        let k ← k.scheduleReady caller
        .ok (.returns (.ok 0), k)
      else if (k.thread caller).ctx.a3 &&& ipcCallRxstr = 0 then k.responseError caller .EINVAL
      else
        let len := rctx.a2
        if len > (k.thread caller).ctx.a2 then k.responseError caller .E2BIG
        else k.respondString caller len

/-- `IPC_handle::read`, behind the check of the buffer in the system call -/
def ipcRead (i : ℕ) (k : Kernel) : Except Panic (Flow (Result ℕ) × Kernel) :=
  k.ipcCallMode i ipcTransferRead

/-- `IPC_handle::write`, behind the check of the buffer in the system call -/
def ipcWrite (i : ℕ) (k : Kernel) : Except Panic (Flow (Result ℕ) × Kernel) :=
  k.ipcCallMode i ipcTransferWrite

/-- `IPC_handle::ipc_call` -/
def ipcCall (i : ℕ) (ctx : Registers) (k : Kernel) : Except Panic (Flow (Result ℕ) × Kernel) :=
  match callTransferMode ctx with
  | .error e => .ok (.returns (.error e), k)
  | .ok transferMode => k.ipcCallMode i transferMode

/-! ### Closing -/

/-- One channel of a close: `listeners` and `callers` are what its threads are woken with. -/
def closeChannel (i c : ℕ) (listeners callers : ErrorCode) (k : Kernel) : ChannelState →
    Except Panic Kernel
  | .empty => do
    assert (k.queue (.channel i c) = []) .channelQueue
    .ok k
  | .listening => do
    assert (k.queue (.channel i c) ≠ []) .channelQueue
    k.scheduleWakeAll (.channel i c) listeners.negated
  | .calling => do
    assert (k.queue (.channel i c) ≠ []) .channelQueue
    k.scheduleWakeAll (.channel i c) callers.negated

/-- The loop of both closes, from channel `c` on -/
def closeChannels (i : ℕ) (listeners callers : ErrorCode) : ℕ → List ChannelState → Kernel →
    Except Panic Kernel
  | _, [], k => .ok k
  | c, state :: states, k => do
    let k ← k.closeChannel i c listeners callers state
    closeChannels i listeners callers (c + 1) states k

/-- `kfree(&self, self.size())` -/
def freeIpc (k : Kernel) (i : ℕ) (ipc : IpcImpl) : Kernel :=
  { k with freed := (i, ipc.size) :: k.freed }.setIpc i none

/-- `IPC_handle::close` -/
def ipcHandleClose (i : ℕ) (k : Kernel) : Except Panic Kernel := do
  let ipc ← k.ipcAt i
  let ipc := { ipc with closedCall := true }
  let k := k.setIpc i (some ipc)
  let k ← closeChannels i .EPIPE .EBADF 0 ipc.channels k
  .ok (if ipc.closedListen then k.freeIpc i ipc else k)

/-- `IPC::close` -/
def ipcClose (i : ℕ) (k : Kernel) : Except Panic Kernel := do
  let ipc ← k.ipcAt i
  let ipc := { ipc with closedListen := true }
  let k := k.setIpc i (some ipc)
  let k ← closeChannels i .EBADF .EPIPE 0 ipc.channels k
  .ok (if ipc.closedCall then k.freeIpc i ipc else k)

end Kernel

end Fluke
