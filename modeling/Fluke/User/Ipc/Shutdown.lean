import Fluke.User.Ipc.Courtesy

/-!
# The shutdown of an IPC object

The first close of an object wakes all threads that wait in its channels, but does not clear the
states of the channels. If there was one, the second close fails an assertion. Otherwise the second
close frees the object.
-/

namespace Fluke

open Outcome

/-- The entry closes an end of the object. -/
def Entry.Closes (entry : Entry) (i : ℕ) : Prop :=
  match entry with
  | .close (.ipc j) _ _ => j = i
  | .closeServer j _ => j = i
  | _ => False

/-- The entry closes an end of the object, the other one of which is closed already. -/
def Entry.ClosesSecond (entry : Entry) (i : ℕ) (ipc : IpcImpl) : Prop :=
  match entry with
  | .close (.ipc j) _ _ => j = i ∧ ipc.closedListen = true
  | .closeServer j _ => j = i ∧ ipc.closedCall = true
  | _ => False

/-- What the entry names is there, and open. -/
def Entry.Refers (entry : Entry) (k : Kernel) : Prop :=
  match entry with
  | .syscall ctx s => s.Refers ctx k
  | .interrupt irq _ => ∀ n, irq = some n → 0 ≤ n
  | .close (.ipc i) _ _ => ∃ ipc, k.ipcs i = some ipc ∧ ipc.closedCall = false
  | .close _ _ _ => True
  | .closeServer i _ => ∃ ipc, k.ipcs i = some ipc ∧ ipc.closedListen = false

/-- The first end of an object closes only while no thread waits in its channels. -/
def Entry.Quiet (entry : Entry) (k : Kernel) : Prop :=
  ∀ i ipc, entry.Closes i → k.ipcs i = some ipc → ipc.closedCall = false →
    ipc.closedListen = false → ∀ c, k.queue (.channel i c) = []

/-- A closed end leaves no thread behind: those that have waited in the channels are ready, with
the code for their side. -/
structure EndClosed (i : ℕ) (listeners callers : ErrorCode) (k k' : Kernel) : Prop where
  queue : ∀ c, k'.queue (.channel i c) = []
  woken : ∀ c, ∀ t ∈ k.queue (.channel i c),
    (k'.thread t).state = .ready ∧ (k'.queue .run).count t = 1
  listener : ∀ c, ∀ t ∈ k.queue (.channel i c), (k.thread t).ctx.r0 = syscallIpcListen →
    (k'.thread t).ctx.r0 = listeners.negated
  caller : ∀ c, ∀ t ∈ k.queue (.channel i c), (k.thread t).ctx.r0 ≠ syscallIpcListen →
    (k'.thread t).ctx.r0 = callers.negated
  others : ∀ t, (∀ c, t ∉ k.queue (.channel i c)) → k'.thread t = k.thread t

/-- The object has not been freed, or once, with its size. -/
def FreedOnce (i : ℕ) (ipc : IpcImpl) (k : Kernel) : Prop :=
  (∃ ipc', k.ipcs i = some ipc' ∧ ipc'.size = ipc.size ∧ k.freed.filter (·.1 = i) = []) ∨
  k.ipcs i = none ∧ k.freed.filter (·.1 = i) = [(i, ipc.size)]

/-- An end of the object has been closed while a thread waited in its channels. -/
def Kernel.Stale (k : Kernel) (i : ℕ) : Prop :=
  ∃ ipc, k.ipcs i = some ipc ∧ (ipc.closedCall = true ∨ ipc.closedListen = true) ∧
    ∃ state ∈ ipc.channels, state ≠ .empty

/-- What a run leaves in the list of the objects that are freed -/
structure FreedGone (k : Kernel) : Prop where
  gone : ∀ entry ∈ k.freed, k.ipcs entry.1 = none
  old : ∀ entry ∈ k.freed, entry.1 < k.ipcCount

/-- The objects are as they were, but for the states of the channels of those that are open. -/
structure ObjectsStay (k k' : Kernel) : Prop where
  freed : k'.freed = k.freed
  ipcCount : k.ipcCount ≤ k'.ipcCount
  live : ∀ i ipc, k.ipcs i = some ipc → k'.ipcs i = some ipc ∨ ipc.closedCall = false ∧
    ipc.closedListen = false ∧
      ∃ c state, k'.ipcs i = some { ipc with channels := ipc.channels.set c state }
  created : ∀ i ipc, k'.ipcs i = some ipc → k.ipcs i = none → k.ipcCount ≤ i ∧
    ipc.closedCall = false ∧ ipc.closedListen = false

/-- What a close does to the objects, where `new` is what the object becomes -/
structure ObjectCloses (i : ℕ) (entry : Entry) (old new : IpcImpl) (k k' : Kernel) : Prop where
  closes : entry.Closes i
  live : k.ipcs i = some old
  channels : new.channels = old.channels
  channelCount : new.channelCount = old.channelCount
  closed : new.closedCall = true ∨ new.closedListen = true
  second : new.closed = true ↔ entry.ClosesSecond i old
  ipcs : ∀ j, k'.ipcs j = if j = i then (if new.closed then none else some new) else k.ipcs j
  freed : k'.freed = if new.closed then (i, old.size) :: k.freed else k.freed
  ipcCount : k'.ipcCount = k.ipcCount

section

variable {k k' : Kernel} {t : ThreadId} {ctx : Registers} {i c : ℕ} {ipc : IpcImpl}
  {state : ChannelState} {entry : Entry} {listeners callers : ErrorCode}

/-! ### Who is woken -/

lemma IpcOk.woken (hipc : IpcOk k i ipc) (ht : t ∈ k.queue (.channel i c)) :
    ∃ state, ipc.channels[c]? = some state ∧ ChannelOk k i ipc c state ∧ state ≠ .empty := by
  have hopen : ipc.closedCall = false ∧ ipc.closedListen = false := by
    by_contra hclosed
    rw [hipc.closed (by simpa [or_iff_not_imp_left] using hclosed)] at ht
    exact absurd ht List.not_mem_nil
  have hc : c < ipc.channelCount := by
    by_contra hge
    rw [hipc.beyond c (not_lt.mp hge)] at ht
    exact absurd ht List.not_mem_nil
  obtain ⟨state, hmem, hs⟩ := hipc.channelState hc
  have hok := hipc.notClosed hopen.1 hopen.2 c state hs
  refine ⟨state, hs, hok, ?_⟩
  rintro rfl
  rw [show k.queue (.channel i c) = [] from hok] at ht
  exact absurd ht List.not_mem_nil

lemma Shut.endClosed {old : IpcImpl} (hshut : Shut i listeners callers ipc k k')
    (hold : IpcOk k i old) (hchannels : ipc.channels = old.channels) (hsettled : Settled k') :
    EndClosed i listeners callers k k' := by
  obtain ⟨place, hplaced, -⟩ := hsettled
  have hrun : ∀ c, ∀ t ∈ k.queue (.channel i c), t ∈ k'.queue .run := by
    intro c t ht
    obtain ⟨state, hs, -, -⟩ := hold.woken ht
    rw [hshut.run, List.mem_append, List.mem_flatMap]
    refine .inr ⟨c, List.mem_range.mpr ?_, ht⟩
    rw [hchannels]
    exact (List.getElem?_eq_some_iff.mp hs).1
  refine ⟨hshut.queue, fun c t ht => ⟨?_, ?_⟩, fun c t ht hlistens => ?_, fun c t ht hcalls => ?_,
    hshut.others⟩
  · rw [hplaced.state, (hplaced.queue _ t).mp (hrun c t ht), Place.state]
  · exact List.count_eq_one_of_mem (hplaced.nodup _) (hrun c t ht)
  · obtain ⟨state, hs, hok, hstate⟩ := hold.woken ht
    rw [hshut.woken c state (hchannels ▸ hs) t ht]
    cases state with
    | empty => exact absurd rfl hstate
    | listening => rfl
    | calling => exact absurd hlistens (hok.2 t ht).not_listen
  · obtain ⟨state, hs, hok, hstate⟩ := hold.woken ht
    rw [hshut.woken c state (hchannels ▸ hs) t ht]
    cases state with
    | empty => exact absurd rfl hstate
    | listening => exact absurd (hok.2 t ht).1 hcalls
    | calling => rfl

/-! ### One step -/

lemma ObjectsStay.same (hfreed : k'.freed = k.freed) (hcount : k'.ipcCount = k.ipcCount)
    (hipcs : k'.ipcs = k.ipcs) : ObjectsStay k k' := by
  refine ⟨hfreed, hcount.ge, fun i ipc hi => .inl (by rw [hipcs, hi]), fun i ipc hi hnone => ?_⟩
  rw [hipcs, hnone] at hi
  cases hi

lemma ObjectsStay.set (hi : k.ipcs i = some ipc)
    (hopen : ipc.closedCall = false ∧ ipc.closedListen = false) (hfreed : k'.freed = k.freed)
    (hcount : k'.ipcCount = k.ipcCount) (hipcs : ∀ j, k'.ipcs j =
      if j = i then some { ipc with channels := ipc.channels.set c state } else k.ipcs j) :
    ObjectsStay k k' := by
  refine ⟨hfreed, hcount.ge, fun j o hj => ?_, fun j o hj hnone => ?_⟩
  · by_cases hij : j = i
    · subst hij
      rw [hi] at hj
      obtain rfl := Option.some.inj hj
      exact .inr ⟨hopen.1, hopen.2, c, state, by rw [hipcs, if_pos rfl]⟩
    · exact .inl (by rw [hipcs, if_neg hij, hj])
  · have hij : j ≠ i := by
      rintro rfl
      rw [hi] at hnone
      cases hnone
    rw [hipcs, if_neg hij, hnone] at hj
    cases hj

/-- An entry that closes nothing -/
lemma IpcStep.objectsStay (h : IpcStep k entry k') (hopens : ∀ i, ¬ entry.Closes i) :
    ObjectsStay k k' := by
  cases h with
  | kept h =>
    refine ⟨h.freed, h.ipcCount, fun i ipc hi => .inl (h.ipcs i ipc hi), fun i ipc hi hnone => ?_⟩
    obtain ⟨hfresh, hcall, hlisten, -⟩ := h.created i ipc hi hnone
    exact ⟨hfresh, hcall, hlisten⟩
  | callWaits _ hj hopen _ _ _ _ h => exact .set hj hopen h.freed h.ipcCount h.ipcs
  | callMeets _ hj hopen _ _ _ h =>
    rcases h.ipcs with heq | ⟨-, heq⟩
    · exact .same h.freed h.ipcCount heq
    · exact .set hj hopen h.freed h.ipcCount heq
  | listenWaits _ hj hopen _ _ _ h => exact .set hj hopen h.freed h.ipcCount h.ipcs
  | listenMeets _ hj hopen _ _ h =>
    rcases h.ipcs with heq | ⟨-, heq⟩
    · exact .same h.freed h.ipcCount heq
    · exact .set hj hopen h.freed h.ipcCount heq
  | responds _ h => exact .same h.freed h.ipcCount h.ipcs
  | closesCall => exact absurd rfl (hopens _)
  | closesListen => exact absurd rfl (hopens _)

lemma StepDone.objectCloses (h : StepDone k entry k') (hcloses : entry.Closes i) :
    ∃ old new, ObjectCloses i entry old new k k' := by
  cases h with
  | returns => exact hcloses.elim
  | exits => exact hcloses.elim
  | tick => exact hcloses.elim
  | interrupt => exact hcloses.elim
  | closeIrq => exact hcloses.elim
  | closeModule => exact hcloses.elim
  | @closeIpc j value ctx ipc k'' hi hshut =>
    have hji : j = i := hcloses
    subst hji
    refine ⟨ipc, { ipc with closedCall := true }, hcloses, hi, rfl, rfl, .inl rfl, ?_, hshut.ipcs,
      hshut.freed, hshut.ipcCount⟩
    simp [IpcImpl.closed, Entry.ClosesSecond]
  | @closeServer j ctx ipc k'' hi hshut =>
    have hji : j = i := hcloses
    subst hji
    refine ⟨ipc, { ipc with closedListen := true }, hcloses, hi, rfl, rfl, .inr rfl, ?_, hshut.ipcs,
      hshut.freed, hshut.ipcCount⟩
    simp [IpcImpl.closed, Entry.ClosesSecond]

/-- A step closes an end of one object, or leaves the objects. -/
lemma StepDone.objects (hok : KernelOk k) (h : StepDone k entry k') :
    (∃ j old new, ObjectCloses j entry old new k k') ∨
      (∀ i, ¬ entry.Closes i) ∧ ObjectsStay k k' := by
  by_cases hcloses : ∃ j, entry.Closes j
  · obtain ⟨j, hj⟩ := hcloses
    exact .inl ⟨j, h.objectCloses hj⟩
  · have hopens : ∀ i, ¬ entry.Closes i := fun i hi => hcloses ⟨i, hi⟩
    exact .inr ⟨hopens, (h.ipcStep hok).objectsStay hopens⟩

lemma IpcImpl.size_congr {ipc' : IpcImpl} (h : ipc'.channelCount = ipc.channelCount) :
    ipc'.size = ipc.size := by
  rw [IpcImpl.size, IpcImpl.size, h]

lemma Entry.Closes.unique {j : ℕ} (h : entry.Closes i) (h' : entry.Closes j) : i = j := by
  cases entry with
  | syscall => exact h.elim
  | interrupt => exact h.elim
  | close handle ctx value =>
    cases handle with
    | ipc l => exact Eq.trans (Eq.symm h) h'
    | irq => exact h.elim
    | module => exact h.elim
  | closeServer l ctx => exact Eq.trans (Eq.symm h) h'

lemma Entry.ClosesSecond.closes (h : entry.ClosesSecond i ipc) : entry.Closes i := by
  cases entry with
  | syscall => exact h.elim
  | interrupt => exact h.elim
  | close handle ctx value =>
    cases handle with
    | ipc j => exact h.1
    | irq => exact h.elim
    | module => exact h.elim
  | closeServer j ctx => exact h.1

lemma FreedGone.step (hok : KernelOk k) (h : FreedGone k) (hdone : StepDone k entry k') :
    FreedGone k' := by
  rcases hdone.objects hok with ⟨j, old, new, hcloses⟩ | ⟨-, hstay⟩
  · have hlt : j < k.ipcCount := by
      by_contra hge
      have hnone := hok.ipcs.fresh j (not_lt.mp hge)
      rw [hcloses.live] at hnone
      cases hnone
    have hmem : ∀ e ∈ k'.freed, e.1 = j ∧ new.closed = true ∨ e ∈ k.freed := by
      intro e he
      rw [hcloses.freed] at he
      split_ifs at he with hclosed
      · rcases List.mem_cons.mp he with rfl | hold
        · exact .inl ⟨rfl, hclosed⟩
        · exact .inr hold
      · exact .inr he
    refine ⟨fun e he => ?_, fun e he => ?_⟩
    · rw [hcloses.ipcs]
      rcases hmem e he with ⟨hej, hclosed⟩ | hold
      · rw [if_pos hej, if_pos hclosed]
      · have hgone := h.gone e hold
        rw [if_neg, hgone]
        intro hej
        rw [hej, hcloses.live] at hgone
        cases hgone
    · rw [hcloses.ipcCount]
      rcases hmem e he with ⟨hej, -⟩ | hold
      · rw [hej]
        exact hlt
      · exact h.old e hold
  · refine ⟨fun e he => ?_, fun e he => ?_⟩
    · rw [hstay.freed] at he
      have hgone := h.gone e he
      cases hlive : k'.ipcs e.1 with
      | none => rfl
      | some o => exact absurd (h.old e he) (not_lt.mpr (hstay.created _ o hlive hgone).1)
    · rw [hstay.freed] at he
      exact (h.old e he).trans_le hstay.ipcCount

lemma FreedOnce.step (hok : KernelOk k) (hlt : i < k.ipcCount) (h : FreedOnce i ipc k)
    (hdone : StepDone k entry k') : FreedOnce i ipc k' ∧ i < k'.ipcCount := by
  rcases hdone.objects hok with ⟨j, old, new, hcloses⟩ | ⟨-, hstay⟩
  · refine ⟨?_, hcloses.ipcCount ▸ hlt⟩
    by_cases hij : i = j
    · subst hij
      rcases h with ⟨ipc', hi, hsize, hfreed⟩ | ⟨hnone, -⟩
      · obtain rfl := Option.some.inj (hi.symm.trans hcloses.live)
        rw [FreedOnce, hcloses.ipcs, if_pos rfl, hcloses.freed]
        split_ifs with hclosed
        · refine .inr ⟨rfl, ?_⟩
          rw [List.filter_cons_of_pos (by simp), hfreed, hsize]
        · exact .inl ⟨new, rfl, (IpcImpl.size_congr hcloses.channelCount).trans hsize, hfreed⟩
      · rw [hcloses.live] at hnone
        cases hnone
    · have hfreed : k'.freed.filter (·.1 = i) = k.freed.filter (·.1 = i) := by
        rw [hcloses.freed]
        split_ifs
        · exact List.filter_cons_of_neg (by simpa using Ne.symm hij)
        · rfl
      rw [FreedOnce, hcloses.ipcs, if_neg hij, hfreed]
      exact h
  · refine ⟨?_, hlt.trans_le hstay.ipcCount⟩
    rw [FreedOnce, hstay.freed]
    rcases h with ⟨ipc', hi, hsize, hfreed⟩ | ⟨hnone, hfreed⟩
    · rcases hstay.live i ipc' hi with heq | ⟨-, -, c, state, heq⟩
      · exact .inl ⟨ipc', heq, hsize, hfreed⟩
      · exact .inl ⟨_, heq, hsize, hfreed⟩
    · refine .inr ⟨?_, hfreed⟩
      cases hlive : k'.ipcs i with
      | none => rfl
      | some o => exact absurd hlt (not_lt.mpr (hstay.created i o hlive hnone).1)

/-! ### The second close -/

lemma Kernel.Stale.queue (hok : KernelOk k) (h : k.Stale i) (c : ℕ) :
    k.queue (.channel i c) = [] := by
  obtain ⟨ipc, hi, hclosed, -⟩ := h
  exact (hok.ipcs.live i ipc hi).closed hclosed c

lemma Kernel.Stale.closes (hok : KernelOk k) (h : k.Stale i) (hcloses : entry.Closes i) :
    k.step entry = .error (.assertion .channelQueue) := by
  have hempty := h.queue hok
  obtain ⟨ipc, hi, -, hstate⟩ := h
  cases entry with
  | syscall => exact hcloses.elim
  | interrupt => exact hcloses.elim
  | close handle ctx value =>
    cases handle with
    | irq => exact hcloses.elim
    | module => exact hcloses.elim
    | ipc j =>
      have hji : j = i := hcloses
      subst hji
      change ((k.setUserContext ctx).ipcHandleClose j >>= _) = _
      have hi' : (k.setUserContext ctx).ipcs j = some ipc := hi
      have hstale : (k.setUserContext ctx).closeEnd j .EPIPE .EBADF
          { ipc with closedCall := true } = .error (.assertion .channelQueue) :=
        Kernel.closeEnd_stale hempty hstate
      rw [Kernel.ipcHandleClose_eq hi', hstale]
      rfl
  | closeServer j ctx =>
    have hji : j = i := hcloses
    subst hji
    change ((k.setUserContext ctx).ipcClose j >>= _) = _
    have hi' : (k.setUserContext ctx).ipcs j = some ipc := hi
    have hstale : (k.setUserContext ctx).closeEnd j .EBADF .EPIPE
        { ipc with closedListen := true } = .error (.assertion .channelQueue) :=
      Kernel.closeEnd_stale hempty hstate
    rw [Kernel.ipcClose_eq hi', hstale]
    rfl

lemma Kernel.Stale.step (hok : KernelOk k) (h : k.Stale i) (heq : k.step entry = .ok k')
    (hdone : StepDone k entry k') : k'.Stale i := by
  have hstale := h
  obtain ⟨ipc, hi, hclosed, hstate⟩ := h
  rcases hdone.objects hok with ⟨j, old, new, hcloses⟩ | ⟨-, hstay⟩
  · have hij : i ≠ j := by
      rintro rfl
      rw [hstale.closes hok hcloses.closes] at heq
      cases heq
    exact ⟨ipc, by rw [hcloses.ipcs, if_neg hij, hi], hclosed, hstate⟩
  · rcases hstay.live i ipc hi with heq' | ⟨hcall, hlisten, -⟩
    · exact ⟨ipc, heq', hclosed, hstate⟩
    · rw [hcall, hlisten] at hclosed
      simp at hclosed

lemma Settled.of_returned {value : ℕ} (h : Settled (k.returned value)) : Settled k := by
  obtain ⟨place, hplaced, hno⟩ := h
  exact ⟨place, hplaced.congr (fun _ => ⟨rfl, rfl, rfl⟩) rfl rfl rfl rfl, hno⟩

end

/-- A thread listens, the users of the object close it, and then the server does. -/
theorem Kernel.Running.secondClose_fails : ¬ ∀ k : Kernel, k.Running → ∀ i ctx,
    (Entry.closeServer i ctx).Admitted k → (Entry.closeServer i ctx).Refers k →
      k.step (.closeServer i ctx) ≠ .error (.assertion .channelQueue) := by
  intro hall
  have hsecond : Kernel.Running _ :=
    .step (.call (.module 0) syscallThreadSpawn 0 0 0 0) (.init Kernel.first_booted)
      ⟨rfl, Surroundings.granting_valid _⟩ rfl
  have hcreated : Kernel.Running _ :=
    .step (.call (.module 0) syscallIpcCreate 0 5 0 0) hsecond
      ⟨rfl, Surroundings.granting_valid _⟩ rfl
  have hlistens : Kernel.Running _ :=
    .step (.call (.ipc 0) syscallIpcListen 0 0 0 1) hcreated
      ⟨rfl, Surroundings.granting_valid _⟩ rfl
  have hclosed : Kernel.Running _ :=
    .step (.close (.ipc 0) ⟨0, 0, 0, 0, 0, 0, 0, 0, 0⟩ 0) hlistens rfl rfl
  exact hall _ hclosed 0 ⟨0, 0, 0, 0, 0, 0, 0, 0, 0⟩ rfl ⟨_, rfl, rfl⟩ rfl

end Fluke
