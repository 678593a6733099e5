import Fluke.User.Steps

/-!
# No thread is lost

Whatever entries follow each other, every thread is in the place that its state names, and in no
other one.
-/

namespace Fluke

open Outcome

/-- The kernel when the first thread starts to run -/
structure Kernel.Booted (k : Kernel) : Prop where
  threadCount : k.threadCount = 1
  current : k.currentThread = some 0
  running : (k.thread 0).state = .running
  others : ∀ t, t ≠ 0 → (k.thread t).state = .floating
  roots : ∀ t, (k.thread t).queueRoot = none
  idle : ∀ t, (k.thread t).ipcCaller = none
  queues : ∀ q, k.queue q = []
  sleepQueue : k.sleepQueue = []
  ipcs : ∀ i, k.ipcs i = none
  irqs : ∀ n, (k.irqs n).isClaimed = false ∧ (k.irqs n).interruptOccurred = false
  freed : k.freed = []

/-- The kernel with one thread that runs, where the clock counts its readings -/
def Kernel.first : Kernel where
  thread t :=
    { ctx := ⟨0, 0, 0, 0, 0, 0, 0, 0, 0⟩, state := if t = 0 then .running else .floating
      timeout := 0, queueRoot := none, ipcCaller := none }
  threadCount := 1
  queue _ := []
  sleepQueue := []
  currentThread := some 0
  userContext := ⟨0, 0, 0, 0, 0, 0, 0, 0, 0⟩
  irqs _ := ⟨false, false, false⟩
  ipcs _ := none
  ipcCount := 0
  freed := []
  clock n := n
  copies _ := 0

lemma Kernel.first_booted : Kernel.first.Booted := by
  refine ⟨rfl, rfl, rfl, fun t ht => ?_, fun _ => rfl, fun _ => rfl, fun _ => rfl, rfl,
    fun _ => rfl, fun _ => ⟨rfl, rfl⟩, rfl⟩
  exact if_neg ht

lemma Kernel.Booted.kernelOk {k : Kernel} (h : k.Booted) : KernelOk k := by
  refine ⟨⟨fun t => if t = 0 then .running else .absent, ⟨fun t => ?_, fun t => ?_, fun q t => ?_,
    fun q => ?_, fun t => ?_, fun l t => ?_, fun t => ?_, ?_, fun t => ?_⟩, fun t => ?_⟩,
    ⟨fun i ipc hi => ?_, fun i _ c => h.queues _, fun i _ => h.ipcs i⟩, fun l _ => h.idle l⟩
  · split_ifs with ht
    · rw [ht, h.running, Place.state]
    · rw [h.others t ht, Place.state]
  · rw [h.roots]
    split_ifs <;> rfl
  · rw [h.queues]
    split_ifs <;> simp
  · rw [h.queues]
    exact List.nodup_nil
  · rw [h.current]
    split_ifs with ht
    · simp [ht]
    · simp [Ne.symm ht]
  · rw [h.idle]
    split_ifs <;> simp
  · rw [h.sleepQueue]
    split_ifs <;> simp
  · rw [h.sleepQueue]
    exact List.nodup_nil
  · rw [h.threadCount]
    split_ifs with ht
    · simp [ht]
    · simp only [true_iff]
      exact Nat.one_le_iff_ne_zero.mpr ht
  · dsimp only
    split_ifs <;> simp
  · rw [h.ipcs] at hi
    cases hi

/-- The states that the kernel is in between entries -/
def Kernel.Running (k : Kernel) : Prop := Reachable Kernel.Booted Entry.Admitted Kernel.step k

lemma Kernel.Running.kernelOk {k : Kernel} (h : k.Running) : KernelOk k := by
  refine Reachable.invariant (fun k hk => hk.kernelOk) (fun entry k k' hk hadmitted heq => ?_) h
  exact ((Kernel.step_spec hk hadmitted).of_eq_ok heq).1

/-- The thread is where its state says, and nowhere else. A thread that waits for an interrupt has a
timeout, one that waits in a channel has none. -/
structure InPlace (k : Kernel) (t : ThreadId) : Prop where
  running : (k.thread t).state = .running ↔ k.currentThread = some t
  ready : (k.thread t).state = .ready ↔ (k.queue .run).count t = 1
  waiting : (k.thread t).state = .waiting ↔ ∃! q, q ≠ .run ∧ (k.queue q).count t = 1
  sleeping : (k.thread t).state = .sleeping ↔ t ∈ k.sleepQueue ∧ ∀ q, t ∉ k.queue q
  calling : (k.thread t).state = .calling ↔
    (∃! l, (k.thread l).ipcCaller = some t) ∧ ∀ q, t ∉ k.queue q
  timeout : t ∈ k.sleepQueue ↔ (k.thread t).state = .sleeping ∨
    (k.thread t).state = .waiting ∧ ∃ n, t ∈ k.queue (.irq n)
  linked : k.sleepQueue.count t ≤ 1
  single : ∀ q q', t ∈ k.queue q → t ∈ k.queue q' → q = q'
  settled : (k.thread t).state ≠ .floating

lemma Place.state_waiting {p : Place} :
    p.state = .waiting ↔ ∃! q, q ≠ .run ∧ p = .queued q := by
  constructor
  · intro h
    cases p with
    | queued q =>
      refine ⟨q, ⟨?_, rfl⟩, fun q' hq' => (Place.queued.inj hq'.2).symm⟩
      rintro rfl
      cases h
    | _ => cases h
  · rintro ⟨q, ⟨hne, rfl⟩, -⟩
    cases q with
    | run => exact absurd rfl hne
    | _ => rfl

lemma Placed.inPlace {k : Kernel} {place : ThreadId → Place} (h : Placed k place) {t : ThreadId}
    (hfloating : place t ≠ .floating) (habsent : place t ≠ .absent) : InPlace k t := by
  have hcount : ∀ q, (k.queue q).count t = 1 ↔ place t = .queued q := fun q => by
    rw [(h.nodup q).count, ← h.queue]
    split_ifs with hm
    · simp [hm]
    · simp [hm]
  refine ⟨?_, ?_, ?_, ?_, ?_, ?_, List.nodup_iff_count_le_one.mp h.sleepNodup t,
    fun q q' hq hq' => ?_, ?_⟩
  · rw [h.state, h.current]
    cases place t with
    | queued q => cases q <;> simp [Place.state]
    | _ => simp [Place.state]
  · rw [h.state, hcount]
    cases place t with
    | queued q => cases q <;> simp [Place.state]
    | _ => simp [Place.state]
  · rw [h.state, Place.state_waiting]
    exact existsUnique_congr fun q => and_congr_right fun _ => (hcount q).symm
  · simp only [h.state, h.sleep, h.queue]
    cases place t with
    | queued q => cases q <;> simp [Place.state]
    | _ => simp [Place.state]
  · simp only [h.state, h.caller, h.queue]
    cases place t with
    | queued q => cases q <;> simp [Place.state]
    | _ => simp [Place.state]
  · simp only [h.state, h.sleep, h.queue]
    cases place t with
    | queued q => cases q <;> simp [Place.state]
    | _ => simp [Place.state]
  · rw [h.queue] at hq hq'
    exact Place.queued.inj (hq.symm.trans hq')
  · rw [h.state]
    cases hplace : place t with
    | absent => exact absurd hplace habsent
    | floating => exact absurd hplace hfloating
    | queued q => cases q <;> simp [Place.state]
    | _ => simp [Place.state]

/-- Between entries every thread is in exactly one place, which is the one that its state names. -/
theorem Kernel.Running.threads_inPlace {k : Kernel} (h : k.Running) {t : ThreadId}
    (ht : t < k.threadCount) : InPlace k t := by
  obtain ⟨place, hplaced, hno⟩ := h.kernelOk.settled
  refine hplaced.inPlace (hno t) fun habsent => ?_
  exact absurd ht (not_lt.mpr ((hplaced.absent t).mp habsent))

/-- What a system call finds that gets all it asks for, with the descriptor of the handle -/
def Surroundings.granting (handle : HandleId) : Surroundings where
  descriptor := .ok handle
  newDescriptor := .ok 0
  allocated := .ok ()
  transfers := .ok [1, 1, 1, 1, 1]
  other := 0

lemma Surroundings.granting_valid (handle : HandleId) : (Surroundings.granting handle).Valid := by
  intro transfers h
  cases h
  rfl

/-- The system call of the thread that runs, with these arguments -/
def Entry.call (handle : HandleId) (number a0 a1 a2 a3 : ℕ) : Entry :=
  .syscall ⟨number, a0, a1, a2, a3, 0, 0, 0, 0⟩ (.granting handle)

/-- The first thread adds another one and goes to sleep. -/
theorem Kernel.Running.threads_inPlace_two : ∃ k : Kernel, k.threadCount = 2 ∧
    (k.thread 0).state = .sleeping ∧ (k.thread 1).state = .running ∧ InPlace k 0 ∧
    InPlace k 1 := by
  have hspawned : Kernel.Running _ :=
    .step (.call (.module 0) syscallThreadSpawn 0 0 0 0) (.init Kernel.first_booted)
      ⟨rfl, Surroundings.granting_valid _⟩ rfl
  have hsleeps : Kernel.Running _ :=
    .step (.call (.module 0) syscallNsleep 9 0 0 0) hspawned
      ⟨rfl, Surroundings.granting_valid _⟩ rfl
  exact ⟨_, rfl, rfl, rfl, hsleeps.threads_inPlace (by decide), hsleeps.threads_inPlace (by decide)⟩

end Fluke
