import Fluke.User.Schedule.Passing

/-!
# Waking a queue

`schedule_wake_all` takes the threads of a queue one after the other and makes them ready. Each
returns with the value that is given.
-/

namespace Fluke

open Outcome

/-- The threads of the queue are ready, each with the value to return. -/
structure WokeAll (q : QueueId) (value : ℕ) (k k' : Kernel) : Prop where
  queue : k'.queue q = []
  run : k'.queue .run = k.queue .run ++ k.queue q
  queues : ∀ q', q' ≠ q → q' ≠ .run → k'.queue q' = k.queue q'
  woken : ∀ t ∈ k.queue q, (k'.thread t).ctx = { (k.thread t).ctx with r0 := value }
  others : ∀ t, t ∉ k.queue q → k'.thread t = k.thread t
  ipcCaller : ∀ t, (k'.thread t).ipcCaller = (k.thread t).ipcCaller
  currentThread : k'.currentThread = k.currentThread
  userContext : k'.userContext = k.userContext
  clock : k'.clock = k.clock
  objects : ObjectsKept k k'

section

variable {k : Kernel} {place : ThreadId → Place} {q : QueueId} {value : ℕ}

lemma woken_thread (k : Kernel) (t m : ThreadId) (q : QueueId) (value : ℕ) :
    ((k.woken t q value).thread m).ctx =
      (if m = t then { (k.thread t).ctx with r0 := value } else (k.thread m).ctx) ∧
      ((k.woken t q value).thread m).ipcCaller = (k.thread m).ipcCaller ∧
      (m ≠ t → (k.woken t q value).thread m = k.thread m) := by
  by_cases hm : m = t
  · subst hm
    simp [Kernel.woken]
  · simp [Kernel.woken, hm]

lemma WokeAll.nil (hq : k.queue q = []) : WokeAll q value k k := by
  refine ⟨hq, by simp [hq], fun _ _ _ => rfl, fun t ht => ?_, fun _ _ => rfl, fun _ => rfl, rfl,
    rfl, rfl, .refl k⟩
  rw [hq] at ht
  exact absurd ht List.not_mem_nil

/-- One more thread was woken before the others. -/
lemma WokeAll.cons {t : ThreadId} {threads : List ThreadId} {k' : Kernel} (hqr : q ≠ .run)
    (hq : k.queue q = t :: threads) (ht : t ∉ threads)
    (h : WokeAll q value (k.woken t q value) k') : WokeAll q value k k' := by
  have hqueue : (k.woken t q value).queue q = threads := by
    simp [Kernel.woken, hqr, hq]
  have hrun : (k.woken t q value).queue .run = k.queue .run ++ [t] := by
    simp [Kernel.woken]
  have hobjects : ObjectsKept k (k.woken t q value) := ⟨rfl, rfl, rfl, rfl, rfl⟩
  refine ⟨h.queue, ?_, fun q' hne hne' => ?_, fun m hm => ?_, fun m hm => ?_, fun m => ?_,
    h.currentThread, h.userContext, h.clock, hobjects.trans h.objects⟩
  · rw [h.run, hrun, hqueue, hq, List.append_assoc]
    rfl
  · rw [h.queues q' hne hne']
    simp [Kernel.woken, hne, hne']
  · rw [hq] at hm
    rcases List.mem_cons.mp hm with rfl | hm
    · rw [h.others m (by rwa [hqueue]), (woken_thread ..).1, if_pos rfl]
    · have hne : m ≠ t := fun heq => ht (heq ▸ hm)
      rw [h.woken m (by rwa [hqueue]), (woken_thread ..).1, if_neg hne]
  · rw [hq, List.mem_cons, not_or] at hm
    rw [h.others m (by rw [hqueue]; exact hm.2), (woken_thread ..).2.2 hm.1]
  · rw [h.ipcCaller, (woken_thread ..).2.1]

namespace Placed

lemma wakeAll (hqr : q ≠ .run) {threads : List ThreadId} :
    ∀ {k : Kernel} {place : ThreadId → Place}, Placed k place → k.queue q = threads →
      ∃ k', Kernel.wakeAll q value threads k = .ok k' ∧ WokeAll q value k k' ∧
        Placed k' fun t => if t ∈ threads then .queued .run else place t := by
  induction threads with
  | nil =>
    intro k place h hq
    exact ⟨k, rfl, .nil hq, by simpa using h⟩
  | cons t threads ih =>
    intro k place h hq
    have hnodup : (k.queue q).Nodup := h.nodup q
    rw [hq] at hnodup
    have ht : t ∉ threads := (List.nodup_cons.mp hnodup).1
    obtain ⟨hpop, hwake, hplace⟩ := h.wake hqr hq value
    have hqueue : (k.woken t q value).queue q = threads := by
      simp [Kernel.woken, hqr, hq]
    obtain ⟨k', heq, hwoke, h'⟩ := ih (h.woken hplace hqr value) hqueue
    refine ⟨k', ?_, .cons hqr hq ht hwoke, ?_⟩
    · rw [Kernel.wakeAll]
      cases hp : k.queuePop q with
      | mk r k₁ =>
        rw [hp] at hpop hwake
        obtain rfl : r = some t := hpop
        dsimp only at hwake ⊢
        rw [hwake, ok_bind, heq]
    · have hplaces : (fun m => if m ∈ t :: threads then Place.queued .run else place m) =
          fun m => if m ∈ threads then .queued .run
            else Function.update place t (.queued .run) m := by
        funext m
        by_cases hm : m = t
        · subst hm
          simp
        · simp [hm]
      rwa [hplaces]

/-- Every thread of the queue is woken. -/
lemma scheduleWakeAll (h : Placed k place) (hqr : q ≠ .run) (value : ℕ) :
    ∃ k', k.scheduleWakeAll q value = .ok k' ∧ WokeAll q value k k' ∧
      Placed k' fun t => if t ∈ k.queue q then .queued .run else place t :=
  wakeAll hqr h rfl

end Placed

end

end Fluke
