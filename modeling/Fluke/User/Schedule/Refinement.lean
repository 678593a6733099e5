import Fluke.Library.Deadlines
import Fluke.User.Schedule.Links

/-!
# Links and lists

The functions of the scheduler do with the links what they do with lists: they return the same and
leave links that make up the same lists, or fail the same assertion.
-/

namespace Fluke

open Outcome

/-- The links of the threads make up the queues and the list of sleepers. -/
structure Laid (s : Links) (k : Kernel) : Prop where
  ctx : ∀ t, s.ctx t = (k.thread t).ctx
  state : ∀ t, s.state t = (k.thread t).state
  ns : ∀ t, (s.timeout t).ns = (k.thread t).timeout
  root : ∀ t q, (k.thread t).queueRoot = some q ↔ t ∈ k.queue q
  queues : Represents s.queues k.queue
  sleepers : Sleepers s k.sleepQueue
  clock : s.clock = k.clock

section

variable {s s' : Links} {k k' : Kernel} {t : ThreadId} {q : QueueId}

lemma Laid.node_root (h : Laid s k) (t : ThreadId) :
    (s.queues.node t).root = (k.thread t).queueRoot := by
  refine Option.ext fun q => ?_
  rw [h.root, ← h.queues.root]

/-- Registers and state of a thread are not among the links. -/
lemma Laid.setThread (h : Laid s k) (thread : Thread)
    (hns : thread.timeout = (k.thread t).timeout)
    (hroot : thread.queueRoot = (k.thread t).queueRoot) :
    Laid { s with
      ctx := Function.update s.ctx t thread.ctx
      state := Function.update s.state t thread.state } (k.setThread t thread) := by
  refine ⟨fun m => ?_, fun m => ?_, fun m => ?_, fun m q => ?_, h.queues, h.sleepers.congr rfl rfl,
    h.clock⟩
  · by_cases hm : m = t
    · simp [hm]
    · simpa [hm] using h.ctx m
  · by_cases hm : m = t
    · simp [hm]
    · simpa [hm] using h.state m
  · by_cases hm : m = t
    · simpa [hm, hns] using h.ns t
    · simpa [hm] using h.ns m
  · by_cases hm : m = t
    · simpa [hm, hroot] using h.root t q
    · simpa [hm] using h.root m q

lemma Laid.setState (h : Laid s k) (t : ThreadId) (state : ThreadState) :
    Laid (s.setState t state) (k.setState t state) := by
  have hset := h.setThread { k.thread t with state := state } rfl rfl
  rwa [← h.ctx, Function.update_eq_self] at hset

lemma Laid.setR0 (h : Laid s k) (t : ThreadId) (value : ℕ) :
    Laid (s.setR0 t value) (k.setR0 t value) := by
  have hset := h.setThread { k.thread t with ctx := { (k.thread t).ctx with r0 := value } } rfl rfl
  rw [← h.state, Function.update_eq_self] at hset
  unfold Links.setR0
  rw [h.ctx]
  exact hset

/-! ### Queues -/

/-- The same is returned, and the links are those of the lists. -/
def Returns {α : Type} (r : α × Links) (r' : α × Kernel) : Prop := r.1 = r'.1 ∧ Laid r.2 r'.2

/-- A thread has got into a queue, or out of one. -/
lemma Laid.requeue (h : Laid s k) {queues : Queues ThreadId QueueId} {root : Option QueueId}
    {threads : List ThreadId} (hqueues : Represents queues (Function.update k.queue q threads))
    (hroot : ∀ q', root = some q' ↔ t ∈ Function.update k.queue q threads q')
    (hothers : ∀ m, m ≠ t → (m ∈ threads ↔ m ∈ k.queue q)) :
    Laid { s with queues } ((k.setQueue q threads).setQueueRoot t root) := by
  refine ⟨fun m => ?_, fun m => ?_, fun m => ?_, fun m q' => ?_, hqueues, h.sleepers.congr rfl rfl,
    h.clock⟩
  · by_cases hm : m = t
    · simpa [Kernel.setQueueRoot, hm] using h.ctx t
    · simpa [Kernel.setQueueRoot, hm] using h.ctx m
  · by_cases hm : m = t
    · simpa [Kernel.setQueueRoot, hm] using h.state t
    · simpa [Kernel.setQueueRoot, hm] using h.state m
  · by_cases hm : m = t
    · simpa [Kernel.setQueueRoot, hm] using h.ns t
    · simpa [Kernel.setQueueRoot, hm] using h.ns m
  · by_cases hm : m = t
    · subst hm
      rw [Kernel.setQueueRoot, Kernel.setThread_thread, if_pos rfl]
      exact hroot q'
    · have hold := h.root m q'
      by_cases hq : q' = q
      · subst hq
        simpa [Kernel.setQueueRoot, hm, hothers m hm] using hold
      · simpa [Kernel.setQueueRoot, hm, hq] using hold

lemma Laid.push (h : Laid s k) (q : QueueId) (t : ThreadId) :
    Agree Laid (s.push q t) (k.queuePush q t) := by
  unfold Links.push Kernel.queuePush
  by_cases hroot : (k.thread t).queueRoot = none
  · have hn : ∀ q, t ∉ k.queue q := fun q hmem => by
      rw [← h.root, hroot] at hmem
      cases hmem
    obtain ⟨queues, heq, hqueues⟩ := h.queues.push hn q
    rw [heq, ok_bind, assert, if_pos (by simpa using hroot), ok_bind]
    refine h.requeue hqueues (fun q' => ?_) fun m hm => by simp [hm]
    by_cases hq : q' = q
    · simp [hq]
    · simp [hq, Ne.symm hq, hn q']
  · have hnode : (s.queues.node t).root ≠ none := by rwa [h.node_root]
    simp [queuePush, assert, hroot, hnode, Agree, bind, Except.bind]

lemma Laid.pop (h : Laid s k) (q : QueueId) :
    Agree Returns (s.pop q) (.ok (k.queuePop q)) := by
  obtain ⟨queues, heq, hqueues⟩ := h.queues.pop q
  unfold Links.pop Kernel.queuePop
  rw [heq, ok_bind]
  cases hq : k.queue q with
  | nil =>
    refine ⟨rfl, ?_⟩
    rw [hq, List.tail_nil, ← hq, Function.update_eq_self] at hqueues
    exact ⟨h.ctx, h.state, h.ns, h.root, hqueues, h.sleepers.congr rfl rfl, h.clock⟩
  | cons t threads =>
    refine ⟨rfl, ?_⟩
    rw [hq] at hqueues
    have hnodup : t ∉ threads := by
      have := h.queues.nodup q
      rw [hq] at this
      exact (List.nodup_cons.mp this).1
    have ht : t ∈ k.queue q := by simp [hq]
    refine h.requeue hqueues (fun q' => ?_) fun m hm => by simp [hq, hm]
    by_cases hq' : q' = q
    · simp [hq', hnodup]
    · have hnot : t ∉ k.queue q' := fun hm => hq' (h.queues.queue_eq hm ht)
      simp [hq', hnot]

lemma Laid.remove (h : Laid s k) (t : ThreadId) :
    Agree Laid (s.remove t) (k.queueNodeRemove t) := by
  unfold Links.remove Kernel.queueNodeRemove
  cases hroot : (k.thread t).queueRoot with
  | none =>
    have hnode : (s.queues.node t).root = none := by rw [h.node_root, hroot]
    simp [queueNodeRemove, hnode, Agree, bind, Except.bind]
  | some q =>
    have ht : t ∈ k.queue q := (h.root t q).mp hroot
    obtain ⟨pre, post, hq⟩ := List.append_of_mem ht
    obtain ⟨queues, heq, hqueues⟩ := h.queues.remove hq
    have hnodup := h.queues.nodup q
    have herase : pre ++ post = (k.queue q).erase t := by
      have := congrFun (h.queues.erase_eq hq) q
      rw [Function.update_self] at this
      exact this.symm
    rw [heq, ok_bind]
    rw [herase] at hqueues
    refine h.requeue hqueues (fun q' => ?_) fun m hm => List.mem_erase_of_ne hm
    by_cases hq' : q' = q
    · simp [hq', hnodup.mem_erase_iff]
    · have hnot : t ∉ k.queue q' := fun hm => hq' (h.queues.queue_eq hm ht)
      simp [hq', hnot]

/-! ### `thread.cxx` -/

/-- Both sides test the same. -/
lemma Laid.assert {α β : Type} {R : α → β → Prop} {b c : Bool} {a : Assertion}
    {f : Unit → Except Panic α} {g : Unit → Except Panic β} (hbc : b = c)
    (h : c = true → Agree R (f ()) (g ())) :
    Agree R (Fluke.assert b a >>= f) (Fluke.assert c a >>= g) := by
  subst hbc
  cases b with
  | false => rfl
  | true => exact h rfl

lemma Laid.cancel (h : Laid s k) (t : ThreadId) : Laid (s.cancel t) (k.cancel t) := by
  unfold Kernel.cancel
  by_cases ht : t ∈ k.sleepQueue
  · rw [if_pos ht]
    have hsleepers := h.sleepers
    obtain ⟨pre, post, hl⟩ := List.append_of_mem ht
    have hpre : t ∉ pre := fun hp => by
      have hnodup := hl ▸ hsleepers.nodup
      exact (List.nodup_append.mp hnodup).2.2 t hp t (by simp) rfl
    rw [hl] at hsleepers
    obtain ⟨hsleepers', hcancelled⟩ := hsleepers.cancel
    have herase : k.sleepQueue.erase t = pre ++ post := by
      rw [hl, List.erase_append_right _ hpre, List.erase_cons_head]
    rw [herase]
    refine ⟨fun m => ?_, fun m => ?_, fun m => ?_, fun m q => ?_, ?_, hsleepers', ?_⟩
    · rw [hcancelled.same.ctx, h.ctx]
      by_cases hm : m = t <;> simp [Kernel.setTimeoutNs, hm]
    · rw [hcancelled.same.state, h.state]
      by_cases hm : m = t <;> simp [Kernel.setTimeoutNs, hm]
    · by_cases hm : m = t
      · subst hm
        rw [hcancelled.timeout]
        simp [Kernel.setTimeoutNs, Timeout.zero]
      · rw [hcancelled.others m hm]
        simpa [Kernel.setTimeoutNs, hm] using h.ns m
    · rw [show ((k.setSleepQueue (pre ++ post)).setTimeoutNs t 0).queue q = k.queue q from rfl,
        ← h.root]
      by_cases hm : m = t <;> simp [Kernel.setTimeoutNs, hm]
    · rw [hcancelled.same.queues]
      exact h.queues
    · rw [hcancelled.same.clock]
      exact h.clock
  · rw [if_neg ht]
    have hprev : (s.timeout t).prev = none := h.sleepers.prev_eq_none.mpr ht
    unfold Links.cancel
    rw [hprev]
    exact h

lemma Laid.pushInto (h : Laid s k) (q : QueueId) (t : ThreadId) :
    Agree Laid (s.pushInto q t) (k.pushInto q t) := by
  unfold Links.pushInto Kernel.pushInto
  refine Laid.assert (by rw [h.state]) fun _ => ?_
  refine Laid.assert (by rw [h.node_root]) fun _ => ?_
  by_cases ht : t ∈ k.sleepQueue
  · have hprev : (s.timeout t).prev ≠ none := fun hp => h.sleepers.prev_eq_none.mp hp ht
    simp [Fluke.assert, ht, hprev, Agree, bind, Except.bind]
  · have hzero := h.sleepers.unlinked t ht
    simp only [Fluke.assert, ht, hzero, Timeout.zero, not_false_eq_true, decide_true, if_true,
      ok_bind]
    exact (h.setState t .waiting).push q t

lemma Laid.popFrom (h : Laid s k) (q : QueueId) :
    Agree Returns (s.popFrom q) (k.popFrom q) := by
  unfold Links.popFrom Kernel.popFrom
  obtain ⟨⟨r, s'⟩, heq, hr, h'⟩ := (h.pop q).exists_ok
  rw [heq, ok_bind]
  generalize k.queuePop q = p at hr h'
  obtain ⟨r', k'⟩ := p
  obtain rfl : r = r' := hr
  cases r with
  | none => exact ⟨rfl, h'⟩
  | some t =>
    refine Laid.assert (by rw [h'.state]) fun _ => ?_
    exact ⟨rfl, (h'.setState t .floating).cancel t⟩

/-! ### `schedule.cxx` -/

lemma Laid.scheduleReady (h : Laid s k) (t : ThreadId) :
    Agree Laid (s.scheduleReady t) (k.scheduleReady t) := by
  unfold Links.scheduleReady Kernel.scheduleReady
  exact Laid.assert (by rw [h.state]) fun _ => (h.setState t .ready).push .run t

lemma Laid.runQueuePop (h : Laid s k) : Agree Returns s.runQueuePop k.runQueuePop := by
  unfold Links.runQueuePop Kernel.runQueuePop
  obtain ⟨⟨r, s'⟩, heq, hr, h'⟩ := (h.pop .run).exists_ok
  rw [heq, ok_bind]
  generalize k.queuePop .run = p at hr h'
  obtain ⟨r', k'⟩ := p
  obtain rfl : r = r' := hr
  cases r with
  | none => exact ⟨rfl, h'⟩
  | some t =>
    refine Laid.assert (by rw [h'.state]) fun _ => ?_
    exact ⟨rfl, h'.setState t .floating⟩

/-- The place of a thread among the sleepers -/
lemma Kernel.sleepInsert_eq (timeout : ThreadId → ℕ) (t : ThreadId) (l : List ThreadId) :
    sleepInsert timeout t l = Deadlines.insert timeout t l := by
  induction l with
  | nil => rfl
  | cons m l ih => rw [sleepInsert, Deadlines.insert, ih]

lemma Laid.setTimeout (h : Laid s k) {fuel : ℕ} (hfuel : k.sleepQueue.length < fuel)
    (t : ThreadId) (ns : ℤ) : Agree Laid (s.setTimeout fuel t ns) (k.setTimeout t ns) := by
  have htime : s.nanoseconds.1 = k.nanoseconds.1 := congrFun h.clock 0
  by_cases ht : t ∈ k.sleepQueue
  · have hprev : (s.timeout t).prev ≠ none := fun hp => h.sleepers.prev_eq_none.mp hp ht
    simp [Links.setTimeout, Kernel.setTimeout, Fluke.assert, ht, hprev, Agree, bind, Except.bind]
  · generalize hk₁ : k.tick.setTimeoutNs t (uaddIsize k.nanoseconds.1 ns) = k₁
    have hk₁t : (k₁.thread t).timeout = uaddIsize k.nanoseconds.1 ns := by
      simp [← hk₁, Kernel.setTimeoutNs]
    have hk₁m : ∀ m, m ≠ t → k₁.thread m = k.thread m := fun m hm => by
      simp [← hk₁, Kernel.setTimeoutNs, hm]
    have hset : k.setTimeout t ns = .ok (k₁.setSleepQueue
        (Kernel.sleepInsert (fun t => (k₁.thread t).timeout) t k.sleepQueue)) := by
      unfold Kernel.setTimeout
      simp only [Fluke.assert, ht, not_false_eq_true, decide_true, if_true, ok_bind, ← hk₁]
      rfl
    obtain ⟨pre, post, hl, hinsert, hpre, hpost⟩ :=
      Deadlines.exists_insert_eq (fun t => (k₁.thread t).timeout) t k.sleepQueue
    have hsleepers := h.sleepers
    rw [hl] at hsleepers ht hfuel
    have hns : ∀ m ∈ pre ++ post, (k₁.thread m).timeout = (s.timeout m).ns := fun m hm => by
      have hmt : m ≠ t := fun heq => ht (heq ▸ hm)
      rw [hk₁m m hmt, h.ns]
    have hlength : pre.length < fuel := by
      rw [List.length_append] at hfuel
      omega
    obtain ⟨s', heq, hdone⟩ := hsleepers.setTimeout_eq ht hlength
      (fun m hm => by
        rw [htime, ← hk₁t, ← hns m (List.mem_append_left _ hm)]
        exact hpre m hm)
      (fun m hm => by
        rw [htime, ← hk₁t, ← hns m (List.mem_append_right _ (List.mem_of_mem_head? hm))]
        exact hpost m hm)
    rw [heq, hset, agree_ok, Kernel.sleepInsert_eq, hinsert]
    have hsame := hdone.same
    have hsleepers' : Sleepers s.nanoseconds.2 (pre ++ post) := hsleepers.congr rfl rfl
    refine ⟨fun m => ?_, fun m => ?_, fun m => ?_, fun m q => ?_, ?_,
      hsleepers'.insert ht hdone, ?_⟩
    · rw [hsame.ctx]
      refine (h.ctx m).trans ?_
      by_cases hm : m = t <;> simp [← hk₁, Kernel.setTimeoutNs, hm]
    · rw [hsame.state]
      refine (h.state m).trans ?_
      by_cases hm : m = t <;> simp [← hk₁, Kernel.setTimeoutNs, hm]
    · by_cases hm : m = t
      · subst hm
        rw [hdone.timeout, htime]
        exact hk₁t.symm
      · rw [hdone.others m hm]
        refine (h.ns m).trans ?_
        rw [← hk₁m m hm]
        rfl
    · have hroot := h.root m q
      by_cases hm : m = t
      · simpa [← hk₁, Kernel.setTimeoutNs, hm] using h.root t q
      · simpa [← hk₁, Kernel.setTimeoutNs, hm] using hroot
    · rw [hsame.queues, ← hk₁]
      exact h.queues
    · rw [hsame.clock, ← hk₁]
      exact congrArg (fun clock i => clock (i + 1)) h.clock

lemma Laid.scheduleNanosleep (h : Laid s k) {fuel : ℕ} (hfuel : k.sleepQueue.length < fuel)
    (t : ThreadId) (ns : ℤ) :
    Agree Laid (s.scheduleNanosleep fuel t ns) (k.scheduleNanosleep t ns) := by
  unfold Links.scheduleNanosleep Kernel.scheduleNanosleep
  refine Laid.assert (by rw [h.state]) fun _ => ?_
  refine Laid.assert (by rw [h.node_root]) fun _ => ?_
  exact Laid.assert rfl fun _ => (h.setState t .sleeping).setTimeout hfuel t ns

lemma Kernel.pushInto_sleepQueue (h : k.pushInto q t = .ok k') : k'.sleepQueue = k.sleepQueue := by
  unfold Kernel.pushInto Kernel.queuePush at h
  obtain ⟨_, -, h⟩ := bind_eq_ok.mp h
  obtain ⟨_, -, h⟩ := bind_eq_ok.mp h
  obtain ⟨_, -, h⟩ := bind_eq_ok.mp h
  obtain ⟨_, -, h⟩ := bind_eq_ok.mp h
  cases h
  rfl

lemma Laid.scheduleQueueWithTimeout (h : Laid s k) {fuel : ℕ}
    (hfuel : k.sleepQueue.length < fuel) (t : ThreadId) (q : QueueId) (ns : ℤ) (e : ErrorCode) :
    Agree Laid (s.scheduleQueueWithTimeout fuel t q ns e)
      (k.scheduleQueueWithTimeout t q ns e) := by
  unfold Links.scheduleQueueWithTimeout Kernel.scheduleQueueWithTimeout
  refine Laid.assert rfl fun _ => ?_
  refine ((h.setR0 t _).pushInto q t).bind fun s' k' h' hpushed => ?_
  refine h'.setTimeout ?_ t ns
  rw [Kernel.pushInto_sleepQueue hpushed]
  exact hfuel

lemma Laid.scheduleWake (h : Laid s k) (t : ThreadId) (value : ℕ) :
    Agree Laid (s.scheduleWake t value) (k.scheduleWake t value) := by
  unfold Links.scheduleWake Kernel.scheduleWake
  refine Laid.assert (by rw [h.state]) fun _ => ?_
  refine Laid.assert (by rw [h.node_root]) fun _ => ?_
  exact (((h.setState t .floating).setR0 t value).cancel t).scheduleReady t

/-- Only the run queue has got longer. -/
lemma Kernel.scheduleWake_queue {value : ℕ} (h : k.scheduleWake t value = .ok k') (hq : q ≠ .run) :
    k'.queue q = k.queue q := by
  unfold Kernel.scheduleWake Kernel.scheduleReady Kernel.queuePush at h
  obtain ⟨_, -, h⟩ := bind_eq_ok.mp h
  obtain ⟨_, -, h⟩ := bind_eq_ok.mp h
  obtain ⟨_, -, h⟩ := bind_eq_ok.mp h
  obtain ⟨_, -, h⟩ := bind_eq_ok.mp h
  cases h
  rw [Kernel.setQueueRoot, Kernel.setThread_queue, Kernel.setQueue_queue, if_neg hq]
  unfold Kernel.setState Kernel.cancel
  split_ifs
  · rfl
  · rfl

lemma Laid.scheduleWakeAll (hq : q ≠ .run) (value : ℕ) {threads : List ThreadId} :
    ∀ {s : Links} {k : Kernel} {fuel : ℕ}, Laid s k → k.queue q = threads →
      threads.length < fuel →
        Agree Laid (s.scheduleWakeAll q value fuel) (k.wakeAll q value threads) := by
  induction threads with
  | nil =>
    intro s k fuel h hthreads hfuel
    obtain ⟨fuel, rfl⟩ := Nat.exists_eq_succ_of_ne_zero (Nat.ne_zero_of_lt hfuel)
    have hpop : k.queuePop q = (none, k) := by rw [Kernel.queuePop, hthreads]
    obtain ⟨⟨r, s'⟩, heq, hr, h'⟩ := (h.pop q).exists_ok
    rw [hpop] at hr h'
    obtain rfl : r = none := hr
    rw [Links.scheduleWakeAll, heq]
    exact h'
  | cons t threads ih =>
    intro s k fuel h hthreads hfuel
    obtain ⟨fuel, rfl⟩ := Nat.exists_eq_succ_of_ne_zero (Nat.ne_zero_of_lt hfuel)
    have hpop : k.queuePop q = (some t, (k.setQueue q threads).setQueueRoot t none) := by
      rw [Kernel.queuePop, hthreads]
    obtain ⟨⟨r, s'⟩, heq, hr, h'⟩ := (h.pop q).exists_ok
    rw [hpop] at hr h'
    obtain rfl : r = some t := hr
    rw [Links.scheduleWakeAll, heq, ok_bind, Kernel.wakeAll, hpop]
    refine (h'.scheduleWake t value).bind fun s₁ k₁ h₁ hwoken => ?_
    refine ih h₁ ?_ (Nat.lt_of_succ_lt_succ hfuel)
    rw [Kernel.scheduleWake_queue hwoken hq]
    simp [Kernel.setQueueRoot]

/-! ### `wakeup_sleepers` -/

lemma Kernel.queueNodeRemove_setSleepQueue (k : Kernel) (t : ThreadId) (l : List ThreadId) :
    (k.setSleepQueue l).queueNodeRemove t =
      k.queueNodeRemove t >>= fun k' => .ok (k'.setSleepQueue l) := by
  unfold Kernel.queueNodeRemove
  rw [Kernel.setSleepQueue_thread]
  cases (k.thread t).queueRoot <;> rfl

lemma Kernel.scheduleReady_setSleepQueue (k : Kernel) (t : ThreadId) (l : List ThreadId) :
    (k.setSleepQueue l).scheduleReady t =
      k.scheduleReady t >>= fun k' => .ok (k'.setSleepQueue l) := by
  unfold Kernel.scheduleReady Kernel.queuePush Fluke.assert
  rw [Kernel.setSleepQueue_thread]
  by_cases hstate : (k.thread t).state = .floating
  · by_cases hroot : ((k.setState t .ready).thread t).queueRoot = none
    · have hroot' : (((k.setSleepQueue l).setState t .ready).thread t).queueRoot = none := hroot
      simp only [hstate, hroot, hroot', decide_true, if_true, ok_bind]
      rfl
    · have hroot' : (((k.setSleepQueue l).setState t .ready).thread t).queueRoot ≠ none := hroot
      simp only [hstate, hroot, hroot', decide_true, decide_false, if_true, ok_bind]
      rfl
  · simp only [hstate, decide_false]
    rfl

lemma Links.cut_others (s : Links) (queued : Option ThreadId) : s.SameOthers (s.cut queued) := by
  cases queued with
  | none => exact ⟨rfl, rfl, rfl, rfl⟩
  | some t => exact ⟨rfl, rfl, rfl, rfl⟩

lemma Links.scheduleReady_cut (s : Links) (t : ThreadId) (queued : Option ThreadId) :
    (s.cut queued).scheduleReady t = s.scheduleReady t >>= fun s' => .ok (s'.cut queued) := by
  have hothers := s.cut_others queued
  unfold Links.scheduleReady Links.push
  rw [hothers.state]
  by_cases hstate : s.state t = .floating
  · rw [show ((s.cut queued).setState t .ready).queues = (s.setState t .ready).queues from
      hothers.queues]
    simp only [hstate, decide_true, Fluke.assert, if_true, ok_bind]
    cases Fluke.queuePush .run t (s.setState t .ready).queues with
    | error e => rfl
    | ok queues => cases queued <;> rfl
  · simp only [hstate, decide_false, Fluke.assert]
    rfl

lemma Links.remove_cut (s : Links) (t : ThreadId) (queued : Option ThreadId) :
    (s.cut queued).remove t = s.remove t >>= fun s' => .ok (s'.cut queued) := by
  unfold Links.remove
  rw [(s.cut_others queued).queues]
  cases Fluke.queueNodeRemove t s.queues with
  | error e => rfl
  | ok queues => cases queued <;> rfl

lemma Links.cut_ns (s : Links) (queued : Option ThreadId) (m : ThreadId) :
    ((s.cut queued).timeout m).ns = (s.timeout m).ns := by
  cases queued with
  | none => rfl
  | some t =>
    by_cases hm : m = t
    · simp [Links.cut, hm]
    · simp [Links.cut, hm]

/-- The first thread of the list gets ready, and is not in the list any more. -/
lemma Laid.readySleeper {next : List ThreadId}
    (h : Laid (s.cut (some t)) (k.setSleepQueue (t :: next))) :
    Agree (fun (r : Option ThreadId × Links) (k' : Kernel) =>
        r.1 = next.head? ∧ Laid (r.2.cut next.head?) (k'.setSleepQueue next))
      (((s.setState t .floating).writeTimeout t .zero).scheduleReady t >>= fun s' =>
        .ok ((s.timeout t).next, s'))
      (((k.setState t .floating).setTimeoutNs t 0).scheduleReady t) := by
  have hnext : (s.timeout t).next = next.head? := by
    have hhead := h.sleepers.linked.head.1
    simpa [Links.cut] using hhead
  have hfloating := h.setState t .floating
  have hsame : ((s.setState t .floating).cut (some t)).SameOthers
      (((s.setState t .floating).writeTimeout t .zero).cut next.head?) := by
    have := Links.cut_others ((s.setState t .floating).writeTimeout t .zero) next.head?
    exact ⟨this.ctx, this.state, this.queues, this.clock⟩
  have hlaid : Laid (((s.setState t .floating).writeTimeout t .zero).cut next.head?)
      (((k.setState t .floating).setTimeoutNs t 0).setSleepQueue next) := by
    refine ⟨fun m => ?_, fun m => ?_, fun m => ?_, fun m q => ?_, ?_, ?_, ?_⟩
    · rw [hsame.ctx]
      refine (hfloating.ctx m).trans ?_
      by_cases hm : m = t <;> simp [Kernel.setTimeoutNs, Kernel.setState, hm]
    · rw [hsame.state]
      refine (hfloating.state m).trans ?_
      by_cases hm : m = t <;> simp [Kernel.setTimeoutNs, Kernel.setState, hm]
    · rw [Links.cut_ns]
      have hns := h.ns m
      rw [Links.cut_ns] at hns
      by_cases hm : m = t
      · simp [Kernel.setTimeoutNs, Kernel.setState, hm, Timeout.zero]
      · simpa [Kernel.setTimeoutNs, Kernel.setState, hm] using hns
    · refine Iff.trans ?_ (h.root m q)
      by_cases hm : m = t <;> simp [Kernel.setTimeoutNs, Kernel.setState, hm]
    · rw [hsame.queues]
      exact hfloating.queues
    · have hsleepers : Sleepers ((s.setState t .floating).cut (some t)) (t :: next) :=
        hfloating.sleepers
      exact hsleepers.tail
    · rw [hsame.clock]
      exact hfloating.clock
  have hready := hlaid.scheduleReady t
  rw [Links.scheduleReady_cut, Kernel.scheduleReady_setSleepQueue, agree_bind_ok_left,
    agree_bind_ok_right] at hready
  rw [agree_bind_ok_left]
  exact hready.imp fun s' k' h' => ⟨hnext, h'⟩

/-- Both take the first thread from the list. -/
lemma Laid.wakeSleeper {next : List ThreadId}
    (h : Laid (s.cut (some t)) (k.setSleepQueue (t :: next))) :
    Agree (fun r k' => r.1 = next.head? ∧ Laid (r.2.cut next.head?) (k'.setSleepQueue next))
      (s.wakeSleeper t) (k.wakeSleeper t) := by
  have hstate : s.state t = (k.thread t).state := h.state t
  have hroot : (s.queues.node t).root = (k.thread t).queueRoot := h.node_root t
  unfold Links.wakeSleeper Kernel.wakeSleeper
  rw [hstate, hroot]
  cases hk : (k.thread t).state with
  | waiting =>
    have hremove := h.remove t
    rw [Links.remove_cut, Kernel.queueNodeRemove_setSleepQueue, agree_bind_ok_left,
      agree_bind_ok_right] at hremove
    exact hremove.bind fun s' k' h' _ => h'.readySleeper
  | sleeping => exact Laid.assert rfl fun _ => h.readySleeper
  | _ => rfl

lemma Laid.wakeupLoop {now : ℕ} {l : List ThreadId} : ∀ {s : Links} {k : Kernel} {fuel : ℕ},
    Laid (s.cut l.head?) (k.setSleepQueue l) → l.length < fuel →
      Agree (fun r k' => Laid (r.2.cut r.1) k') (s.wakeupLoop now fuel l.head?)
        (k.wakeupSleepersAt now l) := by
  induction l with
  | nil =>
    intro s k fuel h hfuel
    obtain ⟨fuel, rfl⟩ := Nat.exists_eq_succ_of_ne_zero (Nat.ne_zero_of_lt hfuel)
    exact h
  | cons t next ih =>
    intro s k fuel h hfuel
    obtain ⟨fuel, rfl⟩ := Nat.exists_eq_succ_of_ne_zero (Nat.ne_zero_of_lt hfuel)
    have hns : (s.timeout t).ns = (k.thread t).timeout := by
      rw [← s.cut_ns (some t) t]
      exact h.ns t
    rw [List.head?_cons] at h ⊢
    rw [Links.wakeupLoop, Kernel.wakeupSleepersAt, hns]
    split_ifs
    · refine h.wakeSleeper.bind ?_
      rintro ⟨queued, s'⟩ k' ⟨rfl, h'⟩ -
      exact ih h' (Nat.lt_of_succ_lt_succ hfuel)
    · exact h

lemma Laid.wakeupSleepers (h : Laid s k) {fuel : ℕ} (hfuel : k.sleepQueue.length < fuel) :
    Agree Laid (s.wakeupSleepers fuel) k.wakeupSleepers := by
  have h' : Laid s.nanoseconds.2 k.tick :=
    ⟨h.ctx, h.state, h.ns, h.root, h.queues, h.sleepers.congr rfl rfl,
      congrArg (fun clock i => clock (i + 1)) h.clock⟩
  have hcut := h'.sleepers.cut_eq
  have hloop := @Laid.wakeupLoop k.nanoseconds.1 k.sleepQueue s.nanoseconds.2 k.tick fuel
    (by
      change Laid (s.nanoseconds.2.cut k.tick.sleepQueue.head?) _
      rw [hcut]
      exact h') hfuel
  have htime : s.nanoseconds.1 = k.nanoseconds.1 := congrFun h.clock 0
  change Agree _ (s.nanoseconds.2.wakeupLoop s.nanoseconds.1 fuel s.sleepQueue >>= fun r =>
    .ok (r.2.cut r.1)) (k.tick.wakeupSleepersAt k.nanoseconds.1 k.sleepQueue)
  rw [agree_bind_ok_left, h.sleepers.head, htime]
  exact hloop

end

end Fluke
