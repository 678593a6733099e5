import Fluke.Containers.Queue
import Fluke.User.Schedule

/-!
# The links of the scheduler

The scheduler keeps its threads in intrusive queues and in the list of sleepers, in which a thread
knows the next thread and the pointer that points to it.
-/

namespace Fluke

open Outcome

/-- The `Thread**` of the list of sleepers -/
inductive TimeoutPlace where
  /-- `&sleep_queue` -/
  | sleepQueue
  /-- `&thread->timeout.next` -/
  | next (thread : ThreadId)
  deriving DecidableEq

/-- `Thread::Timeout` -/
structure Timeout where
  ns : ℕ
  next : Option ThreadId
  prev : Option TimeoutPlace

/-- `Timeout {}` -/
def Timeout.zero : Timeout := ⟨0, none, none⟩

/-- What the scheduler reads and writes: threads with their links, queues, and the list of
sleepers. -/
structure Links where
  ctx : ThreadId → Registers
  state : ThreadId → ThreadState
  timeout : ThreadId → Timeout
  queues : Queues ThreadId QueueId
  sleepQueue : Option ThreadId
  clock : ℕ → ℕ

namespace Links

/-! ### Writes -/

/-- `thread->state = state` -/
def setState (s : Links) (t : ThreadId) (state : ThreadState) : Links :=
  { s with state := Function.update s.state t state }

/-- `CTX_SYS_R0(&thread->ctx) = value` -/
def setR0 (s : Links) (t : ThreadId) (value : ℕ) : Links :=
  { s with ctx := Function.update s.ctx t { s.ctx t with r0 := value } }

/-- `thread->timeout = timeout` -/
def writeTimeout (s : Links) (t : ThreadId) (timeout : Timeout) : Links :=
  { s with timeout := Function.update s.timeout t timeout }

/-- `thread->timeout.prev = place` -/
def setPrev (s : Links) (t : ThreadId) (place : TimeoutPlace) : Links :=
  s.writeTimeout t { s.timeout t with prev := some place }

/-- `*place` -/
def deref (s : Links) : TimeoutPlace → Option ThreadId
  | .sleepQueue => s.sleepQueue
  | .next t => (s.timeout t).next

/-- `*place = thread` -/
def assign (s : Links) (thread : Option ThreadId) : TimeoutPlace → Links
  | .sleepQueue => { s with sleepQueue := thread }
  | .next t => s.writeTimeout t { s.timeout t with next := thread }

/-- `nanoseconds` -/
def nanoseconds (s : Links) : ℕ × Links :=
  (s.clock 0, { s with clock := fun i => s.clock (i + 1) })

section

variable (s : Links) (t m : ThreadId) (timeout : Timeout) (place : TimeoutPlace)
  (thread : Option ThreadId) (state : ThreadState) (value : ℕ)

@[simp] lemma setState_state : (s.setState t state).state = Function.update s.state t state := rfl

@[simp] lemma setState_timeout : (s.setState t state).timeout = s.timeout := rfl

@[simp] lemma setState_sleepQueue : (s.setState t state).sleepQueue = s.sleepQueue := rfl

@[simp] lemma setR0_timeout : (s.setR0 t value).timeout = s.timeout := rfl

@[simp] lemma setR0_sleepQueue : (s.setR0 t value).sleepQueue = s.sleepQueue := rfl

@[simp] lemma writeTimeout_timeout :
    (s.writeTimeout t timeout).timeout = Function.update s.timeout t timeout := rfl

@[simp] lemma writeTimeout_sleepQueue : (s.writeTimeout t timeout).sleepQueue = s.sleepQueue := rfl

@[simp] lemma setPrev_timeout : (s.setPrev t place).timeout =
    Function.update s.timeout t { s.timeout t with prev := some place } := rfl

@[simp] lemma setPrev_sleepQueue : (s.setPrev t place).sleepQueue = s.sleepQueue := rfl

@[simp] lemma assign_sleepQueue : (s.assign thread .sleepQueue).sleepQueue = thread := rfl

@[simp] lemma assign_sleepQueue_timeout : (s.assign thread .sleepQueue).timeout = s.timeout := rfl

@[simp] lemma assign_next :
    s.assign thread (.next t) = s.writeTimeout t { s.timeout t with next := thread } := rfl

@[simp] lemma nanoseconds_timeout : s.nanoseconds.2.timeout = s.timeout := rfl

@[simp] lemma nanoseconds_sleepQueue : s.nanoseconds.2.sleepQueue = s.sleepQueue := rfl

/-- What is written about sleepers is written nowhere else. -/
structure SameOthers (s s' : Links) : Prop where
  ctx : s'.ctx = s.ctx
  state : s'.state = s.state
  queues : s'.queues = s.queues
  clock : s'.clock = s.clock

end

/-! ### `thread.cxx` -/

/-- `queue_push` -/
def push (q : QueueId) (t : ThreadId) (s : Links) : Except Panic Links := do
  let queues ← queuePush q t s.queues
  .ok { s with queues }

/-- `queue_pop` -/
def pop (q : QueueId) (s : Links) : Except Panic (Option ThreadId × Links) := do
  let (t, queues) ← queuePop q s.queues
  .ok (t, { s with queues })

/-- `queue_node_remove` -/
def remove (t : ThreadId) (s : Links) : Except Panic Links := do
  let queues ← queueNodeRemove t s.queues
  .ok { s with queues }

/-- `Thread::push_into` -/
def pushInto (q : QueueId) (t : ThreadId) (s : Links) : Except Panic Links := do
  assert (s.state t = .floating) .threadFloating
  assert ((s.queues.node t).root = none) .threadUnqueued
  assert ((s.timeout t).prev = none) .timeoutUnlinked
  assert ((s.timeout t).next = none) .timeoutUnlinked
  (s.setState t .waiting).push q t

/-- `Thread::Timeout::cancel` -/
def cancel (t : ThreadId) (s : Links) : Links :=
  match (s.timeout t).prev with
  | none => s
  | some prev =>
    let s := match (s.timeout t).next with
      | some next => s.setPrev next prev
      | none => s
    let s := s.assign (s.timeout t).next prev
    s.writeTimeout t .zero

/-- `Thread::pop_from` -/
def popFrom (q : QueueId) (s : Links) : Except Panic (Option ThreadId × Links) := do
  match ← s.pop q with
  | (none, s) => .ok (none, s)
  | (some t, s) => do
    assert (s.state t = .waiting) .threadWaiting
    .ok (some t, (s.setState t .floating).cancel t)

/-! ### `schedule.cxx` -/

/-- `schedule_ready` -/
def scheduleReady (t : ThreadId) (s : Links) : Except Panic Links := do
  assert (s.state t = .floating) .threadFloating
  (s.setState t .ready).push .run t

/-- `run_queue_pop` -/
def runQueuePop (s : Links) : Except Panic (Option ThreadId × Links) := do
  match ← s.pop .run with
  | (none, s) => .ok (none, s)
  | (some t, s) => do
    assert (s.state t = .ready) .threadReady
    .ok (some t, s.setState t .floating)

/-- The loop of `set_timeout`: where the thread is going to be linked in. The thread that follows
there points back to it. `fuel` bounds the length of the list. -/
def setTimeoutLoop (t : ThreadId) (timeout : ℕ) :
    ℕ → TimeoutPlace → Links → Except Panic (TimeoutPlace × Links)
  | 0, _, _ => .error .outOfFuel
  | fuel + 1, queue, s =>
    match s.deref queue with
    | none => .ok (queue, s)
    | some next =>
      if timeout < (s.timeout next).ns then .ok (queue, s.setPrev next (.next t))
      else setTimeoutLoop t timeout fuel (.next next) s

/-- `set_timeout` -/
def setTimeout (fuel : ℕ) (t : ThreadId) (ns : ℤ) (s : Links) : Except Panic Links := do
  assert ((s.timeout t).prev = none) .timeoutUnlinked
  assert ((s.timeout t).next = none) .timeoutUnlinked
  let (now, s) := s.nanoseconds
  let timeout := uaddIsize now ns
  let s := s.writeTimeout t { s.timeout t with ns := timeout }
  let (queue, s) ← setTimeoutLoop t timeout fuel .sleepQueue s
  let s := s.writeTimeout t { s.timeout t with next := s.deref queue }
  let s := s.setPrev t queue
  .ok (s.assign (some t) queue)

/-- `schedule_nanosleep` -/
def scheduleNanosleep (fuel : ℕ) (t : ThreadId) (waitNs : ℤ) (s : Links) :
    Except Panic Links := do
  assert (s.state t = .floating) .threadFloating
  assert ((s.queues.node t).root = none) .threadUnqueued
  let s := s.setState t .sleeping
  assert (waitNs > 0) .waitPositive
  s.setTimeout fuel t waitNs

/-- `schedule_queue_with_timeout` -/
def scheduleQueueWithTimeout (fuel : ℕ) (t : ThreadId) (q : QueueId) (waitNs : ℤ)
    (timeoutReturnValue : ErrorCode) (s : Links) : Except Panic Links := do
  assert (waitNs > 0) .waitPositive
  let s := s.setR0 t timeoutReturnValue.negated
  let s ← s.pushInto q t
  s.setTimeout fuel t waitNs

/-- `schedule_wake` -/
def scheduleWake (t : ThreadId) (returnValue : ℕ) (s : Links) : Except Panic Links := do
  assert (s.state t = .sleeping ∨ s.state t = .waiting) .threadBlocked
  assert ((s.queues.node t).root = none) .threadUnqueued
  let s := s.setState t .floating
  let s := s.setR0 t returnValue
  (s.cancel t).scheduleReady t

/-- `schedule_wake_all`; `fuel` bounds the length of the queue. -/
def scheduleWakeAll (q : QueueId) (returnValue : ℕ) : ℕ → Links → Except Panic Links
  | 0, _ => .error .outOfFuel
  | fuel + 1, s => do
    match ← s.pop q with
    | (none, s) => .ok s
    | (some t, s) => do
      let s ← s.scheduleWake t returnValue
      scheduleWakeAll q returnValue fuel s

/-- One thread that `wakeup_sleepers` takes from the list, and the next one -/
def wakeSleeper (queued : ThreadId) (s : Links) : Except Panic (Option ThreadId × Links) := do
  let s ← match s.state queued with
    | .waiting => s.remove queued
    | .sleeping => do
      assert ((s.queues.node queued).root = none) .threadUnqueued
      .ok s
    | _ => .error .sleepingState
  let s := s.setState queued .floating
  let next := (s.timeout queued).next
  let s := s.writeTimeout queued .zero
  let s ← s.scheduleReady queued
  .ok (next, s)

/-- The loop of `wakeup_sleepers`, which returns the first thread that sleeps on. `fuel` bounds the
length of the list. -/
def wakeupLoop (now : ℕ) : ℕ → Option ThreadId → Links → Except Panic (Option ThreadId × Links)
  | 0, _, _ => .error .outOfFuel
  | _ + 1, none, s => .ok (none, s)
  | fuel + 1, some queued, s =>
    if (s.timeout queued).ns < now then do
      let (next, s) ← s.wakeSleeper queued
      wakeupLoop now fuel next s
    else .ok (some queued, s)

/-- What is done behind the loop -/
def cut (s : Links) (queued : Option ThreadId) : Links :=
  let s := { s with sleepQueue := queued }
  match queued with
  | some queued => s.setPrev queued .sleepQueue
  | none => s

/-- `wakeup_sleepers` -/
def wakeupSleepers (fuel : ℕ) (s : Links) : Except Panic Links := do
  let (now, s) := s.nanoseconds
  let (queued, s) ← wakeupLoop now fuel s.sleepQueue s
  .ok (s.cut queued)

end Links

/-! ### The list of sleepers -/

/-- The pointer behind a thread, or in front of the first one -/
def TimeoutPlace.behind : Option ThreadId → TimeoutPlace
  | none => .sleepQueue
  | some t => .next t

/-- The links make up the list. -/
structure Sleepers (s : Links) (l : List ThreadId) : Prop where
  nodup : l.Nodup
  head : s.sleepQueue = l.head?
  linked : Linked (fun t => (s.timeout t).next) (fun t => (s.timeout t).prev)
    (fun t => some (.behind t)) l
  unlinked : ∀ t, t ∉ l → s.timeout t = .zero

section

variable {s s' : Links} {l pre post : List ThreadId} {t : ThreadId}

lemma Sleepers.congr (h : Sleepers s l) (htimeout : s'.timeout = s.timeout)
    (hhead : s'.sleepQueue = s.sleepQueue) : Sleepers s' l where
  nodup := h.nodup
  head := hhead.trans h.head
  linked := by rw [htimeout]; exact h.linked
  unlinked := by rw [htimeout]; exact h.unlinked

/-- A thread is in the list if a pointer to it is known. -/
lemma Sleepers.prev_eq_none (h : Sleepers s l) : (s.timeout t).prev = none ↔ t ∉ l := by
  constructor
  · intro hprev hmem
    obtain ⟨pre, post, rfl⟩ := List.append_of_mem hmem
    obtain ⟨-, hprev'⟩ := h.linked pre t post rfl
    dsimp only at hprev'
    rw [hprev] at hprev'
    cases hprev'
  · intro hmem
    rw [h.unlinked t hmem]
    rfl

/-- What a pointer of the list points to -/
lemma Sleepers.deref_behind (hhead : s.sleepQueue = (pre ++ post).head?)
    (hlinked : Linked (fun t => (s.timeout t).next) (fun t => (s.timeout t).prev)
      (fun t => some (.behind t)) (pre ++ post)) :
    s.deref (.behind pre.getLast?) = post.head? := by
  rcases List.eq_nil_or_concat' pre with rfl | ⟨pre, m, rfl⟩
  · exact hhead
  · rw [List.getLast?_concat]
    exact (hlinked pre m post (by simp)).1

/-! ### `Thread::Timeout::cancel` -/

/-- What `Thread::Timeout::cancel` writes. -/
structure Cancelled (t : ThreadId) (s s' : Links) : Prop where
  timeout : s'.timeout t = .zero
  others : ∀ m, m ≠ t → s'.timeout m =
    { s.timeout m with
      next := if (s.timeout t).prev = some (.next m) then (s.timeout t).next
        else (s.timeout m).next
      prev := if (s.timeout t).next = some m then (s.timeout t).prev else (s.timeout m).prev }
  sleepQueue : s'.sleepQueue =
    if (s.timeout t).prev = some .sleepQueue then (s.timeout t).next else s.sleepQueue
  same : s.SameOthers s'

lemma Links.cancel_eq {prev : TimeoutPlace} (hprev : (s.timeout t).prev = some prev)
    (hself : (s.timeout t).next ≠ some t) : Cancelled t s (s.cancel t) := by
  unfold Links.cancel
  rw [hprev]
  cases hnext : (s.timeout t).next with
  | none =>
    cases prev with
    | sleepQueue =>
      refine ⟨?_, fun m hm => ?_, ?_, ⟨rfl, rfl, rfl, rfl⟩⟩
      · simp
      · simp [hm, hprev, hnext]
      · simp [hprev, hnext]
    | next p =>
      refine ⟨?_, fun m hm => ?_, ?_, ⟨rfl, rfl, rfl, rfl⟩⟩
      · simp
      · by_cases hp : m = p
        · subst hp
          simp [hm, hprev, hnext]
        · simp [hm, hprev, hnext, hp, Ne.symm hp]
      · simp [hprev, hnext]
  | some x =>
    have hx : x ≠ t := fun heq => hself (by rw [hnext, heq])
    cases prev with
    | sleepQueue =>
      refine ⟨?_, fun m hm => ?_, ?_, ⟨rfl, rfl, rfl, rfl⟩⟩
      · simp
      · by_cases hmx : m = x
        · subst hmx
          simp [hm, hprev, hnext]
        · simp [hm, hprev, hnext, hmx, Ne.symm hmx]
      · simp [hprev, hnext, hx.symm]
    | next p =>
      refine ⟨?_, fun m hm => ?_, ?_, ⟨rfl, rfl, rfl, rfl⟩⟩
      · simp
      · by_cases hmx : m = x
        · subst hmx
          by_cases hp : m = p
          · subst hp
            simp [hm, hprev, hnext, hx.symm]
          · simp [hm, hprev, hnext, hp, Ne.symm hp, hx.symm]
        · by_cases hp : m = p
          · subst hp
            simp [hm, hprev, hnext, hmx, Ne.symm hmx, hx.symm]
          · simp [hm, hprev, hnext, hp, Ne.symm hp, hmx, Ne.symm hmx, hx.symm]
      · simp [hprev]

/-- The thread is taken out of the list. -/
lemma Sleepers.cancel (h : Sleepers s (pre ++ t :: post)) :
    Sleepers (s.cancel t) (pre ++ post) ∧ Cancelled t s (s.cancel t) := by
  obtain ⟨hnext, hprev⟩ := h.linked pre t post rfl
  dsimp only at hnext hprev
  have hapart := List.nodup_append.mp h.nodup
  have hpre : t ∉ pre := fun hp => hapart.2.2 t hp t (by simp) rfl
  have hpost : t ∉ post := (List.nodup_cons.mp hapart.2.1).1
  have hself : (s.timeout t).next ≠ some t := by
    rw [hnext]
    exact fun heq => hpost (List.mem_of_mem_head? heq)
  have hcancelled := Links.cancel_eq hprev hself
  have hother : ∀ m ∈ pre ++ post, m ≠ t := by
    rintro m hm rfl
    exact (List.mem_append.mp hm).elim hpre hpost
  refine ⟨⟨h.nodup.sublist (by simp), ?_, ?_, fun m hm => ?_⟩, hcancelled⟩
  · rw [hcancelled.sleepQueue, hprev, hnext, h.head]
    cases pre with
    | nil => simp [TimeoutPlace.behind]
    | cons a pre =>
      cases hlast : (a :: pre).getLast? with
      | none => simp at hlast
      | some b => simp [TimeoutPlace.behind]
  · refine h.linked.remove h.nodup (fun m hm => ?_) fun m hm => ?_
    · rw [hcancelled.others m (hother m hm), hprev, hnext]
      cases hlast : pre.getLast? with
      | none => simp [TimeoutPlace.behind]
      | some b => simp [TimeoutPlace.behind]
    · rw [hcancelled.others m (hother m hm), hprev, hnext]
  · by_cases hmt : m = t
    · rw [hmt, hcancelled.timeout]
    · have hm' : m ∉ pre ++ t :: post := by
        intro hmem
        rcases List.mem_append.mp hmem with hmem | hmem
        · exact hm (List.mem_append_left _ hmem)
        · rcases List.mem_cons.mp hmem with rfl | hmem
          · exact hmt rfl
          · exact hm (List.mem_append_right _ hmem)
      have hlast : (some (TimeoutPlace.behind pre.getLast?)) ≠ some (.next m) := by
        cases hlast : pre.getLast? with
        | none => simp [TimeoutPlace.behind]
        | some b =>
          simp only [TimeoutPlace.behind, ne_eq, Option.some_inj, TimeoutPlace.next.injEq]
          rintro rfl
          exact hm' (List.mem_append_left _ (List.mem_of_mem_getLast? hlast))
      have hhead : post.head? ≠ some m := fun hhead => hm'
        (List.mem_append_right _ (List.mem_cons_of_mem t (List.mem_of_mem_head? hhead)))
      rw [hcancelled.others m hmt, hprev, hnext, if_neg hlast, if_neg hhead]
      exact h.unlinked m hm'

/-! ### `set_timeout` -/

/-- The loop finds the first thread that is due later. -/
lemma Links.setTimeoutLoop_eq {timeout : ℕ} (hpost : ∀ m, post.head? = some m →
    timeout < (s.timeout m).ns) : ∀ {fuel : ℕ} {front : List ThreadId},
      s.sleepQueue = (front ++ (pre ++ post)).head? →
      Linked (fun t => (s.timeout t).next) (fun t => (s.timeout t).prev)
        (fun t => some (.behind t)) (front ++ (pre ++ post)) →
      (∀ m ∈ pre, (s.timeout m).ns ≤ timeout) → pre.length < fuel →
      setTimeoutLoop t timeout fuel (.behind front.getLast?) s =
        .ok (.behind (front ++ pre).getLast?, match post.head? with
          | some m => s.setPrev m (.next t)
          | none => s) := by
  induction pre with
  | nil =>
    intro fuel front hhead hlinked _ hfuel
    obtain ⟨fuel, rfl⟩ := Nat.exists_eq_succ_of_ne_zero (Nat.ne_zero_of_lt hfuel)
    rw [setTimeoutLoop, Sleepers.deref_behind hhead hlinked, List.nil_append, List.append_nil]
    cases hm : post.head? with
    | none => rfl
    | some m =>
      dsimp only
      rw [if_pos (hpost m hm)]
  | cons a pre ih =>
    intro fuel front hhead hlinked hpre hfuel
    obtain ⟨fuel, rfl⟩ := Nat.exists_eq_succ_of_ne_zero (Nat.ne_zero_of_lt hfuel)
    have hrest := @ih fuel (front ++ [a]) (by simpa using hhead) (by simpa using hlinked)
      (fun m hm => hpre m (List.mem_cons_of_mem a hm)) (Nat.lt_of_succ_lt_succ hfuel)
    rw [List.getLast?_concat] at hrest
    rw [setTimeoutLoop, Sleepers.deref_behind hhead hlinked, List.cons_append, List.head?_cons]
    dsimp only
    rw [if_neg (Nat.not_lt.mpr (hpre a List.mem_cons_self))]
    simpa [TimeoutPlace.behind] using hrest

/-- What `set_timeout` writes. -/
structure TimeoutSet (t : ThreadId) (timeout : ℕ) (pre post : List ThreadId) (s s' : Links) :
    Prop where
  timeout : s'.timeout t = ⟨timeout, post.head?, some (.behind pre.getLast?)⟩
  others : ∀ m, m ≠ t → s'.timeout m =
    { s.timeout m with
      next := if pre.getLast? = some m then some t else (s.timeout m).next
      prev := if post.head? = some m then some (.next t) else (s.timeout m).prev }
  sleepQueue : s'.sleepQueue = if pre = [] then some t else s.sleepQueue
  same : s.SameOthers s'

/-- The thread is linked in behind the loop. -/
lemma Sleepers.linkIn_eq {timeout : ℕ} {s₁ : Links} (h : Sleepers s (pre ++ post))
    (ht : t ∉ pre ++ post) (hs₁ : s₁ = match post.head? with
      | some m => (s.writeTimeout t ⟨timeout, none, none⟩).setPrev m (.next t)
      | none => s.writeTimeout t ⟨timeout, none, none⟩) {place : TimeoutPlace}
    (hplace : place = .behind pre.getLast?) :
    TimeoutSet t timeout pre post s
      (((s₁.writeTimeout t { s₁.timeout t with next := s₁.deref place }).setPrev t place).assign
        (some t) place) := by
  have hnot : post.head? ≠ some t := fun heq =>
    ht (List.mem_append_right _ (List.mem_of_mem_head? heq))
  have hlast : pre.getLast? ≠ some t := fun heq =>
    ht (List.mem_append_left _ (List.mem_of_mem_getLast? heq))
  have hs₁t : s₁.timeout t = ⟨timeout, none, none⟩ := by
    cases hm : post.head? with
    | none => simp [hs₁, hm]
    | some m =>
      have hmt : t ≠ m := fun heq => hnot (heq ▸ hm)
      simp [hs₁, hm, hmt]
  have hs₁m : ∀ m, m ≠ t → s₁.timeout m = { s.timeout m with
      prev := if post.head? = some m then some (.next t) else (s.timeout m).prev } := by
    intro m hmt
    cases hx : post.head? with
    | none => simp [hs₁, hx, hmt]
    | some x =>
      by_cases hmx : m = x
      · subst hmx
        simp [hs₁, hx, hmt]
      · simp [hs₁, hx, hmt, hmx, Ne.symm hmx]
  have hs₁head : s₁.sleepQueue = s.sleepQueue ∧ s.SameOthers s₁ := by
    rw [hs₁]
    cases post.head? with
    | none => exact ⟨rfl, rfl, rfl, rfl, rfl⟩
    | some m => exact ⟨rfl, rfl, rfl, rfl, rfl⟩
  have hderef : s₁.deref place = post.head? := by
    rw [← deref_behind h.head h.linked, hplace]
    cases hp : pre.getLast? with
    | none => exact hs₁head.1
    | some p =>
      have hpt : p ≠ t := fun heq => hlast (heq ▸ hp)
      simp [TimeoutPlace.behind, Links.deref, hs₁m p hpt]
  obtain ⟨hsleep, hsame⟩ := hs₁head
  rw [hderef, hplace]
  cases hp : pre.getLast? with
  | none =>
    obtain rfl : pre = [] := by simpa using hp
    refine ⟨?_, fun m hm => ?_, ?_, ⟨hsame.ctx, hsame.state, hsame.queues, hsame.clock⟩⟩
    · simp [TimeoutPlace.behind, hs₁t]
    · simp [TimeoutPlace.behind, hm, hs₁m m hm]
    · simp [TimeoutPlace.behind]
  | some p =>
    have hpt : p ≠ t := fun heq => hlast (heq ▸ hp)
    have hne : pre ≠ [] := by
      rintro rfl
      simp at hp
    refine ⟨?_, fun m hm => ?_, ?_, ⟨hsame.ctx, hsame.state, hsame.queues, hsame.clock⟩⟩
    · simp [TimeoutPlace.behind, hs₁t, hp, hpt.symm]
    · by_cases hmp : m = p
      · subst hmp
        simp [TimeoutPlace.behind, hm, hs₁m m hm, hp]
      · simp [TimeoutPlace.behind, hm, hs₁m m hm, hp, hmp, Ne.symm hmp]
    · simp [TimeoutPlace.behind, hne, hsleep]

lemma Sleepers.setTimeout_eq {fuel : ℕ} {ns : ℤ} (h : Sleepers s (pre ++ post))
    (ht : t ∉ pre ++ post) (hfuel : pre.length < fuel)
    (hpre : ∀ m ∈ pre, (s.timeout m).ns ≤ uaddIsize s.nanoseconds.1 ns)
    (hpost : ∀ m, post.head? = some m → uaddIsize s.nanoseconds.1 ns < (s.timeout m).ns) :
    ∃ s', s.setTimeout fuel t ns = .ok s' ∧
      TimeoutSet t (uaddIsize s.nanoseconds.1 ns) pre post s.nanoseconds.2 s' := by
  have hzero : s.timeout t = .zero := h.unlinked t ht
  have hne : ∀ m ∈ pre ++ post, m ≠ t := fun m hm heq => ht (heq ▸ hm)
  unfold Links.setTimeout assert
  simp only [hzero, Links.nanoseconds_timeout, Timeout.zero, decide_true, if_true, ok_bind]
  generalize uaddIsize s.nanoseconds.1 ns = timeout at hpre hpost ⊢
  -- the thread is not in the list when its deadline is written
  have hloop := @Links.setTimeoutLoop_eq
    (s.nanoseconds.2.writeTimeout t ⟨timeout, none, none⟩) pre post t timeout
    (fun m hm => by
      have hm' : m ≠ t := hne m (List.mem_append_right _ (List.mem_of_mem_head? hm))
      simpa [hm'] using hpost m hm)
    fuel [] h.head
    (h.linked.congr (fun m hm => by simp [hne m hm]) (fun m hm => by simp [hne m hm]))
    (fun m hm => by
      have hm' : m ≠ t := hne m (List.mem_append_left _ hm)
      simpa [hm'] using hpre m hm) hfuel
  have h' : Sleepers s.nanoseconds.2 (pre ++ post) := h.congr rfl rfl
  refine ⟨_, ?_, h'.linkIn_eq ht rfl rfl⟩
  exact congrArg (· >>= _) hloop

/-- The thread is in the list. -/
lemma Sleepers.insert {timeout : ℕ} (h : Sleepers s (pre ++ post)) (ht : t ∉ pre ++ post)
    (hset : TimeoutSet t timeout pre post s s') : Sleepers s' (pre ++ t :: post) := by
  have hne : ∀ m ∈ pre ++ post, m ≠ t := fun m hm heq => ht (heq ▸ hm)
  have hnodup : (pre ++ t :: post).Nodup :=
    List.nodup_middle.mpr (List.nodup_cons.mpr ⟨ht, h.nodup⟩)
  refine ⟨hnodup, ?_, ?_, fun m hm => ?_⟩
  · rw [hset.sleepQueue, h.head]
    cases pre with
    | nil => simp
    | cons a pre => simp
  · refine h.linked.insert hnodup ?_ (fun m hm => ?_) fun m hm => ?_
    · rw [hset.timeout]
      exact ⟨rfl, rfl⟩
    · rw [hset.others m (hne m hm)]
    · rw [hset.others m (hne m hm)]
      rfl
  · have hm' : m ≠ t ∧ m ∉ pre ++ post := by
      simp only [List.mem_append, List.mem_cons, not_or] at hm ⊢
      exact ⟨hm.2.1, hm.1, hm.2.2⟩
    have hlast : pre.getLast? ≠ some m := fun heq =>
      hm'.2 (List.mem_append_left _ (List.mem_of_mem_getLast? heq))
    have hhead : post.head? ≠ some m := fun heq =>
      hm'.2 (List.mem_append_right _ (List.mem_of_mem_head? heq))
    rw [hset.others m hm'.1, if_neg hlast, if_neg hhead]
    exact h.unlinked m hm'.2

/-! ### `wakeup_sleepers` -/

/-- The first thread has left the list, and its links are gone. -/
lemma Sleepers.tail (h : Sleepers (s.cut (some t)) (t :: post)) :
    Sleepers ((s.writeTimeout t .zero).cut post.head?) post := by
  obtain ⟨ht, hnodup⟩ := List.nodup_cons.mp h.nodup
  have hne : ∀ m ∈ post, m ≠ t := fun m hm heq => ht (heq ▸ hm)
  refine ⟨hnodup, ?_, ?_, fun m hm => ?_⟩
  · cases post <;> rfl
  · have hlinked : Linked (fun m => ((s.cut (some t)).timeout m).next)
        (fun m => ((s.cut (some t)).timeout m).prev) (fun m => some (.behind m)) ([t] ++ post) :=
      h.linked
    refine hlinked.detach h.nodup (fun m hm => ?_) fun m hm => ?_
    · cases hx : post.head? with
      | none => simp [Links.cut, hne m hm]
      | some x =>
        by_cases hmx : m = x
        · subst hmx
          simp [Links.cut, hne m hm]
        · simp [Links.cut, hne m hm, hmx]
    · cases hx : post.head? with
      | none => simp [Links.cut, hne m hm]
      | some x =>
        by_cases hmx : m = x
        · subst hmx
          simp [Links.cut, TimeoutPlace.behind]
        · simp [Links.cut, hne m hm, hmx, Ne.symm hmx]
  · have hhead : ∀ x, post.head? = some x → m ≠ x := by
      rintro x hx rfl
      exact hm (List.mem_of_mem_head? hx)
    have hold : m ≠ t → s.timeout m = .zero := fun hmt => by
      have := h.unlinked m (by simp [hmt, hm])
      simpa [Links.cut, hmt] using this
    cases hx : post.head? with
    | none =>
      by_cases hmt : m = t
      · simp [Links.cut, hmt]
      · simp [Links.cut, hmt, hold hmt]
    | some x =>
      by_cases hmt : m = t
      · have htx : t ≠ x := hmt ▸ hhead x hx
        simp [Links.cut, hmt, htx]
      · simp [Links.cut, hmt, hold hmt, hhead x hx]

/-- The links say that the first thread is the first one. -/
lemma Sleepers.cut_eq (h : Sleepers s l) : s.cut l.head? = s := by
  have hprev : ∀ m, l.head? = some m → (s.timeout m).prev = some .sleepQueue := by
    intro m hm
    cases l with
    | nil => cases hm
    | cons a l =>
      obtain rfl : a = m := by simpa using hm
      exact h.linked.head.2
  have hsleep : ({ s with sleepQueue := l.head? } : Links) = s := by rw [← h.head]
  unfold Links.cut
  dsimp only
  rw [hsleep]
  cases hm : l.head? with
  | none => rfl
  | some m =>
    have hsame : Function.update s.timeout m { s.timeout m with prev := some .sleepQueue } =
        s.timeout := by
      rw [← hprev m hm, Function.update_eq_self]
    dsimp only
    unfold Links.setPrev Links.writeTimeout
    rw [hsame]

end

end Fluke
