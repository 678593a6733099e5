import Fluke.Klib
import Fluke.Library.Linked
import Fluke.Library.Outcome

/-!
# Intrusive queues

A queue knows its first and its last node; a node knows its neighbours and its queue. Nodes and
queues are known by their addresses, of which any number may be in use.

The queues refine a family of lists: `queue_push` appends, `queue_pop` takes the first element,
`queue_node_remove` takes an element out.
-/

namespace Fluke

open Outcome

variable {N Q : Type}

/-- `struct Queue_node` -/
structure QueueNode (N Q : Type) where
  next : Option N
  prev : Option N
  root : Option Q

/-- `struct Queue` -/
structure Queue (N : Type) where
  head : Option N
  tail : Option N

/-- All nodes and all queues. -/
structure Queues (N Q : Type) where
  node : N → QueueNode N Q
  queue : Q → Queue N

/-- What `memset` leaves of a node. -/
def QueueNode.zero : QueueNode N Q := ⟨none, none, none⟩

namespace Queues

section

variable [DecidableEq N]

/-- Overwrite a node. -/
def setNode (s : Queues N Q) (n : N) (node : QueueNode N Q) : Queues N Q :=
  { s with node := Function.update s.node n node }

/-- `n->next = next` -/
def setNext (s : Queues N Q) (n : N) (next : Option N) : Queues N Q :=
  s.setNode n { s.node n with next := next }

/-- `n->prev = prev` -/
def setPrev (s : Queues N Q) (n : N) (prev : Option N) : Queues N Q :=
  s.setNode n { s.node n with prev := prev }

variable (s : Queues N Q) (n : N) (p : Option N)

@[simp] lemma setNode_node (node : QueueNode N Q) :
    (s.setNode n node).node = Function.update s.node n node := rfl

@[simp] lemma setNode_queue (node : QueueNode N Q) : (s.setNode n node).queue = s.queue := rfl

@[simp] lemma setNext_node : (s.setNext n p).node =
    Function.update s.node n { s.node n with next := p } := rfl

@[simp] lemma setNext_queue : (s.setNext n p).queue = s.queue := rfl

@[simp] lemma setPrev_node : (s.setPrev n p).node =
    Function.update s.node n { s.node n with prev := p } := rfl

@[simp] lemma setPrev_queue : (s.setPrev n p).queue = s.queue := rfl

end

section

variable [DecidableEq Q]

/-- `q->head = head` -/
def setHead (s : Queues N Q) (q : Q) (head : Option N) : Queues N Q :=
  { s with queue := Function.update s.queue q { s.queue q with head := head } }

/-- `q->tail = tail` -/
def setTail (s : Queues N Q) (q : Q) (tail : Option N) : Queues N Q :=
  { s with queue := Function.update s.queue q { s.queue q with tail := tail } }

variable (s : Queues N Q) (q : Q) (p : Option N)

@[simp] lemma setHead_node : (s.setHead q p).node = s.node := rfl

@[simp] lemma setHead_queue : (s.setHead q p).queue =
    Function.update s.queue q { s.queue q with head := p } := rfl

@[simp] lemma setTail_node : (s.setTail q p).node = s.node := rfl

@[simp] lemma setTail_queue : (s.setTail q p).queue =
    Function.update s.queue q { s.queue q with tail := p } := rfl

end

end Queues

section

variable [DecidableEq N] [DecidableEq Q]

/-- `queue_pop` -/
def queuePop (queue : Q) (s : Queues N Q) : Except Panic (Option N × Queues N Q) :=
  match (s.queue queue).head with
  | none => .ok (none, s)
  | some node => do
    assert ((s.node node).prev = none) .queueNodeFirst
    assert ((s.node node).root = some queue) .queueNodeRoot
    let s := s.setHead queue (s.node node).next
    let s := match (s.node node).next with
      | some next => s.setPrev next none
      | none => s.setTail queue none
    .ok (some node, s.setNode node .zero)

/-- `queue_push` -/
def queuePush (queue : Q) (node : N) (s : Queues N Q) : Except Panic (Queues N Q) := do
  assert ((s.node node).root = none) .queueNodeFree
  let s := s.setNode node { root := some queue, prev := (s.queue queue).tail, next := none }
  let s := match (s.queue queue).tail with
    | some tail => s.setNext tail (some node)
    | none => s.setHead queue (some node)
  .ok (s.setTail queue (some node))

/-- `queue_node_remove` -/
def queueNodeRemove (node : N) (s : Queues N Q) : Except Panic (Queues N Q) :=
  match (s.node node).root with
  | none => .error (.assertion .queueNodeQueued)
  | some queue =>
    let s := match (s.node node).prev with
      | some prev => s.setNext prev (s.node node).next
      | none => s.setHead queue (s.node node).next
    let s := match (s.node node).next with
      | some next => s.setPrev next (s.node node).prev
      | none => s.setTail queue (s.node node).prev
    .ok (s.setNode node .zero)

end

/-! ### Queues and lists -/

/-- The queues hold the lists. -/
structure Represents (s : Queues N Q) (f : Q → List N) : Prop where
  root : ∀ n q, (s.node n).root = some q ↔ n ∈ f q
  nodup : ∀ q, (f q).Nodup
  head : ∀ q, (s.queue q).head = (f q).head?
  tail : ∀ q, (s.queue q).tail = (f q).getLast?
  linked : ∀ q, Linked (fun n => (s.node n).next) (fun n => (s.node n).prev) id (f q)

section

variable {s s' : Queues N Q} {f : Q → List N} {n : N} {q q' : Q}

/-- A node is in one queue at most. -/
lemma Represents.queue_eq (h : Represents s f) (hq : n ∈ f q) (hq' : n ∈ f q') : q = q' := by
  rw [← h.root] at hq hq'
  exact Option.some_injective _ (hq.symm.trans hq')

lemma Represents.root_eq_none (h : Represents s f) : (s.node n).root = none ↔ ∀ q, n ∉ f q := by
  constructor
  · intro hroot q hmem
    rw [← h.root, hroot] at hmem
    cases hmem
  · intro hnone
    cases hroot : (s.node n).root with
    | none => rfl
    | some q => exact absurd ((h.root n q).mp hroot) (hnone q)

end

section

variable [DecidableEq N] [DecidableEq Q] {s s' : Queues N Q} {f : Q → List N} {n : N} {q q' : Q}

/-! ### `queue_push` -/

/-- What `queue_push` writes. -/
structure Pushed (q : Q) (n : N) (s s' : Queues N Q) : Prop where
  node : s'.node n = ⟨none, (s.queue q).tail, some q⟩
  others : ∀ m, m ≠ n → s'.node m =
    { s.node m with next := if (s.queue q).tail = some m then some n else (s.node m).next }
  queue : s'.queue q = ⟨if (s.queue q).tail = none then some n else (s.queue q).head, some n⟩
  queues : ∀ q', q' ≠ q → s'.queue q' = s.queue q'

lemma queuePush_eq (hroot : (s.node n).root = none) (htail : (s.queue q).tail ≠ some n) :
    ∃ s', queuePush q n s = .ok s' ∧ Pushed q n s s' := by
  unfold queuePush assert
  rw [if_pos (by simpa using hroot), ok_bind]
  refine ⟨_, rfl, ?_⟩
  cases ht : (s.queue q).tail with
  | none =>
    refine ⟨?_, fun m hm => ?_, ?_, fun q' hq' => ?_⟩
    · simp [ht]
    · simp [ht, hm]
    · simp [ht]
    · simp [ht, hq']
  | some t =>
    have hne : n ≠ t := fun heq => htail (by rw [ht, heq])
    refine ⟨?_, fun m hm => ?_, ?_, fun q' hq' => ?_⟩
    · simp [ht, hne]
    · by_cases hmt : m = t
      · subst hmt
        simp [ht, hm]
      · simp [ht, hm, hmt,
          Ne.symm hmt]
    · simp [ht]
    · simp [ht, hq']

/-- A node that is in no queue becomes the last one. -/
lemma Represents.push (h : Represents s f) (hn : ∀ q, n ∉ f q) (q : Q) :
    ∃ s', queuePush q n s = .ok s' ∧ Represents s' (Function.update f q (f q ++ [n])) := by
  have htail : (s.queue q).tail ≠ some n := by
    rw [h.tail q]
    exact fun heq => hn q (List.mem_of_mem_getLast? heq)
  obtain ⟨s', heq, hpushed⟩ := queuePush_eq (h.root_eq_none.mpr hn) htail
  have hnodup : (f q ++ [n]).Nodup := by
    refine List.nodup_append.mpr ⟨h.nodup q, List.nodup_singleton n, fun a ha b hb heq => ?_⟩
    rw [List.mem_singleton] at hb
    exact hn q (hb ▸ heq ▸ ha)
  have hroots : ∀ m, m ≠ n → (s'.node m).root = (s.node m).root := fun m hm => by
    rw [hpushed.others m hm]
  refine ⟨s', heq, fun m q' => ?_, fun q' => ?_, fun q' => ?_, fun q' => ?_, fun q' => ?_⟩
  · by_cases hm : m = n
    · subst hm
      rw [hpushed.node]
      by_cases hq : q' = q
      · simp [hq]
      · simp [hq, Ne.symm hq, hn q']
    · rw [hroots m hm, h.root m q']
      by_cases hq : q' = q
      · simp [hq, hm]
      · simp [hq]
  · by_cases hq : q' = q
    · subst hq
      rw [Function.update_self]
      exact hnodup
    · rw [Function.update_of_ne hq]
      exact h.nodup q'
  · by_cases hq : q' = q
    · subst hq
      rw [hpushed.queue, Function.update_self, h.tail, h.head]
      cases f q' with
      | nil => simp
      | cons a l => simp
    · rw [hpushed.queues q' hq, Function.update_of_ne hq, h.head]
  · by_cases hq : q' = q
    · subst hq
      rw [hpushed.queue, Function.update_self, List.getLast?_concat]
    · rw [hpushed.queues q' hq, Function.update_of_ne hq, h.tail]
  · have hother : ∀ m ∈ f q', m ≠ n := fun m hm heq => hn q' (heq ▸ hm)
    by_cases hq : q' = q
    · subst hq
      rw [Function.update_self]
      refine Linked.insert (by simpa using h.linked q') hnodup ?_ ?_ ?_
      · simp [hpushed.node, h.tail]
      · intro m hm
        rw [List.append_nil] at hm
        rw [hpushed.others m (hother m hm), h.tail]
      · intro m hm
        rw [List.append_nil] at hm
        rw [hpushed.others m (hother m hm)]
        simp
    · rw [Function.update_of_ne hq]
      refine (h.linked q').congr (fun m hm => ?_) fun m hm => ?_
      · rw [hpushed.others m (hother m hm), if_neg]
        rw [h.tail]
        intro hlast
        exact hq (h.queue_eq hm (List.mem_of_mem_getLast? hlast))
      · rw [hpushed.others m (hother m hm)]

/-! ### `queue_node_remove` -/

/-- What `queue_node_remove` writes. -/
structure Unlinked (q : Q) (n : N) (s s' : Queues N Q) : Prop where
  node : s'.node n = .zero
  others : ∀ m, m ≠ n → s'.node m =
    { s.node m with
      next := if (s.node n).prev = some m then (s.node n).next else (s.node m).next
      prev := if (s.node n).next = some m then (s.node n).prev else (s.node m).prev }
  queue : s'.queue q =
    ⟨if (s.node n).prev = none then (s.node n).next else (s.queue q).head,
      if (s.node n).next = none then (s.node n).prev else (s.queue q).tail⟩
  queues : ∀ q', q' ≠ q → s'.queue q' = s.queue q'

lemma queueNodeRemove_eq (hroot : (s.node n).root = some q) (hprev : (s.node n).prev ≠ some n) :
    ∃ s', queueNodeRemove n s = .ok s' ∧ Unlinked q n s s' := by
  unfold queueNodeRemove
  rw [hroot]
  refine ⟨_, rfl, ?_⟩
  cases hp : (s.node n).prev with
  | none =>
    cases hx : (s.node n).next with
    | none =>
      refine ⟨?_, fun m hm => ?_, ?_, fun q' hq' => ?_⟩
      · simp
      · simp [hx, hp, hm]
      · simp [hx, hp]
      · simp [hx, hq']
    | some x =>
      refine ⟨?_, fun m hm => ?_, ?_, fun q' hq' => ?_⟩
      · simp
      · by_cases hmx : m = x
        · subst hmx
          simp [hx, hp, hm]
        · simp [hx, hp, hm, hmx,
            Ne.symm hmx]
      · simp [hx, hp]
      · simp [hx, hq']
  | some p =>
    have hne : n ≠ p := fun heq => hprev (by rw [hp, heq])
    cases hx : (s.node n).next with
    | none =>
      refine ⟨?_, fun m hm => ?_, ?_, fun q' hq' => ?_⟩
      · simp
      · by_cases hmp : m = p
        · subst hmp
          simp [hx, hp, hm, hne]
        · simp [hx, hp, hm, hmp,
            Ne.symm hmp, hne]
      · simp [hx, hp, hne]
      · simp [hx, hq', hne]
    | some x =>
      refine ⟨?_, fun m hm => ?_, ?_, fun q' hq' => ?_⟩
      · simp
      · by_cases hmx : m = x
        · subst hmx
          by_cases hmp : m = p
          · subst hmp
            simp [hx, hp, hm, hne]
          · simp [hx, hp, hm, hne, hmp,
              Ne.symm hmp]
        · by_cases hmp : m = p
          · subst hmp
            simp [hx, hp, hm, hne, hmx,
              Ne.symm hmx]
          · simp [hx, hp, hm, hne, hmx, hmp,
              Ne.symm hmp, Ne.symm hmx]
      · simp [hx, hp, hne]
      · simp [hx, hne]

/-- A node is taken out of its queue. -/
lemma Represents.remove (h : Represents s f) {pre post : List N} (hq : f q = pre ++ n :: post) :
    ∃ s', queueNodeRemove n s = .ok s' ∧ Represents s' (Function.update f q (pre ++ post)) := by
  have hmem : n ∈ f q := by simp [hq]
  have hnodup : (pre ++ n :: post).Nodup := hq ▸ h.nodup q
  have hapart := List.nodup_append.mp hnodup
  obtain ⟨hnext, hprev⟩ := h.linked q pre n post hq
  dsimp only [id] at hnext hprev
  have hpre : n ∉ pre := fun hp => hapart.2.2 n hp n (by simp) rfl
  have hpost : n ∉ post := (List.nodup_cons.mp hapart.2.1).1
  have hprev' : (s.node n).prev ≠ some n := by
    rw [hprev]
    exact fun heq => hpre (List.mem_of_mem_getLast? heq)
  obtain ⟨s', heq, hunlinked⟩ := queueNodeRemove_eq ((h.root n q).mpr hmem) hprev'
  have hroots : ∀ m, m ≠ n → (s'.node m).root = (s.node m).root := fun m hm => by
    rw [hunlinked.others m hm]
  refine ⟨s', heq, fun m q' => ?_, fun q' => ?_, fun q' => ?_, fun q' => ?_, fun q' => ?_⟩
  · by_cases hm : m = n
    · subst hm
      rw [hunlinked.node]
      by_cases hq' : q' = q
      · subst hq'
        simp [QueueNode.zero, hpre, hpost]
      · have hnot : m ∉ f q' := fun hm => hq' (h.queue_eq hm hmem)
        simp [QueueNode.zero, hq', hnot]
    · rw [hroots m hm, h.root m q']
      by_cases hq' : q' = q
      · simp [hq', hq, hm]
      · simp [hq']
  · by_cases hq' : q' = q
    · subst hq'
      rw [Function.update_self]
      exact hnodup.sublist (by simp)
    · rw [Function.update_of_ne hq']
      exact h.nodup q'
  · by_cases hq' : q' = q
    · subst hq'
      rw [hunlinked.queue, Function.update_self, hprev, hnext, h.head, hq]
      cases pre with
      | nil => simp
      | cons a l => simp
    · rw [hunlinked.queues q' hq', Function.update_of_ne hq', h.head]
  · by_cases hq' : q' = q
    · subst hq'
      rw [hunlinked.queue, Function.update_self, hprev, hnext, h.tail, hq]
      rcases List.eq_nil_or_concat' post with rfl | ⟨l, a, rfl⟩
      · simp
      · rw [← List.cons_append, ← List.append_assoc, ← List.append_assoc, List.getLast?_concat,
          List.getLast?_concat]
        simp
    · rw [hunlinked.queues q' hq', Function.update_of_ne hq', h.tail]
  · by_cases hq' : q' = q
    · subst hq'
      rw [Function.update_self]
      have hother : ∀ m ∈ pre ++ post, m ≠ n := by
        rintro m hm rfl
        exact (List.mem_append.mp hm).elim hpre hpost
      refine Linked.remove (hq ▸ h.linked q') hnodup (fun m hm => ?_) fun m hm => ?_
      · rw [hunlinked.others m (hother m hm), hprev, hnext]
      · rw [hunlinked.others m (hother m hm), hprev, hnext]
        rfl
    · rw [Function.update_of_ne hq']
      have hother : ∀ m ∈ f q', m ≠ n := by
        rintro m hm rfl
        exact hq' (h.queue_eq hm hmem)
      have hfar : ∀ m ∈ f q', m ∉ pre ++ n :: post := fun m hm hm' =>
        hq' (h.queue_eq hm (hq ▸ hm'))
      refine (h.linked q').congr (fun m hm => ?_) fun m hm => ?_
      · rw [hunlinked.others m (hother m hm), if_neg]
        rw [hprev]
        exact fun hlast => hfar m hm (List.mem_append_left _ (List.mem_of_mem_getLast? hlast))
      · have hhead : post.head? ≠ some m := fun hhead => hfar m hm
          (List.mem_append_right _ (List.mem_cons_of_mem n (List.mem_of_mem_head? hhead)))
        rw [hunlinked.others m (hother m hm), hnext]
        dsimp only
        rw [if_neg hhead]

/-! ### `queue_pop` -/

/-- Taking the first node is taking it out. -/
lemma Represents.pop (h : Represents s f) (q : Q) :
    ∃ s', queuePop q s = .ok ((f q).head?, s') ∧
      Represents s' (Function.update f q (f q).tail) := by
  cases hq : f q with
  | nil =>
    refine ⟨s, ?_, ?_⟩
    · unfold queuePop
      rw [h.head, hq]
      rfl
    · have hsame : Function.update f q ([] : List N).tail = f := by
        rw [List.tail_nil, ← hq, Function.update_eq_self]
      rwa [hsame]
  | cons n post =>
    obtain ⟨s', heq, hs'⟩ := @Represents.remove _ _ _ _ s f n q h [] post hq
    refine ⟨s', ?_, hs'⟩
    have hprev : (s.node n).prev = none := (h.linked q [] n post hq).2
    have hroot : (s.node n).root = some q := (h.root n q).mpr (by simp [hq])
    have hhead : (s.queue q).head = some n := by rw [h.head, hq, List.head?_cons]
    unfold queueNodeRemove at heq
    unfold queuePop assert
    rw [hhead]
    simp only [hprev, hroot, decide_true, if_true, ok_bind, Queues.setHead_node] at heq ⊢
    cases heq
    rfl

/-! ### Runs -/

/-- A call of one of the three functions. -/
inductive QueueOp (N Q : Type) where
  | push (queue : Q) (node : N)
  | pop (queue : Q)
  | remove (node : N)

/-- One call, and the node it returns. -/
def Queues.step : QueueOp N Q → Queues N Q → Except Panic (Option N × Queues N Q)
  | .push queue node, s => do
    let s ← queuePush queue node s
    .ok (none, s)
  | .pop queue, s => queuePop queue s
  | .remove node, s => do
    let s ← queueNodeRemove node s
    .ok (none, s)

/-- Calls in order, and the nodes they return. -/
def Queues.run : List (QueueOp N Q) → Queues N Q → Except Panic (List (Option N) × Queues N Q)
  | [], s => .ok ([], s)
  | op :: ops, s => do
    let (result, s) ← s.step op
    let (results, s) ← s.run ops
    .ok (result :: results, s)

/-- The same call on lists. -/
def fifoStep : QueueOp N Q → (Q → List N) → Option N × (Q → List N)
  | .push queue node, f => (none, Function.update f queue (f queue ++ [node]))
  | .pop queue, f => ((f queue).head?, Function.update f queue (f queue).tail)
  | .remove node, f => (none, fun queue => (f queue).erase node)

/-- Calls on lists, in order. -/
def fifoRun : List (QueueOp N Q) → (Q → List N) → List (Option N) × (Q → List N)
  | [], f => ([], f)
  | op :: ops, f =>
    let (result, f) := fifoStep op f
    let (results, f) := fifoRun ops f
    (result :: results, f)

/-- A node is pushed when it is in no queue and removed when it is in one. -/
def QueueOp.Admitted : QueueOp N Q → (Q → List N) → Prop
  | .push _ node, f => ∀ queue, node ∉ f queue
  | .pop _, _ => True
  | .remove node, f => ∃ queue, node ∈ f queue

/-- Every call of the run is admitted where it is made. -/
def AdmittedRun : List (QueueOp N Q) → (Q → List N) → Prop
  | [], _ => True
  | op :: ops, f => op.Admitted f ∧ AdmittedRun ops (fifoStep op f).2

lemma Represents.erase_eq (h : Represents s f) {pre post : List N} (hq : f q = pre ++ n :: post) :
    (fun queue => (f queue).erase n) = Function.update f q (pre ++ post) := by
  have hmem : n ∈ f q := by simp [hq]
  funext q'
  by_cases hq' : q' = q
  · subst hq'
    have hpre : n ∉ pre := fun hp =>
      (List.nodup_append.mp (hq ▸ h.nodup q')).2.2 n hp n (by simp) rfl
    rw [Function.update_self, hq, List.erase_append_right _ hpre, List.erase_cons_head]
  · rw [Function.update_of_ne hq', List.erase_of_not_mem]
    exact fun hm => hq' (h.queue_eq hm hmem)

/-- What one call preserves. -/
lemma Represents.step (h : Represents s f) {op : QueueOp N Q} (hop : op.Admitted f) :
    ∃ s', s.step op = .ok ((fifoStep op f).1, s') ∧ Represents s' (fifoStep op f).2 := by
  cases op with
  | push q n =>
    obtain ⟨s', heq, hs'⟩ := h.push hop q
    exact ⟨s', by rw [Queues.step, heq]; rfl, hs'⟩
  | pop q => exact h.pop q
  | remove n =>
    obtain ⟨q, hmem⟩ := hop
    obtain ⟨pre, post, hq⟩ := List.append_of_mem hmem
    obtain ⟨s', heq, hs'⟩ := h.remove hq
    refine ⟨s', by rw [Queues.step, heq]; rfl, ?_⟩
    rw [fifoStep, h.erase_eq hq]
    exact hs'

/-- The queues of every run hold the lists of the run on lists, no assertion fails, and the same
nodes are returned. -/
theorem queues_refine_lists (h : Represents s f) {ops : List (QueueOp N Q)}
    (hops : AdmittedRun ops f) :
    ∃ s', s.run ops = .ok ((fifoRun ops f).1, s') ∧ Represents s' (fifoRun ops f).2 := by
  induction ops generalizing s f with
  | nil => exact ⟨s, rfl, h⟩
  | cons op ops ih =>
    obtain ⟨s₁, hstep, h₁⟩ := h.step hops.1
    obtain ⟨s₂, hrun, h₂⟩ := ih h₁ hops.2
    refine ⟨s₂, ?_, h₂⟩
    rw [Queues.run, hstep, ok_bind]
    dsimp only
    rw [hrun, ok_bind]
    rfl

end

/-- Queues and nodes that were never used. -/
def Queues.zero : Queues N Q := ⟨fun _ => .zero, fun _ => ⟨none, none⟩⟩

lemma represents_zero : Represents (Queues.zero : Queues N Q) fun _ => [] where
  root := by simp [Queues.zero, QueueNode.zero]
  nodup _ := List.nodup_nil
  head _ := rfl
  tail _ := rfl
  linked _ := Linked.nil

/-- Three nodes pass through two queues. -/
theorem queues_refine_lists_three : ∃ s' : Queues ℕ Bool,
    Queues.zero.run [.push true 1, .push true 2, .push true 3, .remove 2, .push false 2,
      .pop true, .pop false, .pop false] =
        .ok ([none, none, none, none, none, some 1, some 2, none], s') ∧
      (s'.queue true).head = some 3 := by
  have hops : AdmittedRun [.push true 1, .push true 2, .push true 3, .remove 2, .push false 2,
      .pop true, .pop false, .pop false] (fun _ : Bool => ([] : List ℕ)) := by
    simp [AdmittedRun, QueueOp.Admitted, fifoStep]
  obtain ⟨s', hrun, hs'⟩ := queues_refine_lists represents_zero hops
  exact ⟨s', hrun, hs'.head true⟩

end Fluke
