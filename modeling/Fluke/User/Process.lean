import Fluke.Containers.Tree.Iteration
import Fluke.User.Thread

/-!
# Threads of a process

A process keeps its threads in a tree that is ordered by their addresses. A new thread goes down
from the root to an empty place and is inserted there; the tree may rotate it up again.

The addresses of the tree nodes stand for those of the threads, at a fixed distance from them.
-/

namespace Fluke

open Outcome

variable {N : Type} [LinearOrder N]

/-- A call of `Process::spawn_thread`: the block that `kalloc` has for the thread, whether it has
one for the floating point state, what `rng` yields, and the arguments. -/
structure SpawnCall (N : Type) where
  thread : Option N
  fpuState : Bool
  priority : ℤ
  code : ℕ
  stack : ℕ
  arg : ℕ

/-- `cpu_context_initialise_user`, with the registers that are not zero -/
def cpuContextInitialiseUser (fpuState : Bool) (code stack : ℕ) : Result Registers :=
  if fpuState then
    .ok { r0 := 0, a0 := 0, a1 := 0, a2 := 0, a3 := 0, a4 := 0, a5 := 0, pc := code, sp := stack }
  else .error .ENOMEM

/-- The loop in `Process::spawn_thread` that looks for the place of a node. -/
def spawnDescend (fuel : ℕ) (node : N) (priority : ℤ) (threads : Tree N) :
    ℕ → N → Except Panic (Tree N)
  | 0, _ => .error .outOfFuel
  | steps + 1, parent =>
    let dir : Bool := parent < node
    match (threads.node parent).child dir with
    | none => threads.insertAt fuel (some parent) dir node priority
    | some child => spawnDescend fuel node priority threads steps child

/-- `Process::spawn_thread`, with the node of the thread and its registers. -/
def spawnThread (fuel : ℕ) (call : SpawnCall N) (threads : Tree N) :
    Except Panic (Result (N × Registers) × Tree N) :=
  match call.thread with
  | none => .ok (.error .ENOMEM, threads)
  | some node =>
    let threads := threads.setNode node .zero
    match cpuContextInitialiseUser call.fpuState call.code call.stack with
    | .error e => .ok (.error e, threads)
    | .ok ctx =>
      match threads.root with
      | some root => do
        let threads ← spawnDescend fuel node call.priority threads fuel root
        .ok (.ok (node, { ctx with a0 := call.arg }), threads)
      | none => do
        let threads ← threads.insertRoot node call.priority
        .ok (.ok (node, { ctx with a0 := call.arg }), threads)

/-- The thread that a call adds, if it succeeds -/
def SpawnCall.spawned (call : SpawnCall N) : Option N :=
  if call.fpuState then call.thread else none

/-- Calls in order, with the threads of those that succeed. -/
def spawnRun (fuel : ℕ) : List (SpawnCall N) → Tree N → Except Panic (List N × Tree N)
  | [], threads => .ok ([], threads)
  | call :: calls, threads => do
    let (r, threads) ← spawnThread fuel call threads
    let (nodes, threads) ← spawnRun fuel calls threads
    match r with
    | .ok (node, _) => .ok (node :: nodes, threads)
    | .error _ => .ok (nodes, threads)

/-- No block is handed out while the thread in it is there. -/
def SpawnsApart : List (SpawnCall N) → List N → Prop
  | [], _ => True
  | call :: calls, live =>
    (∀ node, call.thread = some node → node ∉ live) ∧
      SpawnsApart calls (call.spawned.toList ++ live)

omit [LinearOrder N] in
/-- The order of the list of live threads does not matter. -/
lemma SpawnsApart.congr {calls : List (SpawnCall N)} :
    ∀ {live live' : List N}, SpawnsApart calls live → (∀ m, m ∈ live' ↔ m ∈ live) →
      SpawnsApart calls live' := by
  induction calls with
  | nil => exact fun _ _ => trivial
  | cons call calls ih =>
    intro live live' h hmem
    refine ⟨fun node hnode hlive => h.1 node hnode ((hmem node).mp hlive), ih h.2 fun m => ?_⟩
    rw [List.mem_append, List.mem_append, hmem]

section

open BinTree

variable {t : Tree N} {n : N} {fuel : ℕ} {priority : ℤ}

/-- The threads, from left to right in the tree, are in the order of their addresses. -/
structure ThreadsOk (t : Tree N) (nodes : List N) : Prop where
  treap : IsTreap t nodes
  sorted : nodes.Pairwise (· < ·)

/-- The threads with one more -/
def ThreadsWith (t : Tree N) (n : N) (nodes : List N) : Prop :=
  ∃ nodes', ThreadsOk t nodes' ∧ ∀ m, m ∈ nodes' ↔ m = n ∨ m ∈ nodes

lemma pairwise_insert {before after : List N} (h : (before ++ after).Pairwise (· < ·))
    (hbefore : ∀ m ∈ before, m < n) (hafter : ∀ m ∈ after, n < m) :
    (before ++ n :: after).Pairwise (· < ·) := by
  rw [List.pairwise_append] at h ⊢
  obtain ⟨hb, ha, hba⟩ := h
  refine ⟨hb, List.pairwise_cons.mpr ⟨hafter, ha⟩, fun a ham b hbm => ?_⟩
  rcases List.mem_cons.mp hbm with rfl | hbm
  · exact hbefore a ham
  · exact hba a ham b hbm

/-- A block that is no thread of the tree may be overwritten. -/
lemma ThreadsOk.setNode {nodes : List N} (h : ThreadsOk t nodes) (hn : n ∉ nodes)
    (node : TreeNode N) : ThreadsOk (t.setNode n node) nodes := by
  obtain ⟨⟨b, hb, hheap, rfl⟩, hsorted⟩ := h
  have hne : ∀ m ∈ b.inorder, m ≠ n := fun m hm heq => hn (heq ▸ hm)
  refine ⟨⟨b, ⟨hb.root, hb.links.congr fun m hm => ?_, hb.nodup⟩, hheap.congr fun m hm => ?_, rfl⟩,
    hsorted⟩
  · simp [hne m hm]
  · simp [Tree.prio, hne m hm]

/-- A thread that is inserted next to its parent, on the side that the addresses say -/
lemma ThreadsOk.insertAt {before after : List N} {p : N} (h : ThreadsOk t (before ++ p :: after))
    (hfuel : (before ++ p :: after).length < fuel)
    (hchild : (t.node p).child (decide (p < n)) = none) (hparent : (t.node n).parent = none)
    (hbefore : ∀ m ∈ before, m < n) (hp : p ≠ n) (hafter : ∀ m ∈ after, n < m) (priority : ℤ) :
    ∃ t', t.insertAt fuel (some p) (decide (p < n)) n priority = .ok t' ∧
      ThreadsWith t' n (before ++ p :: after) := by
  have hpair := h.sorted
  rw [List.pairwise_append, List.pairwise_cons] at hpair
  obtain ⟨-, ⟨hpafter, -⟩, hbeforep⟩ := hpair
  have hpbefore : p ∉ before := fun hmem => lt_irrefl p (hbeforep p hmem p List.mem_cons_self)
  have hn : n ∉ before ++ p :: after := by
    rw [List.mem_append, List.mem_cons]
    rintro (hmem | rfl | hmem)
    · exact lt_irrefl n (hbefore n hmem)
    · exact hp rfl
    · exact lt_irrefl n (hafter n hmem)
  obtain ⟨t', heq, htreap, -⟩ := @insertAt_spec _ _ t _ p n _ priority fuel h.treap hfuel (by simp)
    hchild hn hparent
  refine ⟨t', heq, _, ⟨htreap, ?_⟩, fun m => mem_insertBeside (by simp)⟩
  rw [insertBeside_append hpbefore]
  by_cases hlt : p < n
  · have hsplit : before ++ p :: n :: after = (before ++ [p]) ++ n :: after := by simp
    rw [decide_eq_true hlt, if_pos rfl, hsplit]
    refine pairwise_insert (by simpa using h.sorted) (fun m hm => ?_) hafter
    rcases List.mem_append.mp hm with hm | hm
    · exact hbefore m hm
    · rwa [List.mem_singleton.mp hm]
  · rw [decide_eq_false hlt, if_neg Bool.false_ne_true]
    refine pairwise_insert h.sorted hbefore fun m hm => ?_
    have hnp : n < p := lt_of_le_of_ne (not_lt.mp hlt) (Ne.symm hp)
    rcases List.mem_cons.mp hm with rfl | hm
    · exact hnp
    · exact hnp.trans (hpafter m hm)

/-- The loop goes down to the place of the thread: what lies to the left of the way down has a
smaller address, what lies to the right a greater one. -/
lemma spawnDescend_spec {cs : List (Crumb N)} {b : BinTree N} {p : N} {steps : ℕ}
    (h : TreeHolds t (plug cs b)) (hok : ThreadsOk t (plug cs b).inorder)
    (hfuel : (plug cs b).inorder.length < fuel) (hn : n ∉ (plug cs b).inorder)
    (hparent : (t.node n).parent = none) (hp : b.root = some p)
    (hleft : ∀ m ∈ leftOf cs, m < n) (hright : ∀ m ∈ rightOf cs, n < m)
    (hsteps : b.inorder.length ≤ steps) :
    ∃ t', spawnDescend fuel n priority t steps p = .ok t' ∧
      ThreadsWith t' n (plug cs b).inorder := by
  induction b generalizing cs p steps with
  | nil => simp at hp
  | node l a r ihl ihr =>
    rw [root_node, Option.some.injEq] at hp
    subst hp
    rw [inorder_node, List.length_append, List.length_cons] at hsteps
    obtain ⟨steps, rfl⟩ : ∃ k, steps = k + 1 := ⟨steps - 1, by omega⟩
    have hsplit := inorder_plug_node cs l a r
    have hne : a ≠ n := by
      rintro rfl
      exact hn (by simp [hsplit])
    obtain ⟨-, ⟨⟨-, -, hchildl, hchildr⟩, -⟩, -⟩ := h.split
    have hpair := hok.sorted
    rw [hsplit, List.pairwise_append, List.pairwise_cons] at hpair
    obtain ⟨-, ⟨hagt, -⟩, halt⟩ := hpair
    rw [spawnDescend]
    by_cases hlt : a < n
    · have hl : ∀ m ∈ leftOf cs ++ l.inorder, m < n := fun m hm =>
        (halt m hm a List.mem_cons_self).trans hlt
      rw [decide_eq_true hlt, hchildr]
      cases hroot : r.root with
      | none =>
        have hnil : r = .nil := by
          cases r with
          | nil => rfl
          | node _ _ _ => simp at hroot
        subst hnil
        rw [inorder_nil, List.nil_append] at hsplit
        rw [hsplit] at hok hfuel ⊢
        have hins := hok.insertAt hfuel ?_ hparent hl hne hright priority
        · rwa [decide_eq_true hlt] at hins
        · rw [decide_eq_true hlt, hchildr, root_nil]
      | some c =>
        refine @ihr (⟨a, true, l⟩ :: cs) c steps h hok hfuel hn hroot ?_ ?_ (by omega)
        · intro m hm
          have hmem : m ∈ leftOf cs ++ l.inorder ∨ m = a := by simpa [leftOf, or_assoc] using hm
          rcases hmem with hm | rfl
          · exact hl m hm
          · exact hlt
        · simpa [rightOf] using hright
    · have hgt : n < a := lt_of_le_of_ne (not_lt.mp hlt) (Ne.symm hne)
      have hr : ∀ m ∈ r.inorder ++ rightOf cs, n < m := fun m hm => hgt.trans (hagt m hm)
      rw [decide_eq_false hlt, hchildl]
      cases hroot : l.root with
      | none =>
        have hnil : l = .nil := by
          cases l with
          | nil => rfl
          | node _ _ _ => simp at hroot
        subst hnil
        rw [inorder_nil, List.append_nil] at hsplit
        rw [hsplit] at hok hfuel ⊢
        have hins := hok.insertAt hfuel ?_ hparent hleft hne hr priority
        · rwa [decide_eq_false hlt] at hins
        · rw [decide_eq_false hlt, hchildl, root_nil]
      | some c =>
        refine @ihl (⟨a, false, r⟩ :: cs) c steps h hok hfuel hn hroot ?_ ?_ (by omega)
        · simpa [leftOf] using hleft
        · intro m hm
          have hmem : m = a ∨ m ∈ r.inorder ++ rightOf cs := by simpa [rightOf] using hm
          rcases hmem with rfl | hm
          · exact hgt
          · exact hr m hm

/-- What one call does. -/
lemma spawnThread_spec {nodes : List N} (h : ThreadsOk t nodes) (hfuel : nodes.length < fuel)
    (call : SpawnCall N) (hcall : ∀ node, call.thread = some node → node ∉ nodes) :
    ∃ r t' nodes', spawnThread fuel call t = .ok (r, t') ∧ ThreadsOk t' nodes' ∧
      (∀ m, m ∈ nodes' ↔ m ∈ call.spawned.toList ++ nodes) ∧
      call.spawned = r.toOption.map Prod.fst := by
  rw [spawnThread, SpawnCall.spawned]
  cases hthread : call.thread with
  | none => exact ⟨_, t, nodes, rfl, h, by simp, by simp [Except.toOption]⟩
  | some n =>
    have hn : n ∉ nodes := hcall n hthread
    have hok : ThreadsOk (t.setNode n .zero) nodes := h.setNode hn .zero
    have hzero : ((t.setNode n .zero).node n).parent = none := by simp [TreeNode.zero]
    dsimp only
    cases hfpu : call.fpuState with
    | false => exact ⟨_, _, nodes, rfl, hok, by simp, by simp [Except.toOption]⟩
    | true =>
      obtain ⟨⟨b, hb, -, rfl⟩, -⟩ := id hok
      rw [cpuContextInitialiseUser, if_pos rfl]
      dsimp only
      have hroot : (t.setNode n .zero).root = b.root := hb.root
      rw [hroot]
      cases hbroot : b.root with
      | none =>
        have hnil : b = .nil := by
          cases b with
          | nil => rfl
          | node _ _ _ => simp at hbroot
        subst hnil
        obtain ⟨t', heq, htreap, -⟩ := @insertRoot_spec _ _ _ n call.priority hok.treap hzero
        refine ⟨.ok (n, ⟨0, call.arg, 0, 0, 0, 0, 0, call.code, call.stack⟩), t', [n], ?_,
          ⟨htreap, List.pairwise_singleton _ _⟩, by simp, ?_⟩
        · dsimp only
          rw [heq]
          rfl
        · simp [Except.toOption]
      | some root =>
        obtain ⟨t', heq, nodes', hok', hmem⟩ := @spawnDescend_spec _ _ (t.setNode n .zero) n fuel
          call.priority [] b root fuel hb hok hfuel hn hzero hbroot (by simp [leftOf])
          (by simp [rightOf]) hfuel.le
        refine ⟨.ok (n, ⟨0, call.arg, 0, 0, 0, 0, 0, call.code, call.stack⟩), t', nodes', ?_, hok',
          by simpa using hmem, ?_⟩
        · dsimp only
          rw [heq]
          rfl
        · simp [Except.toOption]

lemma ThreadsOk.length_le {nodes nodes' : List N} (h : ThreadsOk t nodes')
    (hmem : ∀ m, m ∈ nodes' → m ∈ nodes) : nodes'.length ≤ nodes.length := by
  have hnodup : nodes'.Nodup := h.sorted.imp fun hlt => hlt.ne
  exact (List.subperm_of_subset hnodup hmem).length_le

/-- A run of calls keeps the order, and adds the threads of the calls that succeed. -/
lemma spawnRun_spec {calls : List (SpawnCall N)} :
    ∀ {t : Tree N} {nodes : List N}, ThreadsOk t nodes → SpawnsApart calls nodes →
      nodes.length + calls.length ≤ fuel →
      ∃ t' nodes', spawnRun fuel calls t = .ok (calls.filterMap SpawnCall.spawned, t') ∧
        ThreadsOk t' nodes' ∧
        ∀ m, m ∈ nodes' ↔ m ∈ calls.filterMap SpawnCall.spawned ∨ m ∈ nodes := by
  induction calls with
  | nil =>
    intro t nodes h _ _
    exact ⟨t, nodes, rfl, h, by simp⟩
  | cons call calls ih =>
    intro t nodes h hapart hfuel
    rw [List.length_cons] at hfuel
    have hlt : nodes.length < fuel := by omega
    obtain ⟨r, t₁, nodes₁, hcall, h₁, hmem₁, hspawned⟩ := spawnThread_spec h hlt call hapart.1
    have hlength : nodes₁.length ≤ (call.spawned.toList ++ nodes).length :=
      h₁.length_le fun m hm => (hmem₁ m).mp hm
    have hone : call.spawned.toList.length ≤ 1 := by
      cases call.spawned <;> simp
    rw [List.length_append] at hlength
    have hapart₁ : SpawnsApart calls nodes₁ := hapart.2.congr hmem₁
    obtain ⟨t', nodes', hrun, h', hmem'⟩ := ih h₁ hapart₁ (by omega)
    refine ⟨t', nodes', ?_, h', fun m => ?_⟩
    · rw [spawnRun, hcall, ok_bind]
      dsimp only
      rw [hrun, ok_bind, List.filterMap_cons, hspawned]
      cases r with
      | ok p => rfl
      | error e => rfl
    · rw [hmem', hmem₁, List.filterMap_cons]
      cases call.spawned with
      | none => simp
      | some n =>
        simp only [Option.toList_some, List.mem_append, List.mem_cons, List.not_mem_nil, or_false]
        tauto

end

/-- Whatever calls of `spawn_thread` are made on a new process, and wherever the threads lie: none
stops in an assertion, and the threads of the process are those of the calls that succeeded, from
left to right in the order of their addresses. -/
theorem spawnRun_sorted {threads : Tree N} (hroot : threads.root = none)
    {calls : List (SpawnCall N)} (hapart : SpawnsApart calls []) {fuel : ℕ}
    (hfuel : calls.length ≤ fuel) :
    ∃ threads' nodes, spawnRun fuel calls threads =
        .ok (calls.filterMap SpawnCall.spawned, threads') ∧
      IsTreap threads' nodes ∧ nodes.Pairwise (· < ·) ∧
      (∀ m, m ∈ nodes ↔ m ∈ calls.filterMap SpawnCall.spawned) ∧
      (do threads'.visit fuel fuel (← threads'.begin fuel)) = .ok nodes := by
  have h : ThreadsOk threads [] :=
    ⟨⟨.nil, ⟨hroot, trivial, by simp⟩, trivial, rfl⟩, List.Pairwise.nil⟩
  obtain ⟨threads', nodes, hrun, h', hmem⟩ := spawnRun_spec h hapart (by simpa using hfuel)
  have hmem' : ∀ m, m ∈ nodes ↔ m ∈ calls.filterMap SpawnCall.spawned := by simpa using hmem
  have hlength := (h'.length_le fun m hm => (hmem' m).mp hm).trans (List.length_filterMap_le _ _)
  refine ⟨threads', nodes, hrun, h'.treap, h'.sorted, hmem', ?_⟩
  obtain ⟨b, hb, -, rfl⟩ := h'.treap
  exact hb.iteration_visit (hlength.trans hfuel)

/-- A thread at 8 after one at 4; in between memory runs out. -/
theorem spawnRun_sorted_two :
    ∃ threads' nodes, spawnRun 3 [⟨some 8, true, 1, 0, 0, 0⟩, ⟨some 4, false, 2, 0, 0, 0⟩,
        ⟨some 4, true, 3, 0, 0, 0⟩] (Tree.zero : Tree ℕ) = .ok ([8, 4], threads') ∧
      IsTreap threads' nodes ∧ nodes.Pairwise (· < ·) ∧ (∀ m, m ∈ nodes ↔ m ∈ [8, 4]) ∧
      (do threads'.visit 3 3 (← threads'.begin 3)) = .ok nodes := by
  refine spawnRun_sorted rfl ?_ (by decide)
  simp [SpawnsApart, SpawnCall.spawned]

end Fluke
