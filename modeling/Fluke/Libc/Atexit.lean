import Fluke.Library.Slots

/-!
# Exit handlers

`atexit` puts a handler into the first free slot, and `exit` calls the slots from the last one down
without clearing them. The slots are filled in the order of registration, so the handlers run in
reverse order. A handler that is registered by a handler lands in a slot that has been passed.
-/

namespace Fluke.Libc

/-- The length of `atexit_array` -/
abbrev atexitMax : ℕ := 64

/-- `atexit`; nothing stands for a null pointer. -/
def atexit {H : Type} (array : Fin atexitMax → Option H) :
    Option H → ℤ × (Fin atexitMax → Option H)
  | none => (0, array)
  | some p =>
    match firstFree array with
    | some i => (0, Function.update array i (some p))
    | none => (-1, array)

/-- A program on its way out: `atexit_array`, the handlers registered and run so far, and whatever
else the handlers work on -/
structure ExitState (H σ : Type) where
  array : Fin atexitMax → Option H
  registered : List H
  ran : List H
  program : σ

namespace ExitState

variable {H σ : Type}

/-- A program that has registered nothing -/
def start (program : σ) : ExitState H σ := ⟨fun _ => none, [], [], program⟩

/-- A call of `atexit` -/
def register (st : ExitState H σ) (p : Option H) : ExitState H σ :=
  { st with array := (atexit st.array p).2, registered := st.registered ++ p.toList }

/-- Calls of `atexit` in a row -/
def registerAll (st : ExitState H σ) (ps : List (Option H)) : ExitState H σ :=
  ps.foldl register st

/-- A handler runs. It may call `atexit`. -/
def call (run : H → σ → List (Option H) × σ) (h : H) (st : ExitState H σ) : ExitState H σ :=
  { st with ran := st.ran ++ [h], program := (run h st.program).2 }.registerAll
    (run h st.program).1

/-- The loop of `__libc_do_atexit`, with the slots below `k` to go -/
def sweep (run : H → σ → List (Option H) × σ) : (k : ℕ) → k ≤ atexitMax → ExitState H σ →
    ExitState H σ
  | 0, _, st => st
  | i + 1, hi, st =>
    match st.array ⟨i, hi⟩ with
    | some h => sweep run i (Nat.le_of_lt hi) (st.call run h)
    | none => sweep run i (Nat.le_of_lt hi) st

/-- `__libc_do_atexit`, after which `exit` leaves the process -/
def libcDoAtexit (run : H → σ → List (Option H) × σ) (st : ExitState H σ) : ExitState H σ :=
  st.sweep run atexitMax le_rfl

/-- Running the handlers in this order, none of them registers another one. -/
def Quiet (run : H → σ → List (Option H) × σ) : List H → σ → Prop
  | [], _ => True
  | h :: hs, program => (run h program).1.reduceOption = [] ∧ Quiet run hs (run h program).2

section

variable {run : H → σ → List (Option H) × σ} {st : ExitState H σ} {ps : List (Option H)} {k : ℕ}

/-! ### Registration -/

/-- The slots hold the handlers in the order of registration. -/
def Filled (st : ExitState H σ) : Prop := HoldsList st.array st.registered

lemma registered_registerAll (st : ExitState H σ) (ps : List (Option H)) :
    (st.registerAll ps).registered = st.registered ++ ps.reduceOption := by
  induction ps generalizing st with
  | nil => exact (List.append_nil _).symm
  | cons p ps ih =>
    have hrest := ih (st.register p)
    rw [register, List.append_assoc] at hrest
    cases p with
    | none => exact hrest
    | some p => exact hrest

lemma ran_registerAll (st : ExitState H σ) (ps : List (Option H)) :
    (st.registerAll ps).ran = st.ran := by
  induction ps generalizing st with
  | nil => rfl
  | cons p ps ih => exact ih (st.register p)

lemma program_registerAll (st : ExitState H σ) (ps : List (Option H)) :
    (st.registerAll ps).program = st.program := by
  induction ps generalizing st with
  | nil => rfl
  | cons p ps ih => exact ih (st.register p)

lemma Filled.register (h : st.Filled) {p : Option H}
    (hmax : (st.register p).registered.length ≤ atexitMax) : (st.register p).Filled := by
  cases p with
  | none =>
    rw [Filled, ExitState.register, Option.toList_none, List.append_nil]
    exact h
  | some p =>
    rw [ExitState.register, List.length_append] at hmax
    have hlt : st.registered.length < atexitMax := hmax
    rw [Filled, ExitState.register, atexit, HoldsList.firstFree_eq h hlt]
    exact HoldsList.update h hlt p

lemma Filled.registerAll (h : st.Filled)
    (hmax : (st.registerAll ps).registered.length ≤ atexitMax) : (st.registerAll ps).Filled := by
  induction ps generalizing st with
  | nil => exact h
  | cons p ps ih =>
    refine ih (h.register ?_) hmax
    have hgrow := registered_registerAll (st.register p) ps
    change (st.registerAll (p :: ps)).registered = _ at hgrow
    rw [hgrow, List.length_append] at hmax
    omega

/-! ### The sweep -/

@[simp] lemma registered_call (h : H) (st : ExitState H σ) :
    (st.call run h).registered = st.registered ++ (run h st.program).1.reduceOption :=
  registered_registerAll _ _

@[simp] lemma ran_call (h : H) (st : ExitState H σ) : (st.call run h).ran = st.ran ++ [h] :=
  ran_registerAll _ _

@[simp] lemma program_call (h : H) (st : ExitState H σ) :
    (st.call run h).program = (run h st.program).2 :=
  program_registerAll _ _

/-- Handlers are only added to those registered. -/
lemma registered_sweep (hk : k ≤ atexitMax) (st : ExitState H σ) :
    st.registered <+: (st.sweep run k hk).registered := by
  induction k generalizing st with
  | zero => exact List.prefix_rfl
  | succ k ih =>
    rw [sweep]
    split
    · rename_i h _
      refine List.IsPrefix.trans ?_ (ih _ (st.call run h))
      rw [registered_call]
      exact List.prefix_append ..
    · exact ih _ st

/-- The sweep below `k` runs the first `k` handlers, the last of them first. What they register is
not run, because it lies behind them. -/
lemma sweep_spec (hk : k ≤ atexitMax) (hfilled : st.Filled)
    (hmax : (st.sweep run k hk).registered.length ≤ atexitMax) :
    (st.sweep run k hk).ran = st.ran ++ (st.registered.take k).reverse ∧
      ((st.sweep run k hk).registered = st.registered ↔
        Quiet run (st.registered.take k).reverse st.program) := by
  induction k generalizing st with
  | zero => exact ⟨(List.append_nil _).symm, iff_of_true rfl trivial⟩
  | succ k ih =>
    have hslot : st.array ⟨k, hk⟩ = st.registered[k]? := hfilled ⟨k, hk⟩
    cases harray : st.array ⟨k, hk⟩ with
    | none =>
      have hsweep : st.sweep run (k + 1) hk = st.sweep run k (Nat.le_of_lt hk) := by
        rw [sweep, harray]
      have htake : st.registered.take (k + 1) = st.registered.take k := by
        rw [List.take_add_one, ← hslot, harray]
        exact List.append_nil _
      rw [hsweep] at hmax ⊢
      rw [htake]
      exact ih (Nat.le_of_lt hk) hfilled hmax
    | some h =>
      have hsweep : st.sweep run (k + 1) hk = (st.call run h).sweep run k (Nat.le_of_lt hk) := by
        rw [sweep, harray]
      have htake : (st.registered.take (k + 1)).reverse = h :: (st.registered.take k).reverse := by
        rw [List.take_add_one, ← hslot, harray]
        exact List.reverse_concat' ..
      have hlt : k < st.registered.length := by
        by_contra hge
        rw [List.getElem?_eq_none (Nat.le_of_not_lt hge), harray] at hslot
        cases hslot
      have hgrow := @registered_sweep H σ run k (Nat.le_of_lt hk) (st.call run h)
      rw [hsweep] at hmax ⊢
      have hstart : Filled
          { st with ran := st.ran ++ [h], program := (run h st.program).2 } := hfilled
      have hcall : (st.call run h).Filled :=
        hstart.registerAll (hgrow.length_le.trans hmax)
      obtain ⟨hran, hregistered⟩ := ih (Nat.le_of_lt hk) hcall hmax
      -- what the handler registers lies behind the slots to go
      have hkept : (st.call run h).registered.take k = st.registered.take k := by
        rw [registered_call, List.take_append_of_le_length hlt.le]
      rw [hkept, program_call] at hregistered
      refine ⟨?_, ?_⟩
      · rw [hran, hkept, ran_call, htake, List.append_assoc]
        rfl
      · rw [htake, Quiet, ← hregistered]
        constructor
        · intro heq
          have hnone : (run h st.program).1.reduceOption = [] := by
            rw [heq, registered_call] at hgrow
            have hlength := hgrow.length_le
            rw [List.length_append] at hlength
            exact List.eq_nil_of_length_eq_zero (by omega)
          refine ⟨hnone, ?_⟩
          rw [heq, registered_call, hnone, List.append_nil]
        · rintro ⟨hnone, heq⟩
          rw [heq, registered_call, hnone, List.append_nil]

end

end ExitState

open ExitState

/-- `exit` of a program that has made the calls of `atexit` -/
def exit {H σ : Type} (run : H → σ → List (Option H) × σ) (before : List (Option H))
    (program : σ) : ExitState H σ :=
  ((start program).registerAll before).libcDoAtexit run

/-- The handlers registered before `exit` run in reverse order. Every handler runs once if and only
if none of them registers another one. -/
theorem exit_runs_iff {H σ : Type} (run : H → σ → List (Option H) × σ) (before : List (Option H))
    (program : σ) (htotal : (exit run before program).registered.length ≤ 64) :
    (exit run before program).ran = before.reduceOption.reverse ∧
      ((exit run before program).ran.Perm (exit run before program).registered ↔
        Quiet run before.reduceOption.reverse program) := by
  have hregistered : ((start program).registerAll before).registered = before.reduceOption :=
    registered_registerAll (start program) before
  have hprogram : ((start program).registerAll before).program = program :=
    program_registerAll (start program) before
  have hran : ((start program).registerAll before).ran = [] :=
    ran_registerAll (start program) before
  have hgrow := @registered_sweep H σ run atexitMax le_rfl ((start program).registerAll before)
  have hmax := hgrow.length_le.trans htotal
  have hfilled : ((start program).registerAll before).Filled :=
    Filled.registerAll holdsList_nil hmax
  obtain ⟨hruns, hquiet⟩ := sweep_spec le_rfl hfilled htotal
  rw [List.take_of_length_le hmax, hregistered, hprogram] at hquiet
  rw [List.take_of_length_le hmax, hregistered, hran, List.nil_append] at hruns
  rw [hregistered] at hgrow
  refine ⟨hruns, ?_⟩
  rw [← hquiet]
  constructor
  · intro hperm
    have hlength := hperm.length_eq
    rw [exit, libcDoAtexit, hruns, List.length_reverse] at hlength
    exact (hgrow.eq_of_length hlength).symm
  · intro heq
    rw [exit, libcDoAtexit, hruns, heq]
    exact List.reverse_perm _

/-- Two handlers that register nothing -/
theorem exit_runs_iff_quiet :
    (exit (fun _ _ => ([], ())) [some 1, none, some 2] ()).ran = [2, 1] :=
  (exit_runs_iff (fun _ _ => ([], ())) [some 1, none, some 2] () (by decide)).1

/-- A handler that is registered by a handler does not run. -/
theorem exit_runs_counterexample :
    (exit (fun h (_ : Unit) => (if h = 1 then [some 2] else [], ())) [some 1] ()).registered =
        [1, 2] ∧
      (exit (fun h (_ : Unit) => (if h = 1 then [some 2] else [], ())) [some 1] ()).ran = [1] := by
  decide

end Fluke.Libc
