import Mathlib.Tactic

/-!
# Steps that may stop

A step of a program either returns a value or stops with an error. `Ensures E Q x` says what
is known of `x` in both cases: `Q` of the value, `E` of the error. The rules below follow the
way such steps are put together: sequencing, branching and a loop over a list.

`Reachable` closes a step function under runs of any length, where each step may be restricted
to the inputs a guard admits. `Reachable.invariant` is the induction every safety result uses.
-/

namespace Outcome

universe u v w

variable {ε : Type v} {α β σ : Type u} {ι : Type w}

/-- `Q` holds of the value of `x` when it has one, and `E` of its error otherwise. -/
def Ensures (E : ε → Prop) (Q : α → Prop) : Except ε α → Prop
  | .ok a => Q a
  | .error e => E e

variable {E E' : ε → Prop} {Q Q' : α → Prop} {R : β → Prop}

@[simp] lemma ensures_ok (a : α) : Ensures E Q (.ok a) ↔ Q a := Iff.rfl

@[simp] lemma ensures_pure (a : α) : Ensures E Q (pure a) ↔ Q a := Iff.rfl

@[simp] lemma ensures_error (e : ε) : Ensures E Q (.error e) ↔ E e := Iff.rfl

@[simp] lemma ensures_throw (e : ε) : Ensures E Q (throw e) ↔ E e := Iff.rfl

/-- Nothing is asked of the outcome. -/
lemma ensures_trivial (x : Except ε α) : Ensures (fun _ => True) (fun _ => True) x := by
  cases x <;> trivial

lemma Ensures.mono {x : Except ε α} (h : Ensures E Q x) (hE : ∀ e, E e → E' e)
    (hQ : ∀ a, Q a → Q' a) : Ensures E' Q' x := by
  cases x with
  | ok a => exact hQ a h
  | error e => exact hE e h

lemma Ensures.imp {x : Except ε α} (h : Ensures E Q x) (hQ : ∀ a, Q a → Q' a) :
    Ensures E Q' x :=
  h.mono (fun _ he => he) hQ

lemma Ensures.and {x : Except ε α} (h : Ensures E Q x) (h' : Ensures E Q' x) :
    Ensures E (fun a => Q a ∧ Q' a) x := by
  cases x with
  | ok a => exact ⟨h, h'⟩
  | error e => exact h

/-- What is known of the value twice; the errors are those of the first fact. -/
lemma Ensures.and_left {x : Except ε α} (h : Ensures E Q x) (h' : Ensures E' Q' x) :
    Ensures E (fun a => Q a ∧ Q' a) x := by
  cases x with
  | ok a => exact ⟨h, h'⟩
  | error e => exact h

/-- What is known of the outcome, with the fact that it is the outcome. -/
lemma Ensures.with_eq {x : Except ε α} (h : Ensures E Q x) :
    Ensures (fun e => E e ∧ x = .error e) (fun a => Q a ∧ x = .ok a) x := by
  cases x with
  | ok a => exact ⟨h, rfl⟩
  | error e => exact ⟨h, rfl⟩

/-- Sequencing: what the first step ensures is what the second may rely on. -/
lemma Ensures.bind {x : Except ε α} {f : α → Except ε β} (hx : Ensures E Q x)
    (hf : ∀ a, Q a → Ensures E R (f a)) : Ensures E R (x >>= f) := by
  cases x with
  | ok a => exact hf a hx
  | error e => exact hx

lemma Ensures.of_eq_ok {x : Except ε α} {a : α} (h : Ensures E Q x) (hx : x = .ok a) : Q a := by
  subst hx
  exact h

/-- A step that does not stop returns a value. -/
lemma Ensures.exists_ok {x : Except ε α} (h : Ensures (fun _ => False) Q x) :
    ∃ a, x = .ok a ∧ Q a := by
  cases x with
  | ok a => exact ⟨a, rfl, h⟩
  | error e => exact h.elim

lemma ensures_iff {x : Except ε α} :
    Ensures E Q x ↔ (∀ a, x = .ok a → Q a) ∧ ∀ e, x = .error e → E e := by
  cases x with
  | ok a => simp
  | error e => simp

@[simp] lemma ok_bind (a : α) (f : α → Except ε β) : (Except.ok a >>= f) = f a := rfl

/-- A bind that returned: both halves returned. -/
lemma bind_eq_ok {x : Except ε α} {f : α → Except ε β} {b : β} :
    (x >>= f) = .ok b ↔ ∃ a, x = .ok a ∧ f a = .ok b := by
  constructor
  · intro h
    cases x with
    | ok a => exact ⟨a, rfl, h⟩
    | error e => cases h
  · rintro ⟨a, rfl, h⟩
    exact h

/-- A step that returns, by what it returns -/
lemma eq_ok_getD {x : Except ε α} (h : x.toOption.isSome) (a : α) :
    x = .ok (x.toOption.getD a) := by
  cases x with
  | ok a' => rfl
  | error e => cases h

/-- A step that returns, when something is known of what it returns -/
lemma eq_ok_of_map {x : Except ε α} {f : α → β} {b : β} (h : x.toOption.map f = some b) (a : α) :
    x = .ok (x.toOption.getD a) ∧ f (x.toOption.getD a) = b := by
  cases x with
  | ok a' => exact ⟨rfl, Option.some.inj h⟩
  | error e => cases h

/-- Run `body` on every element of the list, in order. -/
def forEach (body : ι → σ → Except ε σ) : List ι → σ → Except ε σ
  | [], s => .ok s
  | i :: is, s => do
    let s ← body i s
    forEach body is s

@[simp] lemma forEach_nil (body : ι → σ → Except ε σ) (s : σ) : forEach body [] s = .ok s := rfl

lemma forEach_cons (body : ι → σ → Except ε σ) (i : ι) (is : List ι) (s : σ) :
    forEach body (i :: is) s = body i s >>= forEach body is := rfl

/-- The loop rule. The invariant is indexed by the elements already handled. -/
lemma ensures_forEach {body : ι → σ → Except ε σ} (I : List ι → σ → Prop)
    (todo done : List ι) (s : σ)
    (hbody : ∀ (i : ι) (done' : List ι) (s' : σ), done' ++ [i] <+: done ++ todo → I done' s' →
      Ensures E (I (done' ++ [i])) (body i s'))
    (hs : I done s) : Ensures E (I (done ++ todo)) (forEach body todo s) := by
  induction todo generalizing done s with
  | nil => simpa using hs
  | cons i is ih =>
    rw [forEach_cons]
    refine Ensures.bind (hbody i done s ⟨is, by simp⟩ hs) fun s' hs' => ?_
    have hrest := ih (done ++ [i]) s' (by simpa using hbody) hs'
    simpa using hrest

/-- Run `body` on every element of the list, in order, and collect the values. -/
def collect (body : ι → Except ε α) : List ι → Except ε (List α)
  | [] => .ok []
  | i :: is => do
    let a ← body i
    let as ← collect body is
    .ok (a :: as)

lemma ensures_collect {body : ι → Except ε α} {is : List ι}
    (h : ∀ i ∈ is, Ensures E Q (body i)) :
    Ensures E (fun as => ∀ a ∈ as, Q a) (collect body is) := by
  induction is with
  | nil => exact fun a ha => absurd ha List.not_mem_nil
  | cons i is ih =>
    refine (h i List.mem_cons_self).bind fun a ha => ?_
    refine (ih fun j hj => h j (List.mem_cons_of_mem i hj)).bind fun as has b hb => ?_
    rcases List.mem_cons.mp hb with rfl | hb
    · exact ha
    · exact has b hb

/-- Every element has its value in the collection. -/
lemma mem_collect {body : ι → Except ε α} {is : List ι} {as : List α} {i : ι}
    (h : collect body is = .ok as) (hi : i ∈ is) : ∃ a ∈ as, body i = .ok a := by
  induction is generalizing as with
  | nil => exact absurd hi List.not_mem_nil
  | cons j is ih =>
    obtain ⟨a, ha, h⟩ := bind_eq_ok.mp h
    obtain ⟨as', has', h⟩ := bind_eq_ok.mp h
    cases h
    rcases List.mem_cons.mp hi with rfl | hi
    · exact ⟨a, List.mem_cons_self, ha⟩
    · obtain ⟨b, hb, hbody⟩ := ih has' hi
      exact ⟨b, List.mem_cons_of_mem a hb, hbody⟩

/-! ### Two programs -/

/-- Both steps return, and what they return is related, or both stop with the same error. -/
def Agree (R : α → β → Prop) : Except ε α → Except ε β → Prop
  | .ok a, .ok b => R a b
  | .error e, .error e' => e = e'
  | _, _ => False

section

variable {γ δ : Type u} {R R' : α → β → Prop} {S : γ → δ → Prop}

@[simp] lemma agree_ok {a : α} {b : β} : Agree R (.ok a : Except ε α) (.ok b) ↔ R a b := Iff.rfl

@[simp] lemma agree_error {e e' : ε} :
    Agree R (.error e : Except ε α) (.error e') ↔ e = e' := Iff.rfl

lemma Agree.imp {x : Except ε α} {y : Except ε β} (h : Agree R x y)
    (hR : ∀ a b, R a b → R' a b) : Agree R' x y := by
  cases x with
  | ok a =>
    cases y with
    | ok b => exact hR a b h
    | error e => exact h
  | error e =>
    cases y with
    | ok b => exact h
    | error e' => exact h

/-- Sequencing: what the first steps relate is what the second ones may rely on. -/
lemma Agree.bind {x : Except ε α} {y : Except ε β} {f : α → Except ε γ} {g : β → Except ε δ}
    (h : Agree R x y) (hf : ∀ a b, R a b → y = .ok b → Agree S (f a) (g b)) :
    Agree S (x >>= f) (y >>= g) := by
  cases x with
  | ok a =>
    cases y with
    | ok b => exact hf a b h rfl
    | error e => exact h.elim
  | error e =>
    cases y with
    | ok b => exact h.elim
    | error e' => exact h

lemma agree_bind_ok_left {x : Except ε α} {y : Except ε δ} {g : α → γ} :
    Agree S (x >>= fun a => .ok (g a)) y ↔ Agree (fun a b => S (g a) b) x y := by
  cases x <;> cases y <;> rfl

lemma agree_bind_ok_right {x : Except ε γ} {y : Except ε β} {g : β → δ} :
    Agree S x (y >>= fun b => .ok (g b)) ↔ Agree (fun a b => S a (g b)) x y := by
  cases x <;> cases y <;> rfl

lemma agree_self {R : α → α → Prop} {x : Except ε α} (h : ∀ a, R a a) : Agree R x x := by
  cases x with
  | ok a => exact h a
  | error e => rfl

/-- The rule for two loops over one list: each turn keeps the relation. -/
lemma agree_forEach {body : ι → α → Except ε α} {body' : ι → β → Except ε β}
    (hbody : ∀ i a b, R a b → Agree R (body i a) (body' i b)) {a : α} {b : β} (h : R a b)
    (is : List ι) : Agree R (forEach body is a) (forEach body' is b) := by
  induction is generalizing a b with
  | nil => exact h
  | cons i is ih =>
    rw [forEach_cons, forEach_cons]
    exact (hbody i a b h).bind fun _ _ h' _ => ih h'

/-- A step that returns matches one that does. -/
lemma Agree.exists_ok_right {a : α} {y : Except ε β} (h : Agree R (.ok a) y) :
    ∃ b, y = .ok b ∧ R a b := by
  cases y with
  | ok b => exact ⟨b, rfl, h⟩
  | error e => exact h.elim

/-- A step that returns is matched by one that does. -/
lemma Agree.exists_ok {x : Except ε α} {b : β} (h : Agree R x (.ok b)) :
    ∃ a, x = .ok a ∧ R a b := by
  cases x with
  | ok a => exact ⟨a, rfl, h⟩
  | error e => exact h.elim

end

/-! ### Runs -/

/-- The states a step function reaches from the initial ones through inputs the guard admits. -/
inductive Reachable (init : σ → Prop) (guard : ι → σ → Prop) (step : ι → σ → Except ε σ) :
    σ → Prop
  | init {s : σ} (h : init s) : Reachable init guard step s
  | step {s s' : σ} (i : ι) (h : Reachable init guard step s) (hi : guard i s)
      (hs : step i s = .ok s') : Reachable init guard step s'

/-- A property that holds at the start and is kept by every admitted step holds always. -/
lemma Reachable.invariant {init : σ → Prop} {guard : ι → σ → Prop} {step : ι → σ → Except ε σ}
    {I : σ → Prop} (h0 : ∀ s, init s → I s)
    (hstep : ∀ i s s', I s → guard i s → step i s = .ok s' → I s')
    {s : σ} (h : Reachable init guard step s) : I s := by
  induction h with
  | init h => exact h0 _ h
  | step i _ hi hs ih => exact hstep i _ _ ih hi hs

/-- A guard that admits more reaches more. -/
lemma Reachable.weaken {init : σ → Prop} {guard guard' : ι → σ → Prop}
    {step : ι → σ → Except ε σ} (hguard : ∀ i s, guard i s → guard' i s) {s : σ}
    (h : Reachable init guard step s) : Reachable init guard' step s := by
  induction h with
  | init h => exact .init h
  | step i _ hi hs ih => exact .step i ih (hguard _ _ hi) hs

end Outcome
