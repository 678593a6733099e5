import Fluke.X86.Mmu.Leaves

/-!
# The slots that are visited

`assign`, `clear` and `edit` go down the tables in one way, and a `Visitor` is what one of them does
on it. Its walk does to the memory what the function does, and keeps a list of the slots it has come
to. They are those of `leafSlots`, but for the ones below an entry where `clear` finds no table.
-/

namespace Fluke

open Outcome

/-- What a function does on its way down: `next` forms the end of the part for the table below an
entry and `start` is done at each table; `enter` finds the table below an entry, if there is one to
go down to, and `leave` is done when the walk is back from it; `leaf` is done at an entry of a
`PT`. -/
structure Visitor where
  next : ℕ → ℕ → ℕ → ℕ → ℕ
  start : ℕ → ℕ → Except Panic Unit
  enter : Frame → Fin 512 → Pmm → Except Panic (Option Frame × Pmm)
  leave : Frame → Fin 512 → Frame → Pmm → Pmm
  leaf : Frame → Fin 512 → Pmm → Except Panic Pmm

/-- The walk, with the slots it has come to, each by the indices on the way to it. -/
def Visitor.visit (v : Visitor) : (depth : ℕ) → (table : Frame) → (vbegin vend : ℕ) → Pmm →
    Except Panic (Pmm × List (List ℕ))
  | 0, _, _, _, s => .ok (s, [[]])
  | depth + 1, table, vbegin, vend, s => do
    v.start vbegin vend
    forEntries (indexBegin (depth + 1) vbegin) (indexEnd (depth + 1) vbegin vend)
      (fun i r =>
        if depth + 1 > PT then do
          match ← v.enter table i r.1 with
          | (none, s) => .ok (s, r.2 ++ [[i.val]])
          | (some target, s) => do
            let (s, below) ← v.visit depth target (nextVbegin (depth + 1) vbegin i)
              (v.next (depth + 1) vbegin vend i) s
            .ok (v.leave table i target s, r.2 ++ below.map (i.val :: ·))
        else do
          let s ← v.leaf table i r.1
          .ok (s, r.2 ++ [[i.val]])) (s, [])

/-- The visitor of `assign` -/
def assignVisitor (flags : Word) : Visitor where
  next := nextVend
  start := fun _ _ => .ok ()
  enter := fun table i s => do
    let (page, s) ← nextTable table i s
    .ok (some page, s)
  leave := fun _ _ _ s => s
  leaf := fun table i s => assignPage table i flags s

/-- The visitor of `clear` -/
def clearVisitor : Visitor where
  next := nextVend
  start := fun _ _ => .ok ()
  enter := fun table i s =>
    .ok (if isPresent (s.memory table i) then some (entryTarget (s.memory table i)) else none, s)
  leave := fun table i target s =>
    if isEmptyTable (s.memory target) then (freePage target s).setWord table i 0 else s
  leaf := fun table i s =>
    .ok (if isPresent (s.memory table i) then
      (freePage (entryTarget (s.memory table i)) s).setWord table i 0 else s)

/-- The visitor of `edit` -/
def editVisitor (flags : Word) : Visitor where
  next := editNextVend
  start := fun vbegin vend => assert (vbegin < vend) .editRange
  enter := fun table i s =>
    if !isPresent (s.memory table i) then .error .editUnassigned
    else .ok (some (entryTarget (s.memory table i)), s)
  leave := fun _ _ _ s => s
  leaf := fun table i s =>
    if !isPresent (s.memory table i) then .error .editUnassigned
    else .ok (s.setWord table i (entryAddressBits (entryTarget (s.memory table i)) ||| flags))

/-! ### The walk does what the functions do -/

lemma agree_forEntries {σ τ : Type} {R : σ → τ → Prop} {ibegin iend : ℕ}
    {body : Fin 512 → σ → Except Panic σ} {body' : Fin 512 → τ → Except Panic τ}
    (hbody : ∀ i s t, R s t → Agree R (body i s) (body' i t)) {s : σ} {t : τ} (h : R s t) :
    Agree R (forEntries ibegin iend body s) (forEntries ibegin iend body' t) := by
  have hloop := @agree_forEach _ σ τ _ R body body' hbody s t h
  unfold forEntries
  split_ifs
  · exact hloop _
  · rfl

lemma assign_visit (depth : ℕ) (table : Frame) (vbegin vend : ℕ) (flags : Word) (s : Pmm) :
    Agree (fun s' r => r.1 = s') (assign depth table vbegin vend flags s)
      ((assignVisitor flags).visit depth table vbegin vend s) := by
  induction depth generalizing table vbegin vend s with
  | zero =>
    rw [assign_zero]
    rfl
  | succ depth ih =>
    have hstart : (assignVisitor flags).start vbegin vend = .ok () := rfl
    unfold assign
    rw [Visitor.visit, hstart, ok_bind]
    refine agree_forEntries ?_ rfl
    rintro i _ ⟨s, log⟩ rfl
    dsimp only
    split_ifs
    · have henter : (assignVisitor flags).enter table i s =
          nextTable table i s >>= fun r => .ok (some r.1, r.2) := rfl
      rw [henter]
      cases nextTable table i s with
      | error e => rfl
      | ok r =>
        rw [ok_bind, ok_bind, ok_bind]
        exact agree_bind_ok_right.mpr (ih ..)
    · exact agree_bind_ok_right.mpr (agree_self fun _ => rfl)

lemma edit_visit (depth : ℕ) (table : Frame) (vbegin vend : ℕ) (flags : Word) (s : Pmm) :
    Agree (fun s' r => r.1 = s') (edit depth table vbegin vend flags s)
      ((editVisitor flags).visit depth table vbegin vend s) := by
  induction depth generalizing table vbegin vend s with
  | zero =>
    rw [edit_zero]
    rfl
  | succ depth ih =>
    have hstart : (editVisitor flags).start vbegin vend =
        assert (vbegin < vend) .editRange := rfl
    unfold edit
    rw [Visitor.visit, hstart]
    cases assert (vbegin < vend) .editRange with
    | error e => rfl
    | ok u =>
      rw [ok_bind, ok_bind]
      refine agree_forEntries ?_ rfl
      rintro i _ ⟨s, log⟩ rfl
      dsimp only
      have henter : (editVisitor flags).enter table i s =
          if !isPresent (s.memory table i) then .error .editUnassigned
          else .ok (some (entryTarget (s.memory table i)), s) := rfl
      have hleaf : (editVisitor flags).leaf table i s =
          if !isPresent (s.memory table i) then .error .editUnassigned
          else .ok (s.setWord table i
            (entryAddressBits (entryTarget (s.memory table i)) ||| flags)) := rfl
      rw [henter, hleaf]
      split_ifs
      · rfl
      · rfl
      · rw [ok_bind]
        exact agree_bind_ok_right.mpr (ih ..)
      · rfl

/-- A walk over a table agrees with `clear` when the walks over the tables below do. -/
lemma clear_visit_succ {depth : ℕ} (hbelow : PT < depth + 1 → ∀ table vbegin vend s,
      Agree (fun r r' => r = (isEmptyTable (r'.1.memory table), r'.1))
        (clear depth table vbegin vend s) (clearVisitor.visit depth table vbegin vend s))
    (table : Frame) (vbegin vend : ℕ) (s : Pmm) :
    Agree (fun r r' => r = (isEmptyTable (r'.1.memory table), r'.1))
      (clear (depth + 1) table vbegin vend s)
      (clearVisitor.visit (depth + 1) table vbegin vend s) := by
  have hstart : clearVisitor.start vbegin vend = .ok () := rfl
  unfold clear
  rw [Visitor.visit, hstart, ok_bind]
  refine agree_bind_ok_left.mpr (Agree.imp (R := fun s' r => r.1 = s') ?_ ?_)
  swap
  · rintro _ r rfl
    rfl
  refine agree_forEntries ?_ rfl
  rintro i _ ⟨s, log⟩ rfl
  dsimp only
  have henter : clearVisitor.enter table i s =
      .ok (if isPresent (s.memory table i) then some (entryTarget (s.memory table i)) else none,
        s) := rfl
  have hleaf : clearVisitor.leaf table i s =
      .ok (if isPresent (s.memory table i) then
        (freePage (entryTarget (s.memory table i)) s).setWord table i 0 else s) := rfl
  rw [henter, hleaf, ok_bind, ok_bind]
  by_cases hdeep : PT < depth + 1
  · rw [if_pos hdeep]
    by_cases hpresent : isPresent (s.memory table i)
    · rw [if_pos hpresent, if_pos hpresent, if_neg hdeep.ne']
      dsimp only
      refine (hbelow hdeep ..).bind ?_
      rintro ⟨empty, s'⟩ ⟨s'', below⟩ heq -
      obtain ⟨hempty, rfl : s' = s''⟩ := Prod.mk.inj heq
      have hleave : clearVisitor.leave table i (entryTarget (s.memory table i)) s' =
          if empty then (freePage (entryTarget (s.memory table i)) s').setWord table i 0
          else s' := by
        rw [hempty]
        delta clearVisitor
        dsimp only
      dsimp only
      rw [hleave]
      split_ifs <;> rfl
    · rw [if_neg hpresent, if_neg hpresent]
      rfl
  · have hPT : depth + 1 = PT := le_antisymm (not_lt.mp hdeep) (Nat.succ_pos depth)
    rw [if_neg hdeep, if_pos hPT]
    by_cases hpresent : isPresent (s.memory table i)
    · rw [if_pos hpresent, if_pos hpresent]
      rfl
    · rw [if_neg hpresent, if_neg hpresent]
      rfl

lemma clear_visit (depth : ℕ) (table : Frame) (vbegin vend : ℕ) (s : Pmm) :
    Agree (fun r r' => r = (isEmptyTable (r'.1.memory table), r'.1))
      (clear (depth + 1) table vbegin vend s)
      (clearVisitor.visit (depth + 1) table vbegin vend s) := by
  induction depth generalizing table vbegin vend s with
  | zero => exact clear_visit_succ (fun h => absurd h (lt_irrefl PT)) table vbegin vend s
  | succ depth ih => exact clear_visit_succ (fun _ => ih) table vbegin vend s

/-! ### The slots -/

/-- The function may find no table below an entry. -/
def Visitor.Skips (v : Visitor) : Prop := ∃ table i s s', v.enter table i s = .ok (none, s')

/-- The slots of `slots` that a walk over `d` tables has come to: each of them, or an entry on the
way to it with no table below. -/
structure Visited (skips : Prop) (d : ℕ) (slots log : List (List ℕ)) : Prop where
  reached : ∀ p ∈ slots, ∃ q ∈ log, q <+: p
  slots : ∀ q ∈ log, q.length = d → q ∈ slots
  full : ¬ skips → ∀ q ∈ log, q.length = d

namespace Visited

variable {skips : Prop} {d : ℕ} {slots slots' log log' : List (List ℕ)}

lemma nil : Visited skips d [] [] := by
  constructor <;> simp

/-- A slot by itself -/
lemma self : Visited skips 0 [[]] [[]] := by
  constructor <;> simp

lemma congr (h : Visited skips d slots log) (hslots : ∀ p, p ∈ slots ↔ p ∈ slots') :
    Visited skips d slots' log :=
  ⟨fun p hp => h.reached p ((hslots p).mpr hp),
    fun q hq hlength => (hslots q).mp (h.slots q hq hlength), h.full⟩

lemma append (h : Visited skips d slots log) (h' : Visited skips d slots' log') :
    Visited skips d (slots ++ slots') (log ++ log') := by
  refine ⟨fun p hp => ?_, fun q hq hlength => ?_, fun hskips q hq => ?_⟩
  · rcases List.mem_append.mp hp with hp | hp
    · obtain ⟨q, hq, hpre⟩ := h.reached p hp
      exact ⟨q, List.mem_append_left _ hq, hpre⟩
    · obtain ⟨q, hq, hpre⟩ := h'.reached p hp
      exact ⟨q, List.mem_append_right _ hq, hpre⟩
  · rcases List.mem_append.mp hq with hq | hq
    · exact List.mem_append_left _ (h.slots q hq hlength)
    · exact List.mem_append_right _ (h'.slots q hq hlength)
  · exact (List.mem_append.mp hq).elim (h.full hskips q) (h'.full hskips q)

/-- The walk over the table below the entry `i` -/
lemma cons (h : Visited skips d slots log) (i : ℕ) :
    Visited skips (d + 1) (slots.map (i :: ·)) (log.map (i :: ·)) := by
  refine ⟨fun p hp => ?_, fun q hq hlength => ?_, fun hskips q hq => ?_⟩
  · obtain ⟨p', hp', rfl⟩ := List.mem_map.mp hp
    obtain ⟨q, hq, hpre⟩ := h.reached p' hp'
    exact ⟨i :: q, List.mem_map_of_mem hq, List.cons_prefix_cons.mpr ⟨rfl, hpre⟩⟩
  · obtain ⟨q', hq', rfl⟩ := List.mem_map.mp hq
    exact List.mem_map_of_mem (h.slots q' hq' (Nat.succ.inj hlength))
  · obtain ⟨q', hq', rfl⟩ := List.mem_map.mp hq
    rw [List.length_cons, h.full hskips q' hq']

/-- There is no table below the entry `i`. -/
lemma skip (hskips : skips) (hd : 0 < d) (slots : List (List ℕ)) (i : ℕ) :
    Visited skips (d + 1) (slots.map (i :: ·)) [[i]] := by
  refine ⟨fun p hp => ?_, fun q hq hlength => ?_, fun hnot => absurd hskips hnot⟩
  · obtain ⟨p, -, rfl⟩ := List.mem_map.mp hp
    exact ⟨[i], List.mem_cons_self, List.cons_prefix_cons.mpr ⟨rfl, List.nil_prefix⟩⟩
  · rw [List.mem_singleton.mp hq, List.length_singleton] at hlength
    omega

end Visited

lemma length_of_mem_leafSlots {next : ℕ → ℕ → ℕ → ℕ → ℕ} {d vbegin vend : ℕ} {p : List ℕ}
    (h : p ∈ leafSlots next d vbegin vend) : p.length = d := by
  induction d generalizing vbegin vend p with
  | zero => rw [List.mem_singleton.mp h, List.length_nil]
  | succ d ih =>
    obtain ⟨i, q, rfl, -, hq⟩ := mem_leafSlots_succ.mp h
    rw [List.length_cons, ih hq]

/-- Where no entry is skipped, the walk has come to the slots and to nothing else. -/
lemma Visited.mem_iff {skips : Prop} {next : ℕ → ℕ → ℕ → ℕ → ℕ} {d vbegin vend : ℕ}
    {log : List (List ℕ)} (h : Visited skips d (leafSlots next d vbegin vend) log)
    (hskips : ¬ skips) (p : List ℕ) : p ∈ log ↔ p ∈ leafSlots next d vbegin vend := by
  constructor
  · exact fun hp => h.slots p hp (h.full hskips p hp)
  · intro hp
    obtain ⟨q, hq, hpre⟩ := h.reached p hp
    have hlength : q.length = p.length := by
      rw [h.full hskips q hq, length_of_mem_leafSlots hp]
    exact hpre.eq_of_length hlength ▸ hq

/-- The loop runs over the entries of its range, or it leaves the table. -/
lemma forEntries_cases {σ : Type} (ibegin iend : ℕ) (body : Fin 512 → σ → Except Panic σ) (s : σ) :
    (iend ≤ 512 ∧ ∃ entries, (∀ i : Fin 512, i ∈ entries ↔ ibegin ≤ i.val ∧ i.val < iend) ∧
      forEntries ibegin iend body s = forEach body entries s) ∨
    forEntries ibegin iend body s = .error .outOfBounds := by
  unfold forEntries
  split_ifs with hend
  · exact Or.inl ⟨hend, _, fun i => by simp, rfl⟩
  · exact Or.inr rfl

/-- A walk comes to the leaf slots of its range, but for those below an entry that it skips. -/
lemma Visitor.visit_visited (v : Visitor) (d : ℕ) (table : Frame) (vbegin vend : ℕ) (s : Pmm) :
    Ensures (fun _ => True) (fun r => Visited v.Skips d (leafSlots v.next d vbegin vend) r.2)
      (v.visit d table vbegin vend s) := by
  induction d generalizing table vbegin vend s with
  | zero => exact Visited.self
  | succ d ih =>
    rw [Visitor.visit]
    refine (ensures_trivial _).bind fun _ _ => ?_
    rcases forEntries_cases (indexBegin (d + 1) vbegin) (indexEnd (d + 1) vbegin vend) _ (s, [])
      with ⟨hend, entries, hentries, heq⟩ | heq
    swap
    · rw [heq]
      trivial
    rw [heq]
    let below := fun i : Fin 512 => leafSlots v.next d (nextVbegin (d + 1) vbegin i)
      (v.next (d + 1) vbegin vend i)
    refine (ensures_forEach (fun done r => Visited v.Skips (d + 1)
      (done.flatMap fun i => (below i).map (i.val :: ·)) r.2) entries [] (s, []) ?_
      Visited.nil).imp fun r hr => hr.congr fun p => ?_
    · rintro i done ⟨s, log⟩ - hlog
      dsimp only at hlog ⊢
      rw [List.flatMap_append, List.flatMap_singleton]
      split_ifs with hdeep
      · refine ((ensures_trivial _).with_eq.mono (fun _ _ => trivial) fun _ h => h).bind ?_
        rintro ⟨_ | target, s'⟩ ⟨-, henter⟩
        · exact hlog.append (.skip ⟨table, i, s, s', henter⟩ (Nat.lt_of_succ_lt_succ hdeep) _ _)
        · refine (ih ..).bind fun r hr => ?_
          exact hlog.append (hr.cons i.val)
      · obtain rfl : d = 0 := Nat.eq_zero_of_not_pos fun hd => hdeep (Nat.succ_lt_succ hd)
        refine (ensures_trivial _).bind fun s' _ => ?_
        exact hlog.append (Visited.self.cons i.val)
    · rw [List.nil_append, mem_leafSlots_succ, List.mem_flatMap]
      constructor
      · rintro ⟨i, hi, hp⟩
        obtain ⟨q, hq, rfl⟩ := List.mem_map.mp hp
        exact ⟨i.val, q, rfl, (hentries i).mp hi, hq⟩
      · rintro ⟨i, q, rfl, hi, hq⟩
        exact ⟨⟨i, hi.2.trans_le hend⟩, (hentries _).mpr hi, List.mem_map_of_mem hq⟩

/-! ### The entry points -/

lemma not_skips_assign (flags : Word) : ¬ (assignVisitor flags).Skips := by
  rintro ⟨table, i, s, s', henter⟩
  obtain ⟨r, -, h⟩ := bind_eq_ok.mp henter
  cases h

lemma not_skips_edit (flags : Word) : ¬ (editVisitor flags).Skips := by
  rintro ⟨table, i, s, s', henter⟩
  dsimp only [editVisitor] at henter
  split_ifs at henter
  cases henter

variable {pm : Frame} {address : ℕ} {len : ℤ} {mode : MmuMode} {cache : MmuCache} {s s' : Pmm}

/-- `mmu_assign` comes to the slots of `assignSlots` and to no others. -/
theorem mmuAssign_visits (h : mmuAssign pm address len mode cache s = .ok s') :
    ∃ log, (assignVisitor (entryFlags cache mode)).visit PML4 pm address (uaddIsize address len) s =
      .ok (s', log) ∧ ∀ p, p ∈ log ↔ p ∈ assignSlots address len := by
  obtain ⟨_, -, hassign⟩ := bind_eq_ok.mp h
  have hagree := assign_visit PML4 pm address (uaddIsize address len) (entryFlags cache mode) s
  rw [hassign] at hagree
  obtain ⟨⟨_, log⟩, hvisit, rfl⟩ := hagree.exists_ok_right
  have hvisited := (Visitor.visit_visited _ _ _ _ _ _).of_eq_ok hvisit
  exact ⟨log, hvisit, hvisited.mem_iff (not_skips_assign _)⟩

/-- `mmu_edit` comes to the slots of `editSlots` and to no others. -/
theorem mmuEdit_visits (h : mmuEdit pm address len mode cache s = .ok s') :
    ∃ log, (editVisitor (entryFlags cache mode)).visit PML4 pm address (uaddIsize address len) s =
      .ok (s', log) ∧ ∀ p, p ∈ log ↔ p ∈ editSlots address len := by
  obtain ⟨_, -, hedit⟩ := bind_eq_ok.mp h
  have hagree := edit_visit PML4 pm address (uaddIsize address len) (entryFlags cache mode) s
  rw [hedit] at hagree
  obtain ⟨⟨_, log⟩, hvisit, rfl⟩ := hagree.exists_ok_right
  have hvisited := (Visitor.visit_visited _ _ _ _ _ _).of_eq_ok hvisit
  exact ⟨log, hvisit, hvisited.mem_iff (not_skips_edit _)⟩

/-- `mmu_clear` comes to each of the slots of `clearSlots` or to an entry on the way to it with no
table below, and it comes to no other slots. -/
theorem mmuClear_visits (h : mmuClear pm address len s = .ok s') :
    ∃ log, clearVisitor.visit PML4 pm address (uaddIsize address len) s = .ok (s', log) ∧
      (∀ p ∈ clearSlots address len, ∃ q ∈ log, q <+: p) ∧
      ∀ q ∈ log, q.length = PML4 → q ∈ clearSlots address len := by
  obtain ⟨_, -, h⟩ := bind_eq_ok.mp h
  obtain ⟨⟨empty, _⟩, hclear, heq⟩ := bind_eq_ok.mp h
  cases heq
  have hagree := clear_visit PDPT pm address (uaddIsize address len) s
  rw [hclear] at hagree
  obtain ⟨⟨s'', log⟩, hvisit, hresult⟩ := hagree.exists_ok_right
  obtain ⟨-, rfl⟩ := Prod.mk.inj hresult
  have hvisited := (Visitor.visit_visited _ _ _ _ _ _).of_eq_ok hvisit
  exact ⟨log, hvisit, hvisited.reached, hvisited.slots⟩

end Fluke
