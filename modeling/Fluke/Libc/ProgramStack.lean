import Mathlib.Data.Nat.Bitwise
import Fluke.Libc.Fexecve

/-!
# The stack of a program

`build_stack` and `__libc_start_main` agree on the stack of a program: what the first writes for
`fexecve` the second reads. The space is checked before each write, so that only the sum of all
sizes matters; when that reaches `ARG_MAX`, or there is no memory, control leaves through the
cleared buffer.
-/

namespace Fluke.Libc

open ByteMemory Outcome

/-! ### Arrays of strings -/

/-- A range that has nothing in common with `[lo, hi)` -/
def Outside (lo hi p n : ℕ) : Prop := p + n ≤ lo ∨ hi ≤ p

/-- A null-terminated array of strings, each of which lies in an admitted range -/
inductive StringArray (m : ByteMemory) (P : ℕ → ℕ → Prop) : ℕ → List (List Byte) → Prop
  | nil {a : ℕ} (hend : a + 8 ≤ 2 ^ 64) (hnull : m.load a = 0) : StringArray m P a []
  | cons {a : ℕ} {s : List Byte} {rest : List (List Byte)} (hend : a + 8 ≤ 2 ^ 64)
    (hptr : m.load a ≠ 0) (hstr : IsString m (m.load a).toNat s)
    (hrange : P (m.load a).toNat (s.length + 1)) (hrest : StringArray m P (a + 8) rest) :
    StringArray m P a (s :: rest)

lemma stackSize_eq : stackSize = 81920 := rfl

lemma argMax_eq : argMax = 32768 := rfl

/-- The bytes that `add_array` takes for an array -/
def arrayCost (args : List (List Byte)) : ℕ := (args.map fun s => s.length + 1 + 8).sum + 8

/-- The bytes that `build_stack` takes -/
def stackCost (args env : List (List Byte)) : ℕ := 8 + arrayCost args + arrayCost env + 8

section

variable {m m' : ByteMemory} {a n lo hi : ℕ} {s : List Byte}

lemma IsString.congr (h : IsString m a s) (hm : ∀ x, a ≤ x → x < a + (s.length + 1) → m' x = m x) :
    IsString m' a s := by
  refine ⟨?_, h.nonzero, h.end_lt⟩
  rw [bytesAt_congr hm]
  exact h.bytes

lemma cellsAt_cons (m : ByteMemory) (a n : ℕ) :
    m.cellsAt a (n + 1) = m.load a :: m.cellsAt (a + 8) n := by
  rw [cellsAt, List.range_succ_eq_map, List.map_cons, List.map_map, Nat.mul_zero, Nat.add_zero,
    cellsAt]
  refine congrArg (m.load a :: ·) (List.map_congr_left fun i _ => ?_)
  have hcell : a + 8 * (i + 1) = a + 8 + 8 * i := by omega
  show m.load (a + 8 * (i + 1)) = m.load (a + 8 + 8 * i)
  rw [hcell]

lemma cellsAt_store (m : ByteMemory) (a n : ℕ) (w : BitVec 64) :
    (m.store (a + 8 * n) w).cellsAt a (n + 1) = m.cellsAt a n ++ [w] := by
  have hsame : (m.store (a + 8 * n) w).cellsAt a n = m.cellsAt a n := by
    apply cellsAt_congr
    intro x _ hhigh
    exact store_of_out (Or.inl hhigh)
  rw [cellsAt_succ, load_store, hsame]

/-- Cells that are moved as bytes -/
lemma cellsAt_writeBytes (m : ByteMemory) (dest src n : ℕ) :
    (m.writeBytes dest (m.bytesAt src (8 * n))).cellsAt dest n = m.cellsAt src n := by
  apply List.map_congr_left
  intro i hi
  rw [List.mem_range] at hi
  have hbytes : (m.writeBytes dest (m.bytesAt src (8 * n))).bytesAt (dest + 8 * i) 8 =
      m.bytesAt (src + 8 * i) 8 := by
    apply List.map_congr_left
    intro j hj
    rw [List.mem_range] at hj
    have hlt : 8 * i + j < (m.bytesAt src (8 * n)).length := by
      rw [length_bytesAt]
      omega
    rw [Nat.add_assoc, writeBytes_at m dest hlt, getElem_bytesAt, Nat.add_assoc]
  rw [load, load, hbytes]

/-- A byte behind those that were written -/
lemma update_writeBytes (m : ByteMemory) (dest : ℕ) (l : List (BitVec 8)) (byte : BitVec 8) :
    Function.update (m.writeBytes dest l) (dest + l.length) byte =
      m.writeBytes dest (l ++ [byte]) := by
  rw [writeBytes_last]
  funext x
  by_cases hx : x = dest + l.length
  · subst hx
    rw [Function.update_self, writeBytes_of_out (Or.inr le_rfl), Function.update_self]
  · rw [Function.update_of_ne hx]
    unfold writeBytes
    rw [Function.update_of_ne hx]

end

/-! ### A stack that is being built -/

/-- What `create_stack` has made -/
structure Created (b : Builder) : Prop where
  argNext : b.s.argNext = b.s.base
  dataArea : b.s.dataArea = b.s.base + stackSize
  top : b.s.top = b.s.base + stackSize
  pos : 0 < b.s.base
  aligned : 4096 ∣ b.s.base
  upper : b.s.base + stackSize ≤ memLowHalfMax

/-- The words that stand at the bottom of the stack, and the strings below its top -/
structure Building (b₀ : Builder) (words : List (BitVec 64)) (placed : List (ℕ × List Byte))
    (used : ℕ) (b : Builder) : Prop where
  same : b = { b₀ with
    memory := b.memory, s := { b₀.s with argNext := b.s.argNext, dataArea := b.s.dataArea } }
  argNext : b.s.argNext = b₀.s.base + 8 * words.length
  space : b.s.dataArea + used = b₀.s.base + stackSize + 8 * words.length
  words_le : 8 * words.length ≤ used
  used_lt : used < argMax
  outside : ∀ x, x < b₀.s.base ∨ b₀.s.base + stackSize ≤ x → b.memory x = b₀.memory x
  cells : b.memory.cellsAt b₀.s.base words.length = words
  strings : ∀ q ∈ placed, IsString b.memory q.1 q.2 ∧ b.s.dataArea ≤ q.1 ∧
    q.1 + q.2.length < b₀.s.base + stackSize

/-- Control leaves through the buffer of the builder, since there are too many bytes. -/
def Overflowed (b₀ : Builder) (l : Leave) : Prop :=
  ∃ b, l = .jumps b₀.s.onError b ∧ b.errno = E2BIG ∧ b.mapped = b₀.mapped ∧
    ∀ x, x < b₀.s.base ∨ b₀.s.base + stackSize ≤ x → b.memory x = b₀.memory x

section

variable {b₀ b : Builder} {words : List (BitVec 64)} {placed : List (ℕ × List Byte)} {used : ℕ}
  {v : BitVec 64}

/-- The pointers end below the strings, and both lie in the mapping. -/
lemma Building.layout (h : Building b₀ words placed used b) (hc : Created b₀) :
    b.s.argNext = b₀.s.base + 8 * words.length ∧
      b.s.dataArea + used = b₀.s.base + 81920 + 8 * words.length ∧ 8 * words.length ≤ used ∧
      used < 32768 ∧ b₀.s.base + 81920 ≤ 2 ^ 47 :=
  ⟨h.argNext, h.space, h.words_le, h.used_lt, hc.upper⟩

lemma Building.overflowed (h : Building b₀ words placed used b) : Overflowed b₀ (overflow b) := by
  refine ⟨{ b with errno := E2BIG }, ?_, rfl, ?_, h.outside⟩
  · unfold overflow
    rw [h.same]
  · rw [h.same]

/-- A step that overflows below so many bytes, and what follows it -/
lemma bind_overflowed {α β : Type} {x : Except Leave α} {f : α → Except Leave β} {Q : α → Prop}
    {R : β → Prop} {n n' : ℕ} (hx : Ensures (fun l => Overflowed b₀ l ∧ argMax ≤ n) Q x)
    (hle : n ≤ n') (hf : ∀ r, Q r → Ensures (fun l => Overflowed b₀ l ∧ argMax ≤ n') R (f r)) :
    Ensures (fun l => Overflowed b₀ l ∧ argMax ≤ n') R (x >>= f) := by
  have hx' : Ensures (fun l => Overflowed b₀ l ∧ argMax ≤ n') Q x :=
    hx.mono (fun l hl => ⟨hl.1, hl.2.trans hle⟩) fun _ h => h
  exact hx'.bind hf

lemma checkSpace_spec (hc : Created b₀) (h : Building b₀ words placed used b) {additional : ℕ}
    (hlt : additional + stackSize ≤ 2 ^ 64) :
    Ensures (fun l => Overflowed b₀ l ∧ argMax ≤ used + additional)
      (fun _ => used + additional < argMax) (checkSpace additional b) := by
  have hsize := stackSize_eq
  have hmax := argMax_eq
  obtain ⟨hargNext, hspace, hwords, hused, hupper⟩ := h.layout hc
  have hfree : usub b.s.dataArea b.s.argNext = stackSize - used := by
    rw [h.argNext, usub_of_le (by omega) (by omega)]
    omega
  have heq : uadd (usub stackSize (stackSize - used)) additional = used + additional := by
    rw [usub_of_le (Nat.sub_le _ _) (by decide), uadd_of_lt (by omega)]
    omega
  unfold checkSpace
  simp only [hfree, heq]
  split_ifs with hfull
  · exact ⟨h.overflowed, hfull⟩
  · exact Nat.lt_of_not_le hfull

lemma pushArg_spec (hc : Created b₀) (h : Building b₀ words placed used b) (v : BitVec 64) :
    Ensures (fun l => Overflowed b₀ l ∧ argMax ≤ used + 8)
      (Building b₀ (words ++ [v]) placed (used + 8)) (pushArg v b) := by
  unfold pushArg
  refine (checkSpace_spec hc h (by decide)).bind fun _ hlt => ?_
  have hsize := stackSize_eq
  obtain ⟨hargNext, hspace, hwords, hused, hupper⟩ := h.layout hc
  have hnext : uadd b.s.argNext 8 = b.s.argNext + 8 := by
    rw [uadd_of_lt]
    rw [h.argNext]
    omega
  refine ⟨?_, ?_, ?_, ?_, hlt, fun x hx => ?_, ?_, fun q hq => ?_⟩
  · rw [h.same]
  · rw [List.length_append, List.length_singleton]
    dsimp only
    omega
  · rw [List.length_append, List.length_singleton]
    dsimp only
    omega
  · rw [List.length_append, List.length_singleton]
    omega
  · rw [← h.outside x hx]
    apply store_of_out
    omega
  · dsimp only
    rw [List.length_append, List.length_singleton, h.argNext, cellsAt_store, h.cells]
  · obtain ⟨hstr, hlow, hhigh⟩ := h.strings q hq
    refine ⟨hstr.congr fun x hx _ => store_of_out (Or.inr ?_), hlow, hhigh⟩
    omega

lemma pushDataString_spec (hc : Created b₀) (h : Building b₀ words placed used b) {str : ℕ}
    {s : List Byte} (hs : IsString b₀.memory str s)
    (hout : Outside b₀.s.base (b₀.s.base + stackSize) str (s.length + 1)) :
    Ensures (fun l => Overflowed b₀ l ∧ argMax ≤ used + (s.length + 1)) (fun b' =>
      Building b₀ words ((b'.s.dataArea, s) :: placed) (used + (s.length + 1)) b' ∧
        0 < b'.s.dataArea ∧ b'.s.dataArea < 2 ^ 64) (pushDataString str b) := by
  have hsize := stackSize_eq
  have hmax := argMax_eq
  obtain ⟨hargNext, hspace, hwords, hused, hupper⟩ := h.layout hc
  have hend := hs.end_lt
  have hs' : IsString b.memory str s := hs.congr fun x hlow hhigh => h.outside x (by
    unfold Outside at hout
    omega)
  obtain ⟨reads, hlen, -⟩ := sse2_strlen hs'
  -- one side of the stack does not have room for so long a string
  have hshort : s.length + 1 + stackSize ≤ 2 ^ 64 := by
    unfold Outside at hout
    omega
  unfold pushDataString
  rw [hlen]
  dsimp only
  rw [uadd_of_lt (by omega : s.length + 1 < 2 ^ 64)]
  refine (checkSpace_spec hc h hshort).bind fun _ hlt => ?_
  obtain ⟨d, hd⟩ : ∃ d, b.s.dataArea = d + (s.length + 1) :=
    ⟨b.s.dataArea - (s.length + 1), by omega⟩
  have hbytes : b.memory.bytesAt str s.length = s := (bytesAt_split hs'.bytes).1
  have harea : usub b.s.dataArea (s.length + 1) = d := by
    rw [usub_of_le (by omega) (by omega)]
    omega
  have hmemory : Function.update (memcpy b.memory d str s.length).1 (uadd d s.length) 0 =
      b.memory.writeBytes d (s ++ [0]) := by
    have hapart : str + s.length ≤ d ∨ d ≤ str := by
      unfold Outside at hout
      omega
    rw [uadd_of_lt (by omega)]
    show Function.update (Fluke.memcpy b.memory d str s.length) (d + s.length) 0 = _
    rw [memcpy_eq hapart, hbytes, update_writeBytes]
  have hlength : (s ++ [0]).length = s.length + 1 := by simp
  rw [harea, hmemory]
  refine ⟨⟨?_, hargNext, ?_, ?_, hlt, fun x hx => ?_, ?_, fun q hq => ?_⟩, ?_, ?_⟩
  · rw [h.same]
  · dsimp only
    omega
  · omega
  · rw [← h.outside x hx]
    apply writeBytes_of_out
    rw [hlength]
    omega
  · have hsame : (b.memory.writeBytes d (s ++ [0])).cellsAt b₀.s.base words.length =
        b.memory.cellsAt b₀.s.base words.length := by
      apply cellsAt_congr
      intro x hlow hhigh
      apply writeBytes_of_out
      omega
    dsimp only
    rw [hsame, h.cells]
  · rcases List.mem_cons.mp hq with rfl | hq
    · refine ⟨⟨?_, hs.nonzero, ?_⟩, le_rfl, ?_⟩
      · rw [← hlength]
        exact bytesAt_writeBytes _ _ _
      · dsimp only
        omega
      · dsimp only
        omega
    · obtain ⟨hstr, hlow, hhigh⟩ := h.strings q hq
      refine ⟨hstr.congr fun x hx _ => writeBytes_of_out (Or.inr ?_), ?_, hhigh⟩
      · rw [hlength]
        omega
      · dsimp only
        omega
  · dsimp only
    omega
  · dsimp only
    omega

/-- The words that point to strings that have been placed -/
abbrev Pointers (placed : List (ℕ × List Byte)) : List (BitVec 64) → List (List Byte) → Prop :=
  List.Forall₂ fun p s => p ≠ 0 ∧ (p.toNat, s) ∈ placed

lemma addArray_spec (hc : Created b₀) {a : ℕ} {args : List (List Byte)}
    (hargs : StringArray b₀.memory (Outside b₀.s.base (b₀.s.base + stackSize)) a args)
    (hout : Outside b₀.s.base (b₀.s.base + stackSize) a (8 * (args.length + 1)))
    (h : Building b₀ words placed used b) :
    Ensures (fun l => Overflowed b₀ l ∧ argMax ≤ used + arrayCost args) (fun b' =>
      ∃ ptrs placed', Pointers (placed' ++ placed) ptrs args ∧
        Building b₀ (words ++ ptrs ++ [0]) (placed' ++ placed) (used + arrayCost args) b')
      (addArray a b) := by
  induction hargs generalizing b words placed used with
  | @nil a hend hnull =>
    have hload : b.memory.load a = 0 := by
      rw [← hnull]
      refine load_congr fun x hlow hhigh => h.outside x ?_
      unfold Outside at hout
      rw [List.length_nil] at hout
      omega
    have hcost : arrayCost [] = 8 := rfl
    unfold addArray
    rw [if_pos hend, if_neg (not_not.mpr hload), hcost]
    refine (pushArg_spec hc h 0).imp fun b' hb' => ⟨[], [], .nil, ?_⟩
    rw [List.append_nil]
    exact hb'
  | @cons a s rest hend hptr hstr hrange hrest ih =>
    have hcost : arrayCost (s :: rest) = s.length + 1 + 8 + arrayCost rest := by
      unfold arrayCost
      rw [List.map_cons, List.sum_cons]
      omega
    unfold Outside at hout
    rw [List.length_cons] at hout
    have hload : b.memory.load a = b₀.memory.load a := by
      refine load_congr fun x hlow hhigh => h.outside x ?_
      omega
    unfold addArray
    rw [if_pos hend, hload, if_pos hptr, hcost]
    refine bind_overflowed (pushDataString_spec hc h hstr hrange) (by omega) ?_
    rintro b₁ ⟨h₁, hpos, hlt⟩
    refine bind_overflowed (pushArg_spec hc h₁ _) (by omega) ?_
    intro b₂ h₂
    refine (ih (by unfold Outside; omega) h₂).mono (fun l hl => ⟨hl.1, ?_⟩) ?_
    · have := hl.2
      omega
    rintro b' ⟨ptrs, placed', hptrs, hb'⟩
    refine ⟨BitVec.ofNat 64 b₁.s.dataArea :: ptrs, placed' ++ [(b₁.s.dataArea, s)], ?_, ?_⟩
    · rw [List.append_assoc, List.singleton_append]
      refine .cons ⟨fun hzero => ?_, ?_⟩ hptrs
      · have := congrArg BitVec.toNat hzero
        rw [BitVec.toNat_ofNat, Nat.mod_eq_of_lt hlt] at this
        exact absurd this (Nat.ne_of_gt hpos)
      · rw [BitVec.toNat_ofNat, Nat.mod_eq_of_lt hlt]
        exact List.mem_append_right _ List.mem_cons_self
    · have hwords : words ++ BitVec.ofNat 64 b₁.s.dataArea :: ptrs ++ [0] =
          words ++ [BitVec.ofNat 64 b₁.s.dataArea] ++ ptrs ++ [0] := by simp
      have hplaced : placed' ++ [(b₁.s.dataArea, s)] ++ placed =
          placed' ++ (b₁.s.dataArea, s) :: placed := by simp
      have hused : used + (s.length + 1 + 8 + arrayCost rest) =
          used + (s.length + 1) + 8 + arrayCost rest := by omega
      rw [hwords, hplaced, hused]
      exact hb'

/-- The first word is written anew. -/
lemma Building.setFirst (h : Building b₀ (v :: words) placed used b) (w : BitVec 64) :
    Building b₀ (w :: words) placed used { b with memory := b.memory.store b₀.s.base w } := by
  have hsize := stackSize_eq
  have hmax := argMax_eq
  have hspace := h.space
  have hused := h.used_lt
  have hwords := h.words_le
  rw [List.length_cons] at hwords hspace
  have hcells := h.cells
  rw [List.length_cons, cellsAt_cons, List.cons.injEq] at hcells
  refine ⟨?_, h.argNext, h.space, h.words_le, h.used_lt, fun x hx => ?_, ?_, fun q hq => ?_⟩
  · rw [h.same]
  · rw [← h.outside x hx]
    apply store_of_out
    omega
  · have hrest : (b.memory.store b₀.s.base w).cellsAt (b₀.s.base + 8) words.length =
        b.memory.cellsAt (b₀.s.base + 8) words.length := by
      apply cellsAt_congr
      intro x hlow _
      exact store_of_out (Or.inr hlow)
    rw [List.length_cons, cellsAt_cons, load_store, hrest, hcells.2]
  · obtain ⟨hstr, hlow, hhigh⟩ := h.strings q hq
    refine ⟨hstr.congr fun x hx _ => store_of_out (Or.inr ?_), hlow, hhigh⟩
    omega

/-- The stack that `finish_stack` leaves -/
structure Finished (b₀ : Builder) (words : List (BitVec 64)) (placed : List (ℕ × List Byte))
    (r : ℕ × Builder) : Prop where
  aligned : 16 ∣ r.1
  lower : b₀.s.base ≤ r.1
  upper : r.1 + 8 * words.length ≤ b₀.s.base + stackSize
  cells : r.2.memory.cellsAt r.1 words.length = words
  strings : ∀ q ∈ placed, IsString r.2.memory q.1 q.2 ∧ r.1 + 8 * words.length ≤ q.1 ∧
    q.1 + q.2.length < b₀.s.base + stackSize
  outside : ∀ x, x < b₀.s.base ∨ b₀.s.base + stackSize ≤ x → r.2.memory x = b₀.memory x
  mapped : r.2.mapped = b₀.mapped
  errno : r.2.errno = b₀.errno

lemma and_eight_ne_zero (x : ℕ) : x &&& 8 ≠ 0 ↔ x / 8 % 2 = 1 := by
  have hbit := Nat.and_two_pow x 3
  rw [show (2 : ℕ) ^ 3 = 8 from rfl, Nat.testBit_eq_decide_div_mod_eq] at hbit
  rw [hbit, show (2 : ℕ) ^ 3 = 8 from rfl]
  by_cases h : x / 8 % 2 = 1
  · simp [h]
  · simp [h]

/-- The pointers end at or below the strings, a multiple of 16 behind their begin. -/
lemma pointersEnd_spec {dataArea n : ℕ} (hfit : 8 * n + 16 ≤ dataArea) (hlt : dataArea < 2 ^ 64) :
    ∃ sp, pointersEnd dataArea (8 * n) = sp + 8 * n ∧ 16 ∣ sp ∧ sp + 8 * n ≤ dataArea ∧
      dataArea < sp + 8 * n + 16 := by
  obtain ⟨area, harea⟩ : ∃ area, dataArea - dataArea % 8 = area := ⟨_, rfl⟩
  unfold pointersEnd
  simp only [harea]
  rw [usub_of_le (by omega : 8 * n ≤ area) (by omega)]
  split_ifs with hodd
  · rw [and_eight_ne_zero] at hodd
    rw [usub_of_le (by omega : 8 ≤ area) (by omega)]
    exact ⟨area - 8 - 8 * n, by omega, by omega, by omega, by omega⟩
  · rw [and_eight_ne_zero] at hodd
    exact ⟨area - 8 * n, by omega, by omega, by omega, by omega⟩

lemma finishStack_spec (hc : Created b₀) (h : Building b₀ words placed used b) :
    Finished b₀ words placed (finishStack b) := by
  have hsize := stackSize_eq
  obtain ⟨hargNext, hspace, hwords, hused, hupper⟩ := h.layout hc
  have hbase : b.s.base = b₀.s.base := by rw [h.same]
  have hargSize : usub b.s.argNext b₀.s.base = 8 * words.length := by
    rw [h.argNext, usub_of_le (by omega) (by omega)]
    omega
  obtain ⟨sp, harea, haligned, hhigh, hnear⟩ :=
    @pointersEnd_spec b.s.dataArea words.length (by omega) (by omega)
  have hlow : b₀.s.base ≤ sp := by omega
  have hsp : usub (sp + 8 * words.length) (8 * words.length) = sp := by
    rw [usub_of_le (by omega) (by omega)]
    omega
  have hmemory := @memmove_fst b.memory sp b₀.s.base (8 * words.length) (by omega) (by omega)
  obtain ⟨builder, hfinish⟩ : ∃ builder, finishStack b = (sp, { b with
      memory := b.memory.writeBytes sp (b.memory.bytesAt b₀.s.base (8 * words.length))
      s := builder }) := by
    unfold finishStack
    simp only [hbase, hargSize, harea, hsp, hmemory, memmove_snd]
    exact ⟨_, rfl⟩
  have hlength : (b.memory.bytesAt b₀.s.base (8 * words.length)).length = 8 * words.length :=
    length_bytesAt _ _ _
  rw [hfinish]
  refine ⟨haligned, hlow, ?_, ?_, fun q hq => ?_, fun x hx => ?_, ?_, ?_⟩
  · dsimp only
    omega
  · dsimp only
    rw [cellsAt_writeBytes, h.cells]
  · obtain ⟨hstr, hbelow, habove⟩ := h.strings q hq
    refine ⟨hstr.congr fun x hx _ => writeBytes_of_out (Or.inr ?_), ?_, habove⟩
    · rw [hlength]
      omega
    · dsimp only
      omega
  · rw [← h.outside x hx]
    apply writeBytes_of_out
    rw [hlength]
    omega
  · rw [h.same]
  · rw [h.same]

/-! ### The stack as the program reads it -/

lemma cellsAt_add (m : ByteMemory) (a n k : ℕ) :
    m.cellsAt a (n + k) = m.cellsAt a n ++ m.cellsAt (a + 8 * n) k := by
  induction n generalizing a with
  | zero => simp [cellsAt]
  | succ n ih =>
    have hcell : a + 8 + 8 * n = a + 8 * (n + 1) := by omega
    rw [Nat.add_right_comm, cellsAt_cons, cellsAt_cons, ih, List.cons_append, hcell]

/-- Two rows of cells, one behind the other -/
lemma cellsAt_split {m : ByteMemory} {a n : ℕ} {l l' : List (BitVec 64)}
    (h : m.cellsAt a n = l ++ l') :
    m.cellsAt a l.length = l ∧ m.cellsAt (a + 8 * l.length) l'.length = l' := by
  have hn : n = l.length + l'.length := by
    rw [← List.length_append, ← h, length_cellsAt]
  rw [hn, cellsAt_add] at h
  exact List.append_inj h (length_cellsAt ..)

lemma Pointers.stringArray {m : ByteMemory} {P : ℕ → ℕ → Prop} {ptrs : List (BitVec 64)}
    {args : List (List Byte)} (hptrs : Pointers placed ptrs args)
    (hplaced : ∀ q ∈ placed, IsString m q.1 q.2 ∧ P q.1 (q.2.length + 1)) {a : ℕ}
    (hcells : m.cellsAt a (ptrs ++ [0]).length = ptrs ++ [0])
    (hend : a + 8 * (ptrs ++ [0]).length ≤ 2 ^ 64) : StringArray m P a args := by
  induction hptrs generalizing a with
  | nil =>
    rw [List.nil_append, List.length_singleton] at hcells hend
    exact .nil hend (List.cons.inj hcells).1
  | @cons ptr s ptrs args hptr hptrs ih =>
    rw [List.cons_append, List.length_cons, cellsAt_cons, List.cons.injEq] at hcells
    rw [List.cons_append, List.length_cons] at hend
    obtain ⟨hload, hcells⟩ := hcells
    obtain ⟨hne, hmem⟩ := hptr
    obtain ⟨hstr, hrange⟩ := hplaced _ hmem
    refine .cons (by omega) ?_ ?_ ?_ (ih hcells (by omega))
    · rw [hload]
      exact hne
    · rw [hload]
      exact hstr
    · rw [hload]
      exact hrange

/-- A stack that a program reads its arguments and its environment from. The two arrays lie inside
of it, and the strings behind them. -/
structure ProgramStack (m : ByteMemory) (lo sp : ℕ) (args env : List (List Byte)) : Prop where
  aligned : 16 ∣ sp
  lower : lo ≤ sp
  upper : sp + 8 * (args.length + env.length + 4) ≤ lo + stackSize
  read : ∃ argv envp, libcStartMain m sp = ((args.length : ℤ), argv, envp) ∧
    StringArray m (fun p n => sp + 8 * (args.length + env.length + 4) ≤ p ∧
      p + n ≤ lo + stackSize) argv args ∧
    StringArray m (fun p n => sp + 8 * (args.length + env.length + 4) ≤ p ∧
      p + n ≤ lo + stackSize) envp env ∧
    m.load (envp + 8 * (env.length + 1)) = 0

lemma Finished.programStack {r : ℕ × Builder} {args env : List (List Byte)}
    {ptrs ptrs' : List (BitVec 64)} (hc : Created b₀)
    (h : Finished b₀ (BitVec.ofNat 64 args.length :: (ptrs ++ [0]) ++ (ptrs' ++ [0]) ++ [0])
      placed r)
    (hptrs : Pointers placed ptrs args) (hptrs' : Pointers placed ptrs' env) :
    ProgramStack r.2.memory b₀.s.base r.1 args env := by
  have hlen := hptrs.length_eq
  have hlen' := hptrs'.length_eq
  have hwords : (BitVec.ofNat 64 args.length :: (ptrs ++ [0]) ++ (ptrs' ++ [0]) ++ [0]).length =
      args.length + env.length + 4 := by
    simp only [List.length_append, List.length_cons, List.length_nil]
    omega
  have hlower := h.lower
  have hupper := h.upper
  have hstack := stackSize_eq
  have htop := hc.upper
  simp only [memLowHalfMax] at htop
  rw [hwords] at hupper
  obtain ⟨hleft, hauxv⟩ := cellsAt_split h.cells
  obtain ⟨hleft, henv⟩ := cellsAt_split hleft
  rw [List.length_cons, cellsAt_cons, List.cons.injEq] at hleft
  obtain ⟨hargc, hargv⟩ := hleft
  have hplaced : ∀ q ∈ placed, IsString r.2.memory q.1 q.2 ∧
      (r.1 + 8 * (args.length + env.length + 4) ≤ q.1 ∧
        q.1 + (q.2.length + 1) ≤ b₀.s.base + stackSize) := by
    intro q hq
    obtain ⟨hstr, hlow, hhigh⟩ := h.strings q hq
    rw [hwords] at hlow
    exact ⟨hstr, hlow, hhigh⟩
  have hlength : (ptrs ++ [0]).length = args.length + 1 := by simp [hlen]
  have hlength' : (ptrs' ++ [0]).length = env.length + 1 := by simp [hlen']
  have hstart : libcStartMain r.2.memory r.1 =
      ((args.length : ℤ), r.1 + 8, r.1 + 8 * (args.length + 2)) := by
    have hint : (((BitVec.ofNat 64 args.length).setWidth 32).toInt) = (args.length : ℤ) := by
      have htoNat : (BitVec.ofNat 32 args.length).toNat = args.length := by
        rw [BitVec.toNat_ofNat, Nat.mod_eq_of_lt (by omega)]
      rw [BitVec.setWidth_ofNat_of_le (by decide), BitVec.toInt_eq_toNat_of_lt (by omega), htoNat]
    unfold libcStartMain
    rw [hargc, hint, uadd_of_lt (by omega)]
    dsimp only
    rw [uaddIsize_of_nonneg (by omega) (by omega)]
    refine Prod.ext rfl (Prod.ext rfl ?_)
    dsimp only
    omega
  refine ⟨h.aligned, h.lower, hupper, r.1 + 8, r.1 + 8 * (args.length + 2), hstart, ?_, ?_, ?_⟩
  · refine hptrs.stringArray hplaced hargv ?_
    rw [hlength]
    omega
  · refine hptrs'.stringArray hplaced ?_ ?_
    · rw [List.length_cons, hlength] at henv
      exact henv
    · rw [hlength']
      omega
  · rw [List.length_append, List.length_cons, hlength, hlength'] at hauxv
    have hload := (List.cons.inj hauxv).1
    have hcell : r.1 + 8 * (args.length + 2) + 8 * (env.length + 1) =
        r.1 + 8 * (args.length + 1 + 1 + (env.length + 1)) := by omega
    rw [hcell]
    exact hload

/-! ### `build_stack` -/

/-- A fresh range for the stack: it is aligned, not at zero and in user memory, and the arrays of
the arguments and of the environment lie outside of it. -/
structure FreshStack (m : ByteMemory) (lo argv envp : ℕ) (args env : List (List Byte)) : Prop where
  pos : 0 < lo
  aligned : 4096 ∣ lo
  upper : lo + stackSize ≤ memLowHalfMax
  argStrings : StringArray m (Outside lo (lo + stackSize)) argv args
  argv : Outside lo (lo + stackSize) argv (8 * (args.length + 1))
  envStrings : StringArray m (Outside lo (lo + stackSize)) envp env
  envp : Outside lo (lo + stackSize) envp (8 * (env.length + 1))

/-- An array outside of a range does not depend on what the range holds. -/
lemma StringArray.congr {m m' : ByteMemory} {lo hi a : ℕ} {args : List (List Byte)}
    (h : StringArray m (Outside lo hi) a args) (hout : Outside lo hi a (8 * (args.length + 1)))
    (hm : ∀ x, x < lo ∨ hi ≤ x → m' x = m x) : StringArray m' (Outside lo hi) a args := by
  induction h with
  | @nil a hend hnull =>
    refine .nil hend ?_
    rw [← hnull]
    refine load_congr fun x hlow hhigh => hm x ?_
    unfold Outside at hout
    rw [List.length_nil] at hout
    omega
  | @cons a s rest hend hptr hstr hrange hrest ih =>
    unfold Outside at hout
    rw [List.length_cons] at hout
    have hload : m'.load a = m.load a := load_congr fun x hlow hhigh => hm x (by omega)
    refine .cons hend ?_ ?_ ?_ (ih (by unfold Outside; omega))
    · rw [hload]
      exact hptr
    · rw [hload]
      refine hstr.congr fun x hlow hhigh => hm x ?_
      unfold Outside at hrange
      omega
    · rw [hload]
      exact hrange

/-- The builder that `create_stack` leaves -/
def createdAt (b : Builder) (lo : ℕ) : Builder where
  memory := b.memory.writeBytes lo (List.replicate stackSize 0)
  errno := b.errno
  mapped := (lo, stackSize) :: b.mapped
  s := { StackBuilder.cleared with
    base := lo, argNext := lo, dataArea := lo + stackSize, top := lo + stackSize }

lemma createdAt_created {m : ByteMemory} {lo argv envp : ℕ} {args env : List (List Byte)}
    (h : FreshStack m lo argv envp args env) : Created (createdAt b lo) :=
  ⟨rfl, rfl, rfl, h.pos, h.aligned, h.upper⟩

lemma createdAt_outside {lo x : ℕ} (hx : x < lo ∨ lo + stackSize ≤ x) :
    (createdAt b lo).memory x = b.memory x := by
  apply writeBytes_of_out
  rw [List.length_replicate]
  exact hx

lemma createdAt_building (b : Builder) (lo : ℕ) :
    Building (createdAt b lo) [] [] 0 (createdAt b lo) :=
  ⟨rfl, rfl, rfl, le_rfl, by decide, fun _ _ => rfl, rfl, fun q hq => (by cases hq)⟩

lemma createStack_eq {virtualMap : ℕ → ℕ → ℤ} {tsc lo : ℕ}
    (hmap : virtualMap (stackHint tsc) stackSize = lo) (hlo : lo + stackSize ≤ memLowHalfMax) :
    createStack virtualMap tsc { b with s := .cleared } = .ok (createdAt b lo) := by
  simp only [memLowHalfMax] at hlo
  have htop : uadd lo stackSize = lo + stackSize := uadd_of_lt (by omega)
  unfold createStack mmap
  simp only [hmap, ge_iff_le, Nat.cast_nonneg, if_true, Int.toNat_natCast, htop]
  rfl

lemma fillStack_spec {virtualMap : ℕ → ℕ → ℤ} {tsc lo argv envp : ℕ} {args env : List (List Byte)}
    (hmap : virtualMap (stackHint tsc) stackSize = lo)
    (h : FreshStack b.memory lo argv envp args env) :
    Ensures (fun l => Overflowed (createdAt b lo) l ∧ argMax ≤ stackCost args env)
      (fun r => ∃ words placed, Finished (createdAt b lo) words placed r ∧
        ProgramStack r.2.memory lo r.1 args env ∧ stackCost args env < argMax)
      (fillStack virtualMap tsc argv envp b) := by
  have hc : Created (createdAt b lo) := createdAt_created h
  have hargs : StringArray (createdAt b lo).memory (Outside lo (lo + stackSize)) argv args :=
    h.argStrings.congr h.argv fun x hx => createdAt_outside hx
  have henv : StringArray (createdAt b lo).memory (Outside lo (lo + stackSize)) envp env :=
    h.envStrings.congr h.envp fun x hx => createdAt_outside hx
  have hcost : stackCost args env = 0 + 8 + arrayCost args + arrayCost env + 8 := by
    unfold stackCost
    omega
  unfold fillStack
  dsimp only
  rw [createStack_eq hmap h.upper, ok_bind, hcost]
  refine bind_overflowed (pushArg_spec hc (createdAt_building b lo) 0) (by omega) ?_
  intro b₁ h₁
  refine bind_overflowed (addArray_spec hc hargs h.argv h₁) (by omega) ?_
  rintro b₂ ⟨ptrs, placed, hptrs, h₂⟩
  -- the number of pointers is the number of arguments
  have hbase : b₂.s.base = lo := by
    rw [h₂.same]
    rfl
  have hargc : usub (usub b₂.s.argNext 16) b₂.s.base / 8 = args.length := by
    have hupper := h.upper
    have hused := h₂.words_le
    have hlt := h₂.used_lt
    have hmax := argMax_eq
    have hlen := hptrs.length_eq
    have hwords : ([] ++ [0] ++ ptrs ++ [0] : List (BitVec 64)).length = args.length + 2 := by
      simp [hlen]
    have hnext : b₂.s.argNext = lo + 8 * (args.length + 2) := by
      rw [h₂.argNext, hwords]
      rfl
    simp only [memLowHalfMax] at hupper
    rw [hwords] at hused
    rw [hnext, hbase, usub_of_le (by omega : 16 ≤ lo + 8 * (args.length + 2)) (by omega),
      usub_of_le (by omega) (by omega)]
    omega
  have h₂' : Building (createdAt b lo) (0 :: (ptrs ++ [0])) (placed ++ [])
      (0 + 8 + arrayCost args) b₂ := h₂
  have h₃ := h₂'.setFirst (BitVec.ofNat 64 args.length)
  rw [hargc, hbase]
  refine bind_overflowed (addArray_spec hc henv h.envp h₃) (by omega) ?_
  rintro b₄ ⟨ptrs', placed', hptrs', h₄⟩
  refine bind_overflowed (pushArg_spec hc h₄ 0) le_rfl ?_
  intro b₅ h₅
  have hwords : BitVec.ofNat 64 args.length :: (ptrs ++ [0]) ++ ptrs' ++ [0] ++ [0] =
      BitVec.ofNat 64 args.length :: (ptrs ++ [0]) ++ (ptrs' ++ [0]) ++ [0] := by simp
  rw [hwords] at h₅
  have hfinished := finishStack_spec hc h₅
  have hptrs'' : Pointers (placed' ++ (placed ++ [])) ptrs args :=
    hptrs.imp fun _ _ h => ⟨h.1, List.mem_append_right _ h.2⟩
  exact ⟨_, _, hfinished, hfinished.programStack hc hptrs'' hptrs', h₅.used_lt⟩

/-- The buffer that `memset` has cleared is not the one of the call. -/
lemma buildStack_of_cleared {virtualMap : ℕ → ℕ → ℤ} {ctx : JmpBuf} {tsc argv envp : ℕ}
    {b' : Builder} (hctx : ctx.returnAddress ≠ 0)
    (h : fillStack virtualMap tsc argv envp { b with s := { b.s with onError := ctx } } =
      .error (.jumps StackBuilder.cleared.onError b')) :
    buildStack virtualMap ctx tsc argv envp b =
      .error (.jumps StackBuilder.cleared.onError b') := by
  have hne : StackBuilder.cleared.onError ≠ ctx := fun heq => hctx (by rw [← heq]; rfl)
  unfold buildStack
  rw [h]
  dsimp only
  rw [if_neg hne]

end

lemma buildStack_built {virtualMap : ℕ → ℕ → ℤ} {tsc lo argv envp : ℕ}
    {args env : List (List Byte)} {b : Builder} (ctx : JmpBuf)
    (hmap : virtualMap (stackHint tsc) stackSize = lo)
    (h : FreshStack b.memory lo argv envp args env) (hcost : stackCost args env < argMax) :
    ∃ r words placed, buildStack virtualMap ctx tsc argv envp b = .ok r ∧
      Finished (createdAt b lo) words placed r ∧ ProgramStack r.2.memory lo r.1 args env := by
  have hspec := @fillStack_spec { b with s := { b.s with onError := ctx } } virtualMap tsc lo argv
    envp args env hmap h
  unfold buildStack
  cases hfill : fillStack virtualMap tsc argv envp { b with s := { b.s with onError := ctx } } with
  | error l =>
    rw [hfill] at hspec
    exact absurd hcost (Nat.not_lt.mpr hspec.2)
  | ok r =>
    rw [hfill] at hspec
    obtain ⟨words, placed, hfinished, hstack, -⟩ := hspec
    exact ⟨r, words, placed, rfl, hfinished, hstack⟩

lemma buildStack_overflowed {virtualMap : ℕ → ℕ → ℤ} {ctx : JmpBuf} {tsc lo argv envp : ℕ}
    {args env : List (List Byte)} {b : Builder} (hctx : ctx.returnAddress ≠ 0)
    (hmap : virtualMap (stackHint tsc) stackSize = lo)
    (h : FreshStack b.memory lo argv envp args env) (hcost : argMax ≤ stackCost args env) :
    ∃ b', buildStack virtualMap ctx tsc argv envp b =
        .error (.jumps StackBuilder.cleared.onError b') ∧ b'.errno = E2BIG ∧
      b'.mapped = (lo, stackSize) :: b.mapped ∧
      ∀ x, x < lo ∨ lo + stackSize ≤ x → b'.memory x = b.memory x := by
  have hspec := @fillStack_spec { b with s := { b.s with onError := ctx } } virtualMap tsc lo argv
    envp args env hmap h
  cases hfill : fillStack virtualMap tsc argv envp { b with s := { b.s with onError := ctx } } with
  | error l =>
    rw [hfill] at hspec
    obtain ⟨⟨b', rfl, herrno, hmapped, houtside⟩, -⟩ := hspec
    refine ⟨b', buildStack_of_cleared hctx hfill, herrno, hmapped, fun x hx => ?_⟩
    rw [houtside x hx]
    exact createdAt_outside hx
  | ok r =>
    rw [hfill] at hspec
    obtain ⟨words, placed, -, -, hlt⟩ := hspec
    exact absurd hlt (Nat.not_lt.mpr hcost)

/-- When the sizes stay below `ARG_MAX`, `build_stack` returns a stack in the fresh range from which
`__libc_start_main` reads the arguments and the environment again. The strings lie behind the
pointers, and nothing outside of the range is written. -/
theorem buildStack_roundTrip {virtualMap : ℕ → ℕ → ℤ} {tsc lo argv envp : ℕ}
    {args env : List (List Byte)} {b : Builder} (ctx : JmpBuf)
    (hmap : virtualMap (stackHint tsc) stackSize = lo)
    (h : FreshStack b.memory lo argv envp args env) (hcost : stackCost args env < argMax) :
    ∃ sp b', buildStack virtualMap ctx tsc argv envp b = .ok (sp, b') ∧
      ProgramStack b'.memory lo sp args env ∧ b'.mapped = (lo, stackSize) :: b.mapped ∧
      b'.errno = b.errno ∧ ∀ x, x < lo ∨ lo + stackSize ≤ x → b'.memory x = b.memory x := by
  obtain ⟨r, words, placed, hbuild, hfinished, hstack⟩ := buildStack_built ctx hmap h hcost
  refine ⟨r.1, r.2, hbuild, hstack, hfinished.mapped, hfinished.errno, fun x hx => ?_⟩
  rw [hfinished.outside x hx]
  exact createdAt_outside hx

/-- A process with the arguments `"i"` and `"-v"` and with `"A=b"` in its environment -/
def twoArguments : Builder where
  memory := fun x =>
    if x ∈ [0x1001, 0x1009, 0x1020, 0x1021] then 0x20
    else if x = 0x1008 then 0x10
    else if x = 0x2000 then 0x69
    else if x = 0x2010 then 0x2d else if x = 0x2011 then 0x76
    else if x = 0x2020 then 0x41 else if x = 0x2021 then 0x3d else if x = 0x2022 then 0x62
    else 0
  errno := 0
  mapped := []
  s := .cleared

lemma twoArguments_fresh : FreshStack twoArguments.memory 0x7e0000000000 0x1000 0x1020
    [[0x69], [0x2d, 0x76]] [[0x41, 0x3d, 0x62]] where
  pos := by decide
  aligned := by decide
  upper := by decide
  argStrings :=
    .cons (by decide) (by decide) ⟨by decide, by decide, by decide⟩ (Or.inl (by decide)) <|
    .cons (by decide) (by decide) ⟨by decide, by decide, by decide⟩ (Or.inl (by decide)) <|
    .nil (by decide) (by decide)
  argv := Or.inl (by decide)
  envStrings :=
    .cons (by decide) (by decide) ⟨by decide, by decide, by decide⟩ (Or.inl (by decide)) <|
    .nil (by decide) (by decide)
  envp := Or.inl (by decide)

theorem buildStack_roundTrip_two :
    ∃ sp b', buildStack (fun hint _ => hint) ⟨0x400000, 0, 0, 0, 0, 0, 0, 0x7000⟩ 0 0x1000 0x1020
        twoArguments = .ok (sp, b') ∧
      ProgramStack b'.memory 0x7e0000000000 sp [[0x69], [0x2d, 0x76]] [[0x41, 0x3d, 0x62]] ∧
      b'.mapped = [(0x7e0000000000, stackSize)] ∧ b'.errno = 0 ∧
      ∀ x, x < 0x7e0000000000 ∨ 0x7e0000000000 + stackSize ≤ x →
        b'.memory x = twoArguments.memory x :=
  buildStack_roundTrip ⟨0x400000, 0, 0, 0, 0, 0, 0, 0x7000⟩ (by decide) twoArguments_fresh
    (by decide)

/-! ### `fexecve` -/

/-- A read that does not fail delivers a prefix of the file, which is empty at its end only. -/
lemma ExecFile.read_spec {f : ExecFile} (hf : ∀ r ∈ f.reads, ∃ k, r = .ok k) {n : ℕ} (hn : 0 < n) :
    ∃ count reads, count ≤ n ∧ count ≤ f.bytes.length ∧ (count = 0 → f.bytes = []) ∧
      (∀ r ∈ reads, ∃ k, r = .ok k) ∧
      f.read n =
        (.ok (f.bytes.take count), { f with bytes := f.bytes.drop count, reads := reads }) := by
  have hcut : ∀ count, f.bytes.take count = f.bytes.take (min count f.bytes.length) ∧
      f.bytes.drop count = f.bytes.drop (min count f.bytes.length) := by
    intro count
    rcases Nat.le_total count f.bytes.length with h | h
    · rw [min_eq_left h]
      exact ⟨rfl, rfl⟩
    · rw [min_eq_right h, List.take_of_length_le h, List.drop_of_length_le h, List.take_length,
        List.drop_length]
      exact ⟨rfl, rfl⟩
  have hempty : ∀ count, 0 < count → min count f.bytes.length = 0 → f.bytes = [] := by
    intro count hpos hzero
    apply List.eq_nil_of_length_eq_zero
    omega
  unfold ExecFile.read
  cases hreads : f.reads with
  | nil =>
    refine ⟨min n f.bytes.length, [], min_le_left _ _, min_le_right _ _, hempty n hn,
      fun r hr => (by cases hr), ?_⟩
    rw [← (hcut n).1, ← (hcut n).2]
  | cons r reads =>
    rw [hreads] at hf
    obtain ⟨k, rfl⟩ := hf r List.mem_cons_self
    have hpos : 0 < min n (max 1 k) := by omega
    refine ⟨min (min n (max 1 k)) f.bytes.length, reads, by omega, min_le_right _ _,
      hempty _ hpos, fun r hr => hf r (List.mem_cons_of_mem _ hr), ?_⟩
    rw [← (hcut _).1, ← (hcut _).2]

/-- However the reads are cut, `read_into` delivers the first bytes of the file, when there are as
many. -/
lemma readInto_spec (len : ℕ) {f : ExecFile} (hf : ∀ r ∈ f.reads, ∃ k, r = .ok k) (hlen : 0 < len) :
    (len ≤ f.bytes.length → ∃ f', readInto f len = .ok (f.bytes.take len, f')) ∧
      (f.bytes.length < len → readInto f len = .error ENOEXEC) := by
  induction len using Nat.strong_induction_on generalizing f with
  | _ len ih =>
    obtain ⟨count, reads, hcount, hle, hzero, hreads, hread⟩ := ExecFile.read_spec hf hlen
    rw [readInto, hread]
    cases hbytes : f.bytes.take count with
    | nil =>
      have hnone : f.bytes = [] := by
        rcases List.take_eq_nil_iff.mp hbytes with h | h
        · exact hzero h
        · exact h
      rw [hnone, List.length_nil]
      exact ⟨fun h => absurd hlen (Nat.not_lt.mpr h), fun _ => rfl⟩
    | cons byte bytes =>
      have hlength : bytes.length + 1 = count := by
        rw [← List.length_cons, ← hbytes, List.length_take_of_le hle]
      have htake : f.bytes.take len = byte :: bytes ++ (f.bytes.drop count).take (len - count) := by
        rw [← hbytes, ← List.take_add, Nat.add_sub_cancel' hcount]
      dsimp only
      rw [hlength]
      split_ifs with hrest
      · obtain ⟨hlong, hshort⟩ := @ih (len - count) (by omega)
          { f with bytes := f.bytes.drop count, reads := reads } hreads hrest
        simp only [List.length_drop] at hlong hshort
        refine ⟨fun h => ?_, fun h => ?_⟩
        · obtain ⟨f', hf'⟩ := hlong (by omega)
          refine ⟨f', ?_⟩
          rw [hf', ok_bind, htake]
        · rw [hshort (by omega)]
          rfl
      · have hall : len - count = 0 := by omega
        rw [htake, hall, List.take_zero, List.append_nil]
        exact ⟨fun _ => ⟨_, rfl⟩, fun h => absurd hle (by omega)⟩

/-- The file can be rewound and begins with a header that is accepted. -/
structure ExecFile.Accepted (f : ExecFile) : Prop where
  seek : f.seek = none
  long : ehdrSize ≤ f.bytes.length
  valid : checkElfValid (.ofBytes (f.bytes.take ehdrSize)) = true

section

variable {virtualMap : ℕ → ℕ → ℤ} {ctx : JmpBuf} {tsc argv envp : ℕ} {f : ExecFile} {b : Builder}

lemma fexecve_eq (hf : ∀ r ∈ f.reads, ∃ k, r = .ok k) (h : f.Accepted) :
    fexecve virtualMap ctx tsc argv envp f b =
      (do
        let (sp, b) ← buildStack virtualMap ctx tsc argv envp b
        if sp = 0 then .ok (none, b) else .ok (some sp, b)) := by
  obtain ⟨f', hread⟩ := (readInto_spec ehdrSize hf (by decide)).1 h.long
  unfold fexecve
  simp only [h.seek, hread, h.valid, Bool.not_true, Bool.false_eq_true, if_false]

/-- There is no memory for a stack. -/
lemma fillStack_unmapped {b : Builder} (hmap : virtualMap (stackHint tsc) stackSize < 0) :
    fillStack virtualMap tsc argv envp b = .error (.jumps StackBuilder.cleared.onError
      { b with s := .cleared, errno := (-virtualMap (stackHint tsc) stackSize).toNat }) := by
  unfold fillStack createStack mmap
  simp only [ge_iff_le, Int.not_le.mpr hmap, if_false]
  rfl

end

/-- How `fexecve` ends when no read fails. It returns only for an error of the file, which leaves
everything but `errno` alone. Once the header is accepted it does not return: the program starts
on a stack that it reads its arguments from, or control leaves through the cleared buffer, since no
stack can be mapped or the sizes reach `ARG_MAX`; the stack then stays mapped. -/
theorem fexecve_ends {virtualMap : ℕ → ℕ → ℤ} {ctx : JmpBuf} {f : ExecFile} {b : Builder}
    (hctx : ctx.returnAddress ≠ 0) (hf : ∀ r ∈ f.reads, ∃ k, r = .ok k) (tsc argv envp : ℕ) :
    (∀ e, f.seek = some e →
      fexecve virtualMap ctx tsc argv envp f b = .ok (none, { b with errno := e })) ∧
    (f.seek = none → f.bytes.length < ehdrSize →
      fexecve virtualMap ctx tsc argv envp f b = .ok (none, { b with errno := ENOEXEC })) ∧
    (f.seek = none → ehdrSize ≤ f.bytes.length →
      checkElfValid (.ofBytes (f.bytes.take ehdrSize)) = false →
      fexecve virtualMap ctx tsc argv envp f b = .ok (none, b)) ∧
    (f.Accepted → virtualMap (stackHint tsc) stackSize < 0 →
      ∃ b', fexecve virtualMap ctx tsc argv envp f b =
          .error (.jumps StackBuilder.cleared.onError b') ∧
        b'.errno = (-virtualMap (stackHint tsc) stackSize).toNat ∧ b'.mapped = b.mapped ∧
        b'.memory = b.memory) ∧
    (f.Accepted → ∀ lo args env, virtualMap (stackHint tsc) stackSize = (lo : ℕ) →
      FreshStack b.memory lo argv envp args env →
      (stackCost args env < argMax → ∃ sp b', fexecve virtualMap ctx tsc argv envp f b =
          .ok (some sp, b') ∧ ProgramStack b'.memory lo sp args env) ∧
      (argMax ≤ stackCost args env → ∃ b', fexecve virtualMap ctx tsc argv envp f b =
          .error (.jumps StackBuilder.cleared.onError b') ∧ b'.errno = E2BIG ∧
        b'.mapped = (lo, stackSize) :: b.mapped ∧
        ∀ x, x < lo ∨ lo + stackSize ≤ x → b'.memory x = b.memory x)) := by
  refine ⟨fun e he => ?_, fun hseek hshort => ?_, fun hseek hlong hvalid => ?_,
    fun hfile hmap => ?_, fun hfile lo args env hmap h => ⟨fun hcost => ?_, fun hcost => ?_⟩⟩
  · unfold fexecve
    simp only [he]
  · have hread := (readInto_spec ehdrSize hf (by decide)).2 hshort
    unfold fexecve
    simp only [hseek, hread]
  · obtain ⟨f', hread⟩ := (readInto_spec ehdrSize hf (by decide)).1 hlong
    unfold fexecve
    simp only [hseek, hread, hvalid, Bool.not_false, if_true]
  · rw [fexecve_eq hf hfile, buildStack_of_cleared hctx (fillStack_unmapped hmap)]
    exact ⟨_, rfl, rfl, rfl, rfl⟩
  · obtain ⟨r, words, placed, hbuild, -, hstack⟩ := buildStack_built ctx hmap h hcost
    have hpos : r.1 ≠ 0 := by
      have hlower := hstack.lower
      have hlo := h.pos
      omega
    rw [fexecve_eq hf hfile, hbuild, ok_bind]
    dsimp only
    rw [if_neg hpos]
    exact ⟨r.1, r.2, rfl, hstack⟩
  · obtain ⟨b', hbuild, herrno, hmapped, houtside⟩ := buildStack_overflowed hctx hmap h hcost
    rw [fexecve_eq hf hfile, hbuild]
    exact ⟨b', rfl, herrno, hmapped, houtside⟩

/-- A file whose header is accepted, of which the first read delivers seven bytes -/
def oneHeader : ExecFile where
  seek := none
  bytes := [0x7f, 0x45, 0x4c, 0x46, 2, 1, 1, 0] ++ List.replicate 8 0 ++
    [2, 0, 62, 0, 1, 0, 0, 0, 0, 0x10, 0x40, 0, 0, 0, 0, 0, 64, 0, 0, 0, 0, 0, 0, 0] ++
    List.replicate 12 0 ++ [64, 0, 56, 0, 1, 0] ++ List.replicate 6 0
  reads := [.ok 7]

lemma oneHeader_accepted : oneHeader.Accepted := ⟨rfl, by decide, by decide⟩

lemma isString_replicate {m : ByteMemory} {a n : ℕ} {c : Byte} (hc : c ≠ 0)
    (hm : ∀ x, a ≤ x → x < a + n → m x = c) (hend : m (a + n) = 0) (hlt : a + n < 2 ^ 64) :
    IsString m a (List.replicate n c) := by
  have hbytes : m.bytesAt a n = List.replicate n c := by
    refine List.eq_replicate_iff.mpr ⟨length_bytesAt m a n, fun b hb => ?_⟩
    obtain ⟨i, hi, rfl⟩ := List.mem_map.mp hb
    have hlt := List.mem_range.mp hi
    exact hm _ (by omega) (by omega)
  refine ⟨?_, fun hmem => hc (List.eq_of_mem_replicate hmem).symm, ?_⟩
  · rw [List.length_replicate, bytesAt_add, hbytes, bytesAt_succ, bytesAt_zero, hend]
  · rwa [List.length_replicate]

/-- A process with an argument of 40000 letters and without an environment -/
def longArgument : Builder where
  memory := fun x =>
    if x = 0x1002 then 1 else if 0x10000 ≤ x ∧ x < 0x10000 + 40000 then 0x61 else 0
  errno := 0
  mapped := []
  s := .cleared

lemma longArgument_fresh : FreshStack longArgument.memory 0x7e0000000000 0x1000 0x1008
    [List.replicate 40000 0x61] [] where
  pos := by decide
  aligned := by decide
  upper := by decide
  argStrings := by
    have hload : (longArgument.memory.load 0x1000).toNat = 0x10000 := by decide
    refine .cons (by decide) (by decide) ?_ ?_ (.nil (by decide) (by decide))
    · rw [hload]
      refine isString_replicate (by decide) (fun x h1 h2 => ?_) rfl (by decide)
      have hne : x ≠ 0x1002 := by omega
      simp only [longArgument, if_neg hne, if_pos (And.intro h1 h2)]
    · rw [hload, List.length_replicate]
      exact Or.inl (by decide)
  argv := Or.inl (by decide)
  envStrings := .nil (by decide) (by decide)
  envp := Or.inl (by decide)

lemma argMax_le_longArgument : argMax ≤ stackCost [List.replicate 40000 0x61] [] := by
  rw [stackCost, arrayCost, arrayCost, List.map_cons, List.map_nil, List.length_replicate]
  decide

/-- Where a program was when it called `fexecve` -/
def execContext : JmpBuf := ⟨0x400000, 0, 0, 0, 0, 0, 0, 0x7000⟩

/-- A file that cannot be rewound, one that is too short and one whose header is not accepted; no
room for a stack, two arguments with an environment, and an argument that is too long -/
theorem fexecve_ends_twoArguments :
    fexecve (fun hint _ => hint) execContext 0 0x1000 0x1020 { oneHeader with seek := some 29 }
        twoArguments = .ok (none, { twoArguments with errno := 29 }) ∧
      fexecve (fun hint _ => hint) execContext 0 0x1000 0x1020 { oneHeader with bytes := [0x7f] }
        twoArguments = .ok (none, { twoArguments with errno := ENOEXEC }) ∧
      fexecve (fun hint _ => hint) execContext 0 0x1000 0x1020
        { oneHeader with bytes := List.replicate 64 0 } twoArguments = .ok (none, twoArguments) ∧
      (∃ b', fexecve (fun _ _ => -12) execContext 0 0x1000 0x1020 oneHeader twoArguments =
          .error (.jumps StackBuilder.cleared.onError b') ∧
        b'.errno = 12 ∧ b'.mapped = [] ∧ b'.memory = twoArguments.memory) ∧
      (∃ sp b', fexecve (fun hint _ => hint) execContext 0 0x1000 0x1020 oneHeader twoArguments =
          .ok (some sp, b') ∧
        ProgramStack b'.memory 0x7e0000000000 sp [[0x69], [0x2d, 0x76]] [[0x41, 0x3d, 0x62]]) ∧
      ∃ b', fexecve (fun hint _ => hint) execContext 0 0x1000 0x1008 oneHeader longArgument =
          .error (.jumps StackBuilder.cleared.onError b') ∧
        b'.errno = E2BIG ∧ b'.mapped = [(0x7e0000000000, stackSize)] ∧
        ∀ x, x < 0x7e0000000000 ∨ 0x7e0000000000 + stackSize ≤ x →
          b'.memory x = longArgument.memory x := by
  have hctx : execContext.returnAddress ≠ 0 := by decide
  have hreads : ∀ r ∈ oneHeader.reads, ∃ k, r = .ok k := fun r hr => ⟨7, List.mem_singleton.mp hr⟩
  have hends := fun f (hf : f.reads = oneHeader.reads) envp b virtualMap =>
    @fexecve_ends virtualMap execContext f b hctx (hf ▸ hreads) 0 0x1000 envp
  have hseek := (hends { oneHeader with seek := some 29 } rfl 0x1020 twoArguments
    (fun hint _ => hint)).1 29 rfl
  have hshort := (hends { oneHeader with bytes := [0x7f] } rfl 0x1020 twoArguments
    (fun hint _ => hint)).2.1 rfl (by decide)
  have hinvalid := (hends { oneHeader with bytes := List.replicate 64 0 } rfl 0x1020 twoArguments
    (fun hint _ => hint)).2.2.1 rfl (by decide) (by decide)
  have hunmapped := (hends oneHeader rfl 0x1020 twoArguments
    (fun _ _ => -12)).2.2.2.1 oneHeader_accepted (by decide)
  refine ⟨hseek, hshort, hinvalid, hunmapped, ?_, ?_⟩
  · exact ((hends _ rfl _ _ _).2.2.2.2 oneHeader_accepted 0x7e0000000000 _ _ (by decide)
      twoArguments_fresh).1 (by decide)
  · exact ((hends _ rfl _ _ _).2.2.2.2 oneHeader_accepted 0x7e0000000000 _ _ (by decide)
      longArgument_fresh).2 argMax_le_longArgument

end Fluke.Libc
