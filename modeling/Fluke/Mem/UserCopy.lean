import Fluke.Mem.Bytes
import Fluke.Mem.Memory
import Fluke.X86.Mmu.Isolation

/-!
# Copies between address spaces

`memcpy_user_user_catch_fault` reads the pages of the source through a software walk and the direct
map, and writes to the destination through the address space in CR3. The two sides cut their ranges
into pages at different places. `CopyInv` is what has happened after `k` bytes: the bytes of the
destination up to there have been written, from the bytes of the source when these are mapped, and
nothing else has.
-/

namespace Fluke

open Outcome TableEntry

/-! ### Stores of the kernel -/

/-- The processor lets the kernel write where every entry on the way allows it. -/
def writeAllowed (memory : Frame → Page) (va : ℕ) : ℕ → Word → Bool
  | 0, entry => entry &&& write != 0
  | d + 1, entry =>
    entry &&& write != 0 &&
      (decide (d + 1 < PDPT ∧ entry &&& psBit ≠ 0) ||
        writeAllowed memory va d (memory (entryTarget entry) (tableIndex (d + 1) va)))

/-- The physical address of a store to `va` in the address space `pm`, or nothing when it faults. -/
def storeAddress (memory : Frame → Page) (pm : Frame) (va : ℕ) : Option Word :=
  if (leafEntry memory pm va).isSome ∧
      writeAllowed memory va PDPT (memory pm (tableIndex PML4 va)) = true then
    some (virtToPhys memory pm va)
  else
    none

/-- `rep movsb` from the direct map into the address space `cr3`: whether it got to the end. Before
a fault the bytes up to the fault have been written. -/
def repMovsb (cr3 : Frame) : (count dest : ℕ) → (src : Word) → Pmm → Bool × Pmm
  | 0, _, _, s => (true, s)
  | count + 1, dest, src, s =>
    match storeAddress s.memory cr3 dest with
    | none => (false, s)
    | some target =>
      repMovsb cr3 count (uadd dest 1) (src + 1)
        (s.writeByte (placeOf target) (readByte s.memory (placeOf src)))

/-- `memcpy_catch_fault`, with the handler of the fault in `exception_kernel_entry`. -/
def memcpyCatchFault (cr3 : Frame) (dest : ℕ) (src : Word) (size catchFault : ℕ) (s : Pmm) :
    Except Panic (ℕ × Pmm) :=
  match repMovsb cr3 size dest src s with
  | (true, s) => .ok (0, s)
  | (false, s) =>
    if memcpyFaultWrite &&& catchFault = memcpyFaultWrite then .ok (memcpyFaultWrite, s)
    else .error .unhandledException

/-- The loop of `memcpy_user_user_catch_fault` -/
def copyPages (cr3 sourceMap : Frame) (destAddr sourceAddr count : ℕ) (s : Pmm) :
    Except Panic (ℕ × Pmm) :=
  if count = 0 then .ok (0, s)
  else
    let bytesToAlign := pageSize - sourceAddr % pageSize
    let n := min bytesToAlign count
    let copySrc := virtToPhys s.memory sourceMap sourceAddr
    match memcpyCatchFault cr3 destAddr copySrc n (memcpyFaultRead ||| memcpyFaultWrite) s with
    | .error e => .error e
    | .ok (err, s) =>
      if err ≠ 0 then .ok (err, s)
      else copyPages cr3 sourceMap (uadd destAddr n) (uadd sourceAddr n) (count - n) s
termination_by count
decreasing_by
  simp only [pageSize]
  omega

/-- `memcpy_user_user_catch_fault`, with the page maps of the two threads -/
def memcpyUserUserCatchFault {α : Type} [DecidableEq α] (currentThread : Option α)
    (destMap : Frame) (destAddr : ℕ) (sourceMap : Frame) (sourceAddr : ℕ) (size : ℤ)
    (m : MmuState) : Except Panic (ℕ × MmuState) :=
  match checkUserRange sourceAddr size with
  | .error _ => .ok (memcpyFaultRead, m)
  | .ok () =>
    match checkUserRange destAddr size with
    | .error _ => .ok (memcpyFaultWrite, m)
    | .ok () => do
      assert (currentThread = none) .noCurrentThread
      let m := { m with cr3 := destMap }
      let (err, pmm) ← copyPages m.cr3 sourceMap destAddr sourceAddr size.toNat m.pmm
      .ok (err, { m with pmm := pmm })

/-! ### Walks -/

/-- Addresses of one page have one entry. -/
lemma walk_congr_page {memory : Frame → Page} {va va' : ℕ} (h : va / 4096 = va' / 4096) (d : ℕ)
    (entry : Word) : walk memory va d entry = walk memory va' d entry := by
  induction d generalizing entry with
  | zero => rfl
  | succ d ih =>
    unfold walk
    rw [tableIndex_congr h, ih]

lemma leafEntry_congr_page {memory : Frame → Page} {pm : Frame} {va va' : ℕ}
    (h : va / 4096 = va' / 4096) : leafEntry memory pm va = leafEntry memory pm va' := by
  unfold leafEntry
  rw [tableIndex_congr h, walk_congr_page h]

/-- The tables a walk reads decide where the kernel may write. -/
lemma writeAllowed_congr {memory memory' : Frame → Page} {va d : ℕ} {entry : Word}
    (hpresent : (walk memory va d entry).isSome)
    (h : ∀ g ∈ walkTables memory va d entry, memory' g = memory g) :
    writeAllowed memory' va d entry = writeAllowed memory va d entry := by
  induction d generalizing entry with
  | zero => rfl
  | succ d ih =>
    unfold walkTables at h
    unfold walk at hpresent
    unfold writeAllowed
    split_ifs at h hpresent with h1 h2
    · cases hpresent
    · rw [decide_eq_true h2, Bool.true_or, Bool.true_or]
    · rw [h _ List.mem_cons_self] at *
      rw [ih hpresent fun g hg => h g (List.mem_cons_of_mem _ hg)]

/-- The place of a byte of a mapped page. -/
lemma placeOf_virtToPhys {memory : Frame → Page} {pm : Frame} {va : ℕ} {entry : Word}
    (h : leafEntry memory pm va = some (0, entry)) :
    placeOf (virtToPhys memory pm va) =
      (entryTarget entry, ⟨va % 4096, Nat.mod_lt _ (by decide)⟩) := by
  have hphys : virtToPhys memory pm va =
      (entry &&& tableEntryAddressMask) ||| (BitVec.ofNat 64 va &&& 0xfff) := by
    rw [virtToPhys_eq, h]
    rfl
  have hoffset : (BitVec.ofNat 64 va &&& 0xfff) &&& tableEntryAddressMask = 0#64 := by
    rw [BitVec.and_assoc, show (0xfff : Word) &&& tableEntryAddressMask = 0 by decide]
    exact BitVec.and_zero
  have hframe : (entry &&& tableEntryAddressMask) &&& 0xfff = 0#64 := by
    rw [BitVec.and_assoc, show tableEntryAddressMask &&& (0xfff : Word) = 0 by decide]
    exact BitVec.and_zero
  have hlow (w : Word) : w.toNat % 4096 = (w &&& 0xfff).toNat := by
    rw [BitVec.toNat_and]
    exact (Nat.and_two_pow_sub_one_eq_mod w.toNat 12).symm
  refine Prod.ext ?_ (Fin.ext ?_)
  · apply Frame.ext_address
    show virtToPhys memory pm va &&& tableEntryAddressMask = entry &&& tableEntryAddressMask
    rw [hphys, BitVec.and_or_distrib_right, hoffset, BitVec.and_assoc, BitVec.and_self,
      BitVec.or_zero]
  · show (virtToPhys memory pm va).toNat % 4096 = va % 4096
    rw [hlow, hphys, BitVec.and_or_distrib_right, hframe, BitVec.and_assoc, BitVec.and_self,
      BitVec.zero_or, ← hlow, BitVec.toNat_ofNat]
    omega

/-! ### The page maps -/

/-- The page maps of two threads, as the kernel keeps them: user pages are small, those of `destMap`
are no tables of either map, and no frame is mapped by it twice. -/
structure PageMaps (sourceMap destMap : Frame) (s : Pmm) : Prop where
  tables : ∀ pm, pm = sourceMap ∨ pm = destMap → ∀ va, Canonical va → ∀ va' < memLowHalfMax,
    ∀ entry, leafEntry s.memory destMap va' = some (0, entry) → entryTarget entry ≠ pm ∧
      entryTarget entry ∉ walkTables s.memory va PDPT (s.memory pm (tableIndex PML4 va))
  small : ∀ pm, pm = sourceMap ∨ pm = destMap → ∀ va < memLowHalfMax, ∀ x,
    leafEntry s.memory pm va = some x → x.1 = 0
  distinct : ∀ va < memLowHalfMax, ∀ va' < memLowHalfMax, ∀ entry entry',
    leafEntry s.memory destMap va = some (0, entry) →
    leafEntry s.memory destMap va' = some (0, entry') → entryTarget entry = entryTarget entry' →
    va / 4096 = va' / 4096

/-- The place of the byte that user code knows as `va`. -/
def userByte (s : Pmm) (pm : Frame) (va : ℕ) : BytePlace := placeOf (virtToPhys s.memory pm va)

/-- Both maps translate every address as before. -/
structure SameMaps (sourceMap destMap : Frame) (s s' : Pmm) : Prop where
  leaf : ∀ pm, pm = sourceMap ∨ pm = destMap → ∀ va, Canonical va →
    leafEntry s'.memory pm va = leafEntry s.memory pm va
  store : ∀ pm, pm = sourceMap ∨ pm = destMap → ∀ va, Canonical va →
    storeAddress s'.memory pm va = storeAddress s.memory pm va

lemma SameMaps.virtToPhys_eq {sourceMap destMap : Frame} {s s' : Pmm}
    (h : SameMaps sourceMap destMap s s') {pm : Frame} (hpm : pm = sourceMap ∨ pm = destMap)
    {va : ℕ} (hva : Canonical va) : virtToPhys s'.memory pm va = virtToPhys s.memory pm va := by
  rw [Fluke.virtToPhys_eq, Fluke.virtToPhys_eq, h.leaf pm hpm va hva]

lemma storeAddress_eq_some {memory : Frame → Page} {pm : Frame} {va : ℕ} {target : Word}
    (h : storeAddress memory pm va = some target) :
    target = virtToPhys memory pm va ∧ (leafEntry memory pm va).isSome := by
  unfold storeAddress at h
  split_ifs at h with hallowed
  exact ⟨(Option.some.inj h).symm, hallowed.1⟩

namespace PageMaps

variable {sourceMap destMap : Frame} {s s' : Pmm} {pm : Frame} {va va' : ℕ}

/-- A user address that is mapped has a page table entry. -/
lemma exists_entry (h : PageMaps sourceMap destMap s) (hpm : pm = sourceMap ∨ pm = destMap)
    (hva : va < memLowHalfMax) (hmapped : (leafEntry s.memory pm va).isSome) :
    ∃ entry, leafEntry s.memory pm va = some (0, entry) := by
  obtain ⟨⟨l, entry⟩, hx⟩ := Option.isSome_iff_exists.mp hmapped
  have hl : l = 0 := h.small pm hpm va hva _ hx
  subst hl
  exact ⟨entry, hx⟩

/-- The byte has one address in the destination. -/
lemma userByte_inj (h : PageMaps sourceMap destMap s) (hva : va < memLowHalfMax)
    (hva' : va' < memLowHalfMax) (hmapped : (leafEntry s.memory destMap va).isSome)
    (hmapped' : (leafEntry s.memory destMap va').isSome)
    (heq : userByte s destMap va = userByte s destMap va') : va = va' := by
  obtain ⟨entry, hentry⟩ := h.exists_entry (Or.inr rfl) hva hmapped
  obtain ⟨entry', hentry'⟩ := h.exists_entry (Or.inr rfl) hva' hmapped'
  rw [userByte, userByte, placeOf_virtToPhys hentry, placeOf_virtToPhys hentry'] at heq
  obtain ⟨hframe, hoffset⟩ := Prod.mk.inj heq
  have hpage := h.distinct va hva va' hva' entry entry' hentry hentry' hframe
  have hmod := congrArg Fin.val hoffset
  simp only at hmod
  omega

/-- Writing to pages that the destination maps changes neither map. -/
lemma sameMaps (h : PageMaps sourceMap destMap s)
    (hframes : ∀ g, (∀ va < memLowHalfMax, ∀ entry,
      leafEntry s.memory destMap va = some (0, entry) → entryTarget entry ≠ g) →
      s'.memory g = s.memory g) : SameMaps sourceMap destMap s s' := by
  have hroot : ∀ pm, pm = sourceMap ∨ pm = destMap → s'.memory pm = s.memory pm :=
    fun pm hpm => hframes pm fun va hva entry hentry =>
      (h.tables pm hpm 0 (Or.inl (by decide)) va hva entry hentry).1
  have htables : ∀ pm, pm = sourceMap ∨ pm = destMap → ∀ va, Canonical va →
      ∀ g ∈ walkTables s.memory va PDPT (s.memory pm (tableIndex PML4 va)),
        s'.memory g = s.memory g := fun pm hpm va hva g hg =>
    hframes g fun va' hva' entry hentry heq =>
      (h.tables pm hpm va hva va' hva' entry hentry).2 (heq ▸ hg)
  have hleaf : ∀ pm, pm = sourceMap ∨ pm = destMap → ∀ va, Canonical va →
      leafEntry s'.memory pm va = leafEntry s.memory pm va := by
    intro pm hpm va hva
    unfold leafEntry
    rw [hroot pm hpm]
    exact walk_congr (htables pm hpm va hva)
  refine ⟨hleaf, fun pm hpm va hva => ?_⟩
  unfold storeAddress
  rw [Fluke.virtToPhys_eq, Fluke.virtToPhys_eq, hleaf pm hpm va hva, hroot pm hpm]
  by_cases hmapped : (leafEntry s.memory pm va).isSome
  · rw [writeAllowed_congr hmapped (htables pm hpm va hva)]
  · rw [if_neg fun hn => hmapped hn.1, if_neg fun hn => hmapped hn.1]

end PageMaps

/-! ### What has been copied -/

/-- The range of the source is mapped, and apart from that of the destination. -/
structure Readable (sourceMap destMap : Frame) (destAddr sourceAddr size : ℕ) (s : Pmm) : Prop where
  mapped : ∀ j < size, (leafEntry s.memory sourceMap (sourceAddr + j)).isSome
  apart : ∀ i < size, ∀ j < size,
    userByte s sourceMap (sourceAddr + i) ≠ userByte s destMap (destAddr + j)

/-- After `k` bytes. -/
structure CopyInv (sourceMap destMap : Frame) (destAddr sourceAddr size k : ℕ) (s s' : Pmm) :
    Prop where
  le : k ≤ size
  rest : s' = { s with memory := s'.memory }
  stored : ∀ j < k, (leafEntry s.memory destMap (destAddr + j)).isSome
  copied : Readable sourceMap destMap destAddr sourceAddr size s → ∀ j < k,
    readByte s'.memory (userByte s destMap (destAddr + j)) =
      readByte s.memory (userByte s sourceMap (sourceAddr + j))
  frame : ∀ p, (∀ j < k, p ≠ userByte s destMap (destAddr + j)) →
    readByte s'.memory p = readByte s.memory p
  frames : ∀ g, (∀ j < k, g ≠ (userByte s destMap (destAddr + j)).1) →
    s'.memory g = s.memory g

namespace CopyInv

variable {sourceMap destMap : Frame} {destAddr sourceAddr size k : ℕ} {s s' : Pmm}

lemma start : CopyInv sourceMap destMap destAddr sourceAddr size 0 s s :=
  ⟨Nat.zero_le _, rfl, fun _ h => absurd h (Nat.not_lt_zero _),
    fun _ _ h => absurd h (Nat.not_lt_zero _), fun _ _ => rfl, fun _ _ => rfl⟩

lemma sameMaps (h : CopyInv sourceMap destMap destAddr sourceAddr size k s s')
    (hmaps : PageMaps sourceMap destMap s) (hdest : destAddr + size ≤ memLowHalfMax) :
    SameMaps sourceMap destMap s s' := by
  refine hmaps.sameMaps fun g hg => h.frames g fun j hj heq => ?_
  have hva : destAddr + j < memLowHalfMax := by
    have := h.le
    omega
  obtain ⟨entry, hentry⟩ := hmaps.exists_entry (Or.inr rfl) hva (h.stored j hj)
  rw [userByte, placeOf_virtToPhys hentry] at heq
  exact hg _ hva entry hentry heq.symm

/-- One more byte. -/
lemma step (h : CopyInv sourceMap destMap destAddr sourceAddr size k s s')
    (hmaps : PageMaps sourceMap destMap s) (hdest : destAddr + size ≤ memLowHalfMax)
    (hk : k < size) {target src : Word}
    (htarget : storeAddress s.memory destMap (destAddr + k) = some target)
    (hsrc : Readable sourceMap destMap destAddr sourceAddr size s →
      placeOf src = userByte s sourceMap (sourceAddr + k)) :
    CopyInv sourceMap destMap destAddr sourceAddr size (k + 1) s
      (s'.writeByte (placeOf target) (readByte s'.memory (placeOf src))) := by
  obtain ⟨rfl, hmapped⟩ := storeAddress_eq_some htarget
  have hlast (j : ℕ) (hj : j < k + 1) : j < k ∨ j = k := Nat.lt_succ_iff_lt_or_eq.mp hj
  have hplace : placeOf (virtToPhys s.memory destMap (destAddr + k)) =
      userByte s destMap (destAddr + k) := rfl
  rw [hplace]
  refine ⟨hk, ?_, ?_, ?_, ?_, ?_⟩
  · rw [h.rest]
    rfl
  · intro j hj
    rcases hlast j hj with hj | rfl
    · exact h.stored j hj
    · exact hmapped
  · intro hread j hj
    rcases hlast j hj with hj | rfl
    · rw [readByte_writeByte_of_ne, h.copied hread j hj]
      intro heq
      have := hmaps.userByte_inj (by omega) (by omega) (h.stored j hj) hmapped heq
      omega
    · rw [readByte_writeByte_self, hsrc hread]
      exact h.frame _ fun i hi => hread.apart j hk i (hi.trans hk)
  · intro p hp
    rw [readByte_writeByte_of_ne _ _ (hp k (Nat.lt_succ_self k))]
    exact h.frame p fun j hj => hp j (hj.trans (Nat.lt_succ_self k))
  · intro g hg
    rw [Pmm.writeByte_of_ne_frame _ _ (hg k (Nat.lt_succ_self k))]
    exact h.frames g fun j hj => hg j (hj.trans (Nat.lt_succ_self k))

end CopyInv

/-! ### The loops -/

/-- How a copy ends: with every byte copied, or at a byte of the destination that cannot be
written. -/
inductive CopyEnd (sourceMap destMap : Frame) (destAddr sourceAddr size last : ℕ) (s s' : Pmm) :
    Bool → Prop
  | done (h : CopyInv sourceMap destMap destAddr sourceAddr size last s s') :
    CopyEnd sourceMap destMap destAddr sourceAddr size last s s' true
  | fault (k : ℕ) (h : CopyInv sourceMap destMap destAddr sourceAddr size k s s') (hk : k < last)
    (hnone : storeAddress s.memory destMap (destAddr + k) = none) :
    CopyEnd sourceMap destMap destAddr sourceAddr size last s s' false

section

variable {sourceMap destMap : Frame} {destAddr sourceAddr size k : ℕ} {s s' : Pmm}

lemma canonical_of_lt {va : ℕ} (h : va < memLowHalfMax) : Canonical va := Or.inl h

/-- One `rep movsb`, of the bytes from `k` on. -/
lemma repMovsb_spec (hmaps : PageMaps sourceMap destMap s)
    (hdest : destAddr + size ≤ memLowHalfMax) (n : ℕ) {src : Word}
    (h : CopyInv sourceMap destMap destAddr sourceAddr size k s s') (hle : k + n ≤ size)
    (hsrc : Readable sourceMap destMap destAddr sourceAddr size s → ∀ j < n,
      placeOf (src + BitVec.ofNat 64 j) = userByte s sourceMap (sourceAddr + (k + j))) :
    CopyEnd sourceMap destMap destAddr sourceAddr size (k + n) s
      (repMovsb destMap n (destAddr + k) src s').2
      (repMovsb destMap n (destAddr + k) src s').1 := by
  induction n generalizing k src s' with
  | zero => exact .done h
  | succ n ih =>
    have hva : destAddr + k < memLowHalfMax := by omega
    have hstore := (h.sameMaps hmaps hdest).store destMap (Or.inr rfl) _ (canonical_of_lt hva)
    unfold repMovsb
    rw [hstore]
    cases htarget : storeAddress s.memory destMap (destAddr + k) with
    | none => exact .fault k h (by omega) htarget
    | some target =>
      have hfirst := fun hread => hsrc hread 0 (Nat.succ_pos n)
      simp only [BitVec.add_zero, Nat.add_zero] at hfirst
      have hstep := h.step hmaps hdest (by omega) htarget hfirst
      have hnext : uadd (destAddr + k) 1 = destAddr + (k + 1) := by
        simp only [memLowHalfMax] at hva
        rw [uadd_of_lt (by omega), Nat.add_assoc]
      have hrest := @ih _ _ (src + 1) hstep (by omega) fun hread j hj => by
        have hplace := hsrc hread (j + 1) (Nat.succ_lt_succ hj)
        rw [show k + 1 + j = k + (j + 1) by omega, ← hplace, BitVec.add_assoc]
        congr 2
        rw [BitVec.ofNat_add, BitVec.add_comm]
        rfl
      rw [hnext, show k + (n + 1) = k + 1 + n by omega]
      exact hrest

/-- A fault of the copy is caught: the copy only ever faults on a write. -/
lemma memcpyCatchFault_spec (hmaps : PageMaps sourceMap destMap s)
    (hdest : destAddr + size ≤ memLowHalfMax) (n : ℕ) {src : Word}
    (h : CopyInv sourceMap destMap destAddr sourceAddr size k s s') (hle : k + n ≤ size)
    (hsrc : Readable sourceMap destMap destAddr sourceAddr size s → ∀ j < n,
      placeOf (src + BitVec.ofNat 64 j) = userByte s sourceMap (sourceAddr + (k + j))) :
    ∃ s'', memcpyCatchFault destMap (destAddr + k) src n (memcpyFaultRead ||| memcpyFaultWrite) s' =
        .ok (0, s'') ∧ CopyInv sourceMap destMap destAddr sourceAddr size (k + n) s s'' ∨
      memcpyCatchFault destMap (destAddr + k) src n (memcpyFaultRead ||| memcpyFaultWrite) s' =
        .ok (memcpyFaultWrite, s'') ∧
        ∃ j < k + n, CopyInv sourceMap destMap destAddr sourceAddr size j s s'' ∧
          storeAddress s.memory destMap (destAddr + j) = none := by
  have hmovs := repMovsb_spec hmaps hdest n h hle hsrc
  unfold memcpyCatchFault
  generalize repMovsb destMap n (destAddr + k) src s' = r at hmovs
  obtain ⟨finished, s''⟩ := r
  refine ⟨s'', ?_⟩
  cases hmovs with
  | done hinv => exact Or.inl ⟨rfl, hinv⟩
  | fault j hinv hj hnone => exact Or.inr ⟨rfl, j, hj, hinv, hnone⟩

/-- The direct map shows the bytes of a source page one after the other. -/
lemma Readable.page (hmaps : PageMaps sourceMap destMap s)
    (hread : Readable sourceMap destMap destAddr sourceAddr size s)
    (hsource : sourceAddr + size ≤ memLowHalfMax) {n j : ℕ}
    (hn : (sourceAddr + k) % 4096 + n ≤ 4096) (hle : k + n ≤ size) (hj : j < n) :
    placeOf (virtToPhys s.memory sourceMap (sourceAddr + k) + BitVec.ofNat 64 j) =
      userByte s sourceMap (sourceAddr + (k + j)) := by
  obtain ⟨entry, hentry⟩ := hmaps.exists_entry (Or.inl rfl) (by omega)
    (hread.mapped k (by omega))
  have hpage : (sourceAddr + (k + j)) / 4096 = (sourceAddr + k) / 4096 := by omega
  have hentry' : leafEntry s.memory sourceMap (sourceAddr + (k + j)) = some (0, entry) := by
    rw [leafEntry_congr_page hpage, hentry]
  have hplace := placeOf_virtToPhys hentry
  have hoffset : (virtToPhys s.memory sourceMap (sourceAddr + k)).toNat % 4096 =
      (sourceAddr + k) % 4096 := congrArg (fun p : BytePlace => p.2.val) hplace
  rw [userByte, placeOf_virtToPhys hentry', placeOf_add (by omega), hplace]
  refine Prod.ext rfl (Fin.ext ?_)
  show (virtToPhys s.memory sourceMap (sourceAddr + k)).toNat % 4096 + j =
    (sourceAddr + (k + j)) % 4096
  omega

/-- What `copyPages` returns: 0 with every byte copied, or the fault with those before it. -/
def CopyResult (sourceMap destMap : Frame) (destAddr sourceAddr size : ℕ) (s : Pmm)
    (r : ℕ × Pmm) : Prop :=
  r.1 = 0 ∧ CopyInv sourceMap destMap destAddr sourceAddr size size s r.2 ∨
  r.1 = memcpyFaultWrite ∧ ∃ k < size, CopyInv sourceMap destMap destAddr sourceAddr size k s r.2 ∧
    storeAddress s.memory destMap (destAddr + k) = none

/-- The loop over the pages of the source. It always ends. -/
lemma copyPages_spec (hmaps : PageMaps sourceMap destMap s)
    (hdest : destAddr + size ≤ memLowHalfMax) (hsource : sourceAddr + size ≤ memLowHalfMax)
    (count : ℕ) (h : CopyInv sourceMap destMap destAddr sourceAddr size k s s')
    (hcount : k + count = size) :
    Ensures (fun _ => False) (CopyResult sourceMap destMap destAddr sourceAddr size s)
      (copyPages destMap sourceMap (destAddr + k) (sourceAddr + k) count s') := by
  induction count using Nat.strong_induction_on generalizing k s' with
  | _ count ih =>
    unfold copyPages
    split_ifs with hzero
    · obtain rfl : k = size := by omega
      exact Or.inl ⟨rfl, h⟩
    · have hpos : 0 < min (pageSize - (sourceAddr + k) % pageSize) count := by
        simp only [pageSize]
        omega
      have hpage : (sourceAddr + k) % 4096 + min (pageSize - (sourceAddr + k) % pageSize) count ≤
          4096 := by
        simp only [pageSize]
        omega
      have hle : min (pageSize - (sourceAddr + k) % pageSize) count ≤ count := min_le_right _ _
      dsimp only
      generalize min (pageSize - (sourceAddr + k) % pageSize) count = n at hpos hpage hle ⊢
      have hva : sourceAddr + k < memLowHalfMax := by omega
      have hsame := (h.sameMaps hmaps hdest).virtToPhys_eq (Or.inl rfl) (canonical_of_lt hva)
      have hdestNext : uadd (destAddr + k) n = destAddr + (k + n) := by
        simp only [memLowHalfMax] at hdest
        rw [uadd_of_lt (by omega), Nat.add_assoc]
      have hsourceNext : uadd (sourceAddr + k) n = sourceAddr + (k + n) := by
        simp only [memLowHalfMax] at hsource
        rw [uadd_of_lt (by omega), Nat.add_assoc]
      obtain ⟨s'', ⟨heq, hinv⟩ | ⟨heq, j, hj, hinv, hnone⟩⟩ :=
        memcpyCatchFault_spec hmaps hdest n h (by omega) fun hread j hj =>
          hread.page hmaps hsource hpage (by omega) hj
      · rw [hsame, heq, hdestNext, hsourceNext]
        exact ih (count - n) (by omega) hinv (by omega)
      · rw [hsame, heq]
        exact Or.inr ⟨rfl, j, by omega, hinv, hnone⟩

end

/-! ### `memcpy_user_user_catch_fault` -/

/-- The tables a walk reads are tables of the tree. -/
lemma mem_tableFrames_of_walkTables {memory : Frame → Page} {va d : ℕ} {entry : Word} {g : Frame}
    (h : g ∈ walkTables memory va d entry) : g ∈ tableFrames (treeOf memory d entry) := by
  induction d generalizing entry with
  | zero => exact absurd h List.not_mem_nil
  | succ d ih =>
    unfold walkTables at h
    split_ifs at h with hp hps
    · exact absurd h List.not_mem_nil
    · exact absurd h List.not_mem_nil
    · rw [treeOf_succ (by simpa using hp), tableFrames, Radix.mem_collectTables_table]
      rcases List.mem_cons.mp h with rfl | h
      · exact Or.inl rfl
      · exact Or.inr ⟨_, ih h⟩

lemma leafEntry_user_eq_some {s : Pmm} {pm : Frame} (hs : SpaceOk pm s) {va : ℕ}
    (hva : va < memLowHalfMax) {x : ℕ × Word} (h : leafEntry s.memory pm va = some x) :
    x.1 = 0 ∧ userLookup s.memory pm va = some x.2 := by
  rw [leafEntry_user hs hva] at h
  obtain ⟨entry, hentry, rfl⟩ := Option.map_eq_some_iff.mp h
  exact ⟨rfl, hentry⟩

/-- A page of a space is none of its tables. -/
lemma SpaceOk.page_notMem_tables {pm : Frame} {s : Pmm} (hs : SpaceOk pm s) {va va' : ℕ}
    (hva : va < memLowHalfMax) (hva' : va' < memLowHalfMax) {entry : Word}
    (h : userLookup s.memory pm va' = some entry) : entryTarget entry ≠ pm ∧
      entryTarget entry ∉ walkTables s.memory va PDPT (s.memory pm (tableIndex PML4 va)) := by
  rw [userLookup_eq hva'] at h
  have hi := userHalf_iff.mpr (tableIndex_lt_of_user hva)
  have hi' := userHalf_iff.mpr (tableIndex_lt_of_user hva')
  have htarget : entryTarget entry ∈ frames (s.treeAt PDPT pm (tableIndex PML4 va')) :=
    Radix.mem_collect_of_lookup entryTarget h
  refine ⟨hs.apart.ne_table hi' htarget, fun hwalk => ?_⟩
  have htable := mem_tableFrames_of_walkTables hwalk
  have hmem : entryTarget entry ∈ frames (s.treeAt PDPT pm (tableIndex PML4 va)) :=
    Multiset.mem_of_le (Radix.collectTables_le _ _) htable
  have hindex := hs.apart.slot_eq hi' hi htarget hmem
  have hnodup : (frames (s.treeAt PDPT pm (tableIndex PML4 va'))).Nodup :=
    Multiset.nodup_of_le (Apart.frames_le hi')
      (Multiset.nodup_add.mp (Multiset.nodup_cons.mp hs.apart.nodup).2).1
  rw [← hindex] at htable
  exact Radix.notMem_collectTables_of_lookup hnodup h htable

/-- The page maps of two threads: one address space or two of those that the kernel keeps apart.
The tables of the kernel half are in no space. -/
lemma pageMaps_of_spaces {sourceMap destMap : Frame} {s : Pmm}
    (hspaces : sourceMap = destMap ∧ SpaceOk destMap s ∨ TwoSpaces destMap sourceMap s)
    (hkernel : ∀ pm, pm = sourceMap ∨ pm = destMap → ∀ va, memHighHalfMin ≤ va → va < 2 ^ 64 →
      ∀ g ∈ walkTables s.memory va PDPT (s.memory pm (tableIndex PML4 va)),
        g ∉ spaceFrames s.memory destMap) : PageMaps sourceMap destMap s := by
  have hdest : SpaceOk destMap s := hspaces.elim And.right TwoSpaces.left
  have hsource : SpaceOk sourceMap s :=
    hspaces.elim (fun h => h.1 ▸ h.2) fun h => h.symm.left
  have hboth : ∀ pm, pm = sourceMap ∨ pm = destMap → SpaceOk pm s := by
    rintro pm (rfl | rfl)
    · exact hsource
    · exact hdest
  constructor
  · intro pm hpm va hva va' hva' entry hentry
    have hlookup := (leafEntry_user_eq_some hdest hva' hentry).2
    have hmem := entryTarget_mem_spaceFrames hva' hlookup
    -- the two maps are one, or they have no frame in common
    have hother : pm = destMap ∨ ∀ g ∈ spaceFrames s.memory pm, g ≠ entryTarget entry := by
      rcases hpm with rfl | rfl
      · rcases hspaces with ⟨rfl, -⟩ | htwo
        · exact Or.inl rfl
        · exact Or.inr fun g hg heq => (htwo.apart hg).1 (heq ▸ hmem)
      · exact Or.inl rfl
    rcases hva with hlow | ⟨h1, h2⟩
    · rcases hother with rfl | hother
      · exact hdest.page_notMem_tables hlow hva' hlookup
      · refine ⟨fun heq => hother pm (Multiset.mem_cons_self _ _) heq.symm, fun hwalk => ?_⟩
        have hi := userHalf_iff.mpr (tableIndex_lt_of_user hlow)
        have hframes := @mem_userFrames s pm _ _ hi
          (Multiset.mem_of_le (Radix.collectTables_le _ _) (mem_tableFrames_of_walkTables hwalk))
        exact hother _ (Multiset.mem_cons_of_mem hframes) rfl
    · refine ⟨?_, fun hwalk => hkernel pm hpm va h1 h2 _ hwalk hmem⟩
      rcases hother with rfl | hother
      · exact (hdest.page_notMem_tables hva' hva' hlookup).1
      · exact fun heq => hother pm (Multiset.mem_cons_self _ _) heq.symm
  · intro pm hpm va hva x hx
    exact (leafEntry_user_eq_some (hboth pm hpm) hva hx).1
  · intro va hva va' hva' entry entry' h h' htarget
    exact userLookup_inj hdest hva hva' (leafEntry_user_eq_some hdest hva h).2
      (leafEntry_user_eq_some hdest hva' h').2 htarget

/-- Two spaces have no byte in common. -/
lemma TwoSpaces.userByte_ne {pm other : Frame} {s : Pmm} (h : TwoSpaces pm other s) {va va' : ℕ}
    (hva : va < memLowHalfMax) (hva' : va' < memLowHalfMax)
    (hmapped : (leafEntry s.memory pm va).isSome)
    (hmapped' : (leafEntry s.memory other va').isSome) :
    userByte s pm va ≠ userByte s other va' := by
  obtain ⟨⟨l, entry⟩, hentry⟩ := Option.isSome_iff_exists.mp hmapped
  obtain ⟨⟨l', entry'⟩, hentry'⟩ := Option.isSome_iff_exists.mp hmapped'
  obtain ⟨rfl, hlookup⟩ := leafEntry_user_eq_some h.left hva hentry
  obtain ⟨rfl, hlookup'⟩ := leafEntry_user_eq_some h.symm.left hva' hentry'
  intro heq
  rw [userByte, userByte, placeOf_virtToPhys hentry, placeOf_virtToPhys hentry'] at heq
  have htarget : entryTarget entry = entryTarget entry' := (Prod.mk.inj heq).1
  refine (h.apart (entryTarget_mem_spaceFrames hva' hlookup')).1 ?_
  rw [← htarget]
  exact entryTarget_mem_spaceFrames hva hlookup

section

variable {α : Type} [DecidableEq α] {sourceMap destMap : Frame} {destAddr sourceAddr : ℕ} {size : ℤ}
  {m : MmuState}

/-- Every answer of `memcpy_user_user_catch_fault`: the two checks come first, the source's before
the destination's, and the copy itself only fails at a byte of the destination. -/
lemma memcpyUserUserCatchFault_spec (hmaps : PageMaps sourceMap destMap m.pmm)
    (hsize : size < 2 ^ 63) :
    Ensures (fun _ => False) (fun r =>
      (¬ (0 < size ∧ sourceAddr + size ≤ memLowHalfMax) ∧ r = (memcpyFaultRead, m)) ∨
      (0 < size ∧ sourceAddr + size ≤ memLowHalfMax ∧ ¬ destAddr + size ≤ memLowHalfMax ∧
        r = (memcpyFaultWrite, m)) ∨
      (0 < size ∧ sourceAddr + size ≤ memLowHalfMax ∧ destAddr + size ≤ memLowHalfMax ∧
        r.2 = { m with cr3 := destMap, pmm := r.2.pmm } ∧
        CopyResult sourceMap destMap destAddr sourceAddr size.toNat m.pmm (r.1, r.2.pmm)))
      (memcpyUserUserCatchFault (none : Option α) destMap destAddr sourceMap sourceAddr size
        m) := by
  unfold memcpyUserUserCatchFault
  have hcheck {v : ℕ} : checkUserRange v size = .ok () ↔ 0 < size ∧ v + size ≤ memLowHalfMax :=
    checkUserRange_eq_ok hsize
  cases hsource : checkUserRange sourceAddr size with
  | error e =>
    refine Or.inl ⟨fun h => ?_, rfl⟩
    rw [hcheck.mpr h] at hsource
    cases hsource
  | ok u =>
    have hs := hcheck.mp hsource
    cases hdest : checkUserRange destAddr size with
    | error e =>
      refine Or.inr (Or.inl ⟨hs.1, hs.2, fun h => ?_, rfl⟩)
      rw [hcheck.mpr ⟨hs.1, h⟩] at hdest
      cases hdest
    | ok u =>
      have hd := hcheck.mp hdest
      have hloop := @copyPages_spec sourceMap destMap destAddr sourceAddr size.toNat 0 _ _
        hmaps (by omega) (by omega) size.toNat CopyInv.start (Nat.zero_add _)
      dsimp only
      rw [assert, if_pos (by simp), ok_bind]
      refine hloop.bind fun r hr => ?_
      exact Or.inr (Or.inr ⟨hs.1, hs.2, hd.2, rfl, hr⟩)

/-- The copy of a mapped range to a writable one: it ends with every byte of the source at its place
in the destination. No other byte of memory changes, and neither page map does. -/
theorem memcpyUserUserCatchFault_copies (hmaps : PageMaps sourceMap destMap m.pmm)
    (hpos : 0 < size) (hsource : sourceAddr + size ≤ memLowHalfMax)
    (hdest : destAddr + size ≤ memLowHalfMax)
    (hmapped : ∀ j < size.toNat, (leafEntry m.pmm.memory sourceMap (sourceAddr + j)).isSome)
    (hwritable : ∀ j < size.toNat, (storeAddress m.pmm.memory destMap (destAddr + j)).isSome)
    (hapart : ∀ i < size.toNat, ∀ j < size.toNat,
      userByte m.pmm sourceMap (sourceAddr + i) ≠ userByte m.pmm destMap (destAddr + j)) :
    ∃ m', memcpyUserUserCatchFault (none : Option α) destMap destAddr sourceMap sourceAddr size m =
        .ok (0, m') ∧
      (∀ j < size.toNat, readByte m'.pmm.memory (userByte m'.pmm destMap (destAddr + j)) =
        readByte m.pmm.memory (userByte m.pmm sourceMap (sourceAddr + j))) ∧
      (∀ p, (∀ j < size.toNat, p ≠ userByte m.pmm destMap (destAddr + j)) →
        readByte m'.pmm.memory p = readByte m.pmm.memory p) ∧
      SameMaps sourceMap destMap m.pmm m'.pmm ∧
      m' = { m with cr3 := destMap, pmm := { m.pmm with memory := m'.pmm.memory } } := by
  have hsize : size < 2 ^ 63 := by
    simp only [memLowHalfMax] at hdest
    omega
  obtain ⟨⟨err, m'⟩, hrun, ⟨h, -⟩ | ⟨-, -, h, -⟩ | ⟨-, -, -, hrest, hresult⟩⟩ :=
    (memcpyUserUserCatchFault_spec (α := α) hmaps hsize).exists_ok
  · exact absurd ⟨hpos, hsource⟩ h
  · exact absurd hdest h
  · rcases hresult with ⟨rfl, hinv⟩ | ⟨-, k, hk, -, hnone⟩
    · have hdest' : destAddr + size.toNat ≤ memLowHalfMax := by omega
      have hsame := hinv.sameMaps hmaps hdest'
      refine ⟨m', hrun, fun j hj => ?_, hinv.frame, hsame, ?_⟩
      · rw [userByte, hsame.virtToPhys_eq (Or.inr rfl) (canonical_of_lt (by omega))]
        exact hinv.copied ⟨hmapped, hapart⟩ j hj
      · rw [← hinv.rest]
        exact hrest
    · have hsome := hwritable k hk
      rw [hnone] at hsome
      cases hsome

end

/-! ### A space and its copy -/

lemma twoSpaces_of_clone {source copy : Frame} {s s' : Pmm} (hs : SpaceOk source s)
    (hclone : mmuCloneAddressSpace source .null s = .ok (copy, s')) : TwoSpaces copy source s' := by
  obtain ⟨hnew, -⟩ := (@mmuCloneAddressSpace_spec source .null s rfl hs).of_eq_ok hclone
  exact (hnew.twoSpaces hs).symm

namespace MmuState

lemma cloned_twoSpaces : TwoSpaces (roomyFrame 6) (roomyFrame 0) cloned.pmm :=
  twoSpaces_of_clone assigned_spaceOk mmuCloneAddressSpace_assigned

/-- A word was written to the end of the first page of the space, after it was copied. -/
def written : MmuState :=
  { cloned with pmm := userStore (roomyFrame 0) 0x1ff8 0x0123456789abcdef cloned.pmm }

lemma written_twoSpaces : TwoSpaces (roomyFrame 6) (roomyFrame 0) written.pmm := by
  obtain ⟨hstep, hok⟩ := userStore_step cloned_twoSpaces.symm.left
    (by decide : 0x1ff8 < memLowHalfMax) 0x0123456789abcdef
  exact (cloned_twoSpaces.symm.of_step hstep hok).1.symm

/-- Nothing is mapped in the kernel half, the pages of the two ranges are there, and those of the
copy are writable. -/
lemma written_pages :
    (∀ pm ∈ [roomyFrame 0, roomyFrame 6], ∀ i, userHalf i = false →
      isPresent (written.pmm.memory pm i) = false) ∧
    (∀ j < (6 : ℤ).toNat, (leafEntry written.pmm.memory (roomyFrame 0) (0x1ffc + j)).isSome) ∧
    ∀ j < (6 : ℤ).toNat, (storeAddress written.pmm.memory (roomyFrame 6) (0x1fff + j)).isSome := by
  decide +kernel

lemma written_apart : ∀ i < (6 : ℤ).toNat, ∀ j < (6 : ℤ).toNat,
    userByte written.pmm (roomyFrame 0) (0x1ffc + i) ≠
      userByte written.pmm (roomyFrame 6) (0x1fff + j) := by
  intro i hi j hj
  have hcopy := Option.isSome_iff_exists.mp (written_pages.2.2 j hj)
  obtain ⟨target, htarget⟩ := hcopy
  have hi' : i < 6 := hi
  have hj' : j < 6 := hj
  refine written_twoSpaces.symm.userByte_ne ?_ ?_ (written_pages.2.1 i hi)
    (storeAddress_eq_some htarget).2
  · simp only [memLowHalfMax]
    omega
  · simp only [memLowHalfMax]
    omega

lemma written_pageMaps : PageMaps (roomyFrame 0) (roomyFrame 6) written.pmm := by
  refine pageMaps_of_spaces (Or.inr written_twoSpaces) fun pm hpm va hva hlt g hg => ?_
  have habsent := written_pages.1 pm (by simpa using hpm) _ (userHalf_of_kernel hva hlt)
  rw [walkTables, habsent] at hg
  exact absurd hg List.not_mem_nil

end MmuState

/-- Six bytes are copied from one space to the other, across the end of a page in both. -/
theorem memcpyUserUserCatchFault_copies_written :
    ∃ m', memcpyUserUserCatchFault (none : Option ℕ) (MmuState.roomyFrame 6) 0x1fff
        (MmuState.roomyFrame 0) 0x1ffc 6 MmuState.written = .ok (0, m') ∧
      (∀ j < (6 : ℤ).toNat,
        readByte m'.pmm.memory (userByte m'.pmm (MmuState.roomyFrame 6) (0x1fff + j)) =
        readByte MmuState.written.pmm.memory
          (userByte MmuState.written.pmm (MmuState.roomyFrame 0) (0x1ffc + j))) ∧
      (∀ p, (∀ j < (6 : ℤ).toNat,
          p ≠ userByte MmuState.written.pmm (MmuState.roomyFrame 6) (0x1fff + j)) →
        readByte m'.pmm.memory p = readByte MmuState.written.pmm.memory p) ∧
      SameMaps (MmuState.roomyFrame 0) (MmuState.roomyFrame 6) MmuState.written.pmm m'.pmm ∧
      m' = { MmuState.written with
        cr3 := MmuState.roomyFrame 6
        pmm := { MmuState.written.pmm with memory := m'.pmm.memory } } :=
  memcpyUserUserCatchFault_copies MmuState.written_pageMaps (by decide) (by decide) (by decide)
    MmuState.written_pages.2.1 MmuState.written_pages.2.2 MmuState.written_apart

end Fluke
