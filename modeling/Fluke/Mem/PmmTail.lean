import Fluke.Library.Chain
import Fluke.Mem.Pmm

/-!
# Pages that are added late

`pmm_add_pages` appends to the free list through a pointer to the link that ends it, and keeps this
pointer from call to call. The other operations work on the head of the list and know nothing of
the pointer. Here pages are known by their kernel pointers, and the links lie in the pages.
-/

namespace Fluke

open Outcome

/-- `struct Page**`: `pmm.free_list`, or `next` of a page -/
inductive PagePtr where
  | freeList
  | next (page : Word)
  deriving DecidableEq

/-- `struct PMM_state` with `tail`, and the memory that kernel pointers to pages lead to. -/
structure PmmLinks where
  memory : Word → Page
  freeList : Word
  freeCount : ℕ
  totalCount : ℕ
  tail : PagePtr

namespace PmmLinks

/-- `page->next` -/
def next (s : PmmLinks) (page : Word) : Word := s.memory page 0

/-- Overwrite a whole page. -/
def setPage (s : PmmLinks) (page : Word) (contents : Page) : PmmLinks :=
  { s with memory := Function.update s.memory page contents }

/-- Overwrite one word of a page. -/
def setWord (s : PmmLinks) (page : Word) (i : Fin 512) (word : Word) : PmmLinks :=
  s.setPage page (Function.update (s.memory page) i word)

/-- `*tail = page` -/
def storeTail (s : PmmLinks) (page : Word) : PmmLinks :=
  match s.tail with
  | .freeList => { s with freeList := page }
  | .next last => s.setWord last 0 page

/-- The loop of `pmm_add_pages` over the pages of the range -/
def addLoop : List Word → PmmLinks → PmmLinks
  | [], s => s
  | vpage :: vpages, s => addLoop vpages { s.storeTail vpage with tail := .next vpage }

/-- `phys_to_virt` of the pages of a range -/
def rangePages (hhdmOffset start : Word) (length : ℕ) : List Word :=
  (List.range (length / pageSize)).map fun i =>
    start + BitVec.ofNat 64 (i * pageSize) + hhdmOffset

/-- `pmm_add_pages` -/
def addPages (hhdmOffset start : Word) (length : ℕ) (s : PmmLinks) : Except Panic PmmLinks := do
  assert (isPageAligned start.toNat) .pageAligned
  assert (isPageAligned length) .pageAligned
  let s := addLoop (rangePages hhdmOffset start length) s
  let s := s.storeTail 0
  .ok { s with
    totalCount := s.totalCount + length / pageSize
    freeCount := s.freeCount + length / pageSize }

/-- `alloc_page`, which returns the null pointer when there is no page. -/
def allocPage (s : PmmLinks) : Except Panic (Word × PmmLinks) :=
  let page := s.freeList
  if page = 0 then .ok (0, s)
  else do
    let s := { s with freeList := s.next page }
    assert (s.freeCount > 0) .freeCountPositive
    let s := { s with freeCount := s.freeCount - 1 }
    .ok (page, s.setPage page (Page.fill 0xdd))

/-- `is_kernel_pointer` -/
def isKernelPointer (v : Word) : Bool := memHighHalfMin ≤ v.toNat

/-- `free_page` -/
def freePage (page : Word) (s : PmmLinks) : Except Panic PmmLinks := do
  assert (page ≠ 0) .kernelPage
  assert (isPageAligned page.toNat) .kernelPage
  assert (isKernelPointer page) .kernelPage
  let s := s.setPage page (Page.fill 0xee)
  let s := s.setWord page 0 s.freeList
  .ok { s with freeList := page, freeCount := s.freeCount + 1 }

end PmmLinks

/-! ### Runs -/

/-- The pages that were added so far, and those that are in use -/
structure PmmRun where
  pmm : PmmLinks
  added : List Word
  live : List Word

/-- A call, or a write of a user of pages -/
inductive PmmStep where
  | add (hhdmOffset start : Word) (length : ℕ)
  | alloc
  | free (page : Word)
  | write (page : Word) (i : Fin 512) (word : Word)

/-- One step -/
def PmmStep.run : PmmStep → PmmRun → Except Panic PmmRun
  | .add hhdmOffset start length, r => do
    let pmm ← r.pmm.addPages hhdmOffset start length
    .ok { r with pmm := pmm, added := r.added ++ PmmLinks.rangePages hhdmOffset start length }
  | .alloc, r => do
    let (page, pmm) ← r.pmm.allocPage
    .ok { r with pmm := pmm, live := if page = 0 then r.live else page :: r.live }
  | .free page, r => do
    let pmm ← r.pmm.freePage page
    .ok { r with pmm := pmm, live := r.live.erase page }
  | .write page i word, r => .ok { r with pmm := r.pmm.setWord page i word }

/-- A page that the kernel can see -/
structure IsKernelPage (page : Word) : Prop where
  ne_zero : page ≠ 0
  aligned : isPageAligned page.toNat
  kernel : PmmLinks.isKernelPointer page

/-- Ranges are page-aligned and apart from each other; only a page that is in use is freed or
written to. -/
def PmmStep.Legal (r : PmmRun) : PmmStep → Prop
  | .add hhdmOffset start length =>
    isPageAligned start.toNat ∧ isPageAligned length ∧
      (r.added ++ PmmLinks.rangePages hhdmOffset start length).Nodup ∧
      ∀ page ∈ PmmLinks.rangePages hhdmOffset start length, IsKernelPage page
  | .alloc => True
  | .free page => page ∈ r.live
  | .write page _ _ => page ∈ r.live

/-- The free list, as its links say -/
def PmmLinks.FreeIs (s : PmmLinks) (free : List Word) : Prop :=
  Chained s.next s.freeList free 0 ∧ 0 ∉ free

/-- `tail` points to the link that ends the free list. -/
def PmmLinks.TailEnds (s : PmmLinks) : Prop :=
  ∃ free, s.FreeIs free ∧
    match s.tail with
    | .freeList => free = []
    | .next page => free.getLast? = some page

/-- When pages are added, `tail` points to the link that ends the free list. -/
def PmmStep.TailOk (r : PmmRun) : PmmStep → Prop
  | .add _ _ _ => r.pmm.TailEnds
  | _ => True

/-- Before any call; nothing is known of the memory. -/
def PmmRun.Initial (r : PmmRun) : Prop :=
  r.pmm.freeList = 0 ∧ r.pmm.freeCount = 0 ∧ r.pmm.tail = .freeList ∧ r.added = [] ∧ r.live = []

/-- Every page that was added is in use or on the free list, and only once; the count is that of the
list, and `alloc_page` fails only when the list is empty. -/
def PmmRun.Accounted (r : PmmRun) : Prop :=
  ∃ free, r.pmm.FreeIs free ∧ r.added.Nodup ∧ r.added.Perm (free ++ r.live) ∧
    r.pmm.freeCount = free.length ∧
    Ensures (fun _ => False) (fun p => p.1 = 0 ↔ free = []) r.pmm.allocPage

/-! ### Appending -/

namespace PmmLinks

variable {s : PmmLinks} {free : List Word} {e : Word}

/-- `tail` points behind the last page of the list. -/
def TailAt (s : PmmLinks) (free : List Word) : Prop :=
  match s.tail with
  | .freeList => free = []
  | .next page => free.getLast? = some page

lemma setPage_next_of_ne (s : PmmLinks) {page page' : Word} (contents : Page) (h : page' ≠ page) :
    (s.setPage page contents).next page' = s.next page' := by
  simp [next, setPage, h]

lemma setWord_next (s : PmmLinks) (page value : Word) :
    (s.setWord page 0 value).next = Function.update s.next page value := by
  funext page'
  by_cases h : page' = page
  · subst h
    simp [next, setWord, setPage]
  · simp [next, setWord, setPage, h]

lemma setWord_memory_of_ne (s : PmmLinks) {page page' : Word} (i : Fin 512) (word : Word)
    (h : page' ≠ page) : (s.setWord page i word).memory page' = s.memory page' := by
  simp [setWord, setPage, h]

/-- What the list ends with is replaced; no other page is written to. -/
lemma storeTail_spec (htail : s.TailAt free) (h : Chained s.next s.freeList free e)
    (hnodup : free.Nodup) (value : Word) :
    Chained (s.storeTail value).next (s.storeTail value).freeList free value ∧
      ∀ page ∉ free, (s.storeTail value).memory page = s.memory page := by
  unfold TailAt at htail
  unfold storeTail
  cases ht : s.tail with
  | freeList =>
    rw [ht] at htail
    rw [show free = [] from htail]
    exact ⟨rfl, fun _ _ => rfl⟩
  | next last =>
    rw [ht] at htail
    obtain ⟨l, rfl⟩ := List.getLast?_eq_some_iff.mp htail
    have hlast : last ∉ l := fun hmem =>
      (List.nodup_append.mp hnodup).2.2 last hmem last (List.mem_singleton_self _) rfl
    constructor
    · dsimp only
      rw [setWord_next]
      exact h.relink hlast value
    · intro page hpage
      exact setWord_memory_of_ne s 0 value fun heq => hpage (by simp [heq])

/-- The other fields stay as they are. -/
lemma storeTail_fields (s : PmmLinks) (value : Word) :
    (s.storeTail value).freeCount = s.freeCount ∧ (s.storeTail value).totalCount = s.totalCount ∧
      (s.storeTail value).tail = s.tail := by
  unfold storeTail
  cases htail : s.tail with
  | freeList => exact ⟨rfl, rfl, rfl⟩
  | next last => exact ⟨rfl, rfl, htail⟩

/-- The loop appends the pages one by one. -/
lemma addLoop_spec {vpages : List Word} :
    ∀ {s : PmmLinks} {free : List Word} {e : Word}, s.TailAt free →
      Chained s.next s.freeList free e → (free ++ vpages).Nodup →
      (addLoop vpages s).TailAt (free ++ vpages) ∧
      (∃ e', Chained (addLoop vpages s).next (addLoop vpages s).freeList (free ++ vpages) e') ∧
      (∀ page ∉ free ++ vpages, (addLoop vpages s).memory page = s.memory page) ∧
      (addLoop vpages s).freeCount = s.freeCount ∧
      (addLoop vpages s).totalCount = s.totalCount := by
  induction vpages with
  | nil =>
    intro s free e htail h _
    rw [List.append_nil, addLoop]
    exact ⟨htail, ⟨e, h⟩, fun _ _ => rfl, rfl, rfl⟩
  | cons vpage vpages ih =>
    intro s free e htail h hnodup
    obtain ⟨hchain, hframe⟩ :=
      storeTail_spec htail h (List.nodup_append.mp hnodup).1 vpage
    have hsplit : free ++ vpage :: vpages = (free ++ [vpage]) ++ vpages := by simp
    rw [hsplit] at hnodup ⊢
    rw [addLoop]
    have hnext := @ih { s.storeTail vpage with tail := .next vpage } (free ++ [vpage])
      ((s.storeTail vpage).next vpage) (by simp [TailAt])
      (Chained.append.mpr ⟨vpage, hchain, rfl, rfl⟩) hnodup
    obtain ⟨htail', hchain', hframe', hcount', htotal'⟩ := hnext
    obtain ⟨hcount, htotal, -⟩ := storeTail_fields s vpage
    refine ⟨htail', hchain', fun page hpage => ?_, hcount'.trans hcount, htotal'.trans htotal⟩
    rw [hframe' page hpage]
    exact hframe page fun hmem => hpage (by simp [hmem])

/-- Pages are appended where `tail` points to the end of the list. -/
lemma addPages_spec {hhdmOffset start : Word} {length : ℕ} (hfree : s.FreeIs free)
    (htail : s.TailAt free) (hstart : isPageAligned start.toNat) (hlength : isPageAligned length)
    (hnodup : (free ++ rangePages hhdmOffset start length).Nodup)
    (hzero : 0 ∉ rangePages hhdmOffset start length) :
    ∃ s', s.addPages hhdmOffset start length = .ok s' ∧
      s'.FreeIs (free ++ rangePages hhdmOffset start length) ∧
      s'.TailAt (free ++ rangePages hhdmOffset start length) ∧
      s'.freeCount = s.freeCount + (rangePages hhdmOffset start length).length ∧
      s'.totalCount = s.totalCount + (rangePages hhdmOffset start length).length ∧
      ∀ page ∉ free ++ rangePages hhdmOffset start length, s'.memory page = s.memory page := by
  obtain ⟨htail', ⟨e, hchain⟩, hframe, hcount, htotal⟩ := addLoop_spec htail hfree.1 hnodup
  obtain ⟨hend, hframe'⟩ := storeTail_spec htail' hchain hnodup 0
  obtain ⟨hcount', htotal', htail''⟩ :=
    storeTail_fields (addLoop (rangePages hhdmOffset start length) s) 0
  have hstart' : assert (isPageAligned start.toNat) .pageAligned = .ok () := assert_eq_ok.mpr hstart
  have hlength' : assert (isPageAligned length) .pageAligned = .ok () := assert_eq_ok.mpr hlength
  have hadd : s.addPages hhdmOffset start length =
      .ok { (addLoop (rangePages hhdmOffset start length) s).storeTail 0 with
        totalCount := ((addLoop (rangePages hhdmOffset start length) s).storeTail 0).totalCount +
          length / pageSize
        freeCount := ((addLoop (rangePages hhdmOffset start length) s).storeTail 0).freeCount +
          length / pageSize } := by
    rw [addPages, hstart', ok_bind, hlength', ok_bind]
  refine ⟨_, hadd, ⟨hend, ?_⟩, ?_, ?_, ?_, fun page hpage => ?_⟩
  · rw [List.mem_append, not_or]
    exact ⟨hfree.2, hzero⟩
  · unfold TailAt at htail' ⊢
    dsimp only
    rw [htail'']
    exact htail'
  · dsimp only
    rw [hcount', hcount, rangePages, List.length_map, List.length_range]
  · dsimp only
    rw [htotal', htotal, rangePages, List.length_map, List.length_range]
  · exact (hframe' page hpage).trans (hframe page hpage)

lemma allocPage_of_head {page : Word} (hhead : s.freeList = page) (hne : page ≠ 0)
    (hcount : 0 < s.freeCount) : s.allocPage = .ok (page, setPage
      { s with freeList := s.next page, freeCount := s.freeCount - 1 } page (Page.fill 0xdd)) := by
  subst hhead
  have hpos : assert (s.freeCount > 0) .freeCountPositive = .ok () :=
    assert_eq_ok.mpr (decide_eq_true hcount)
  rw [allocPage, if_neg hne]
  dsimp only
  rw [hpos, ok_bind]

/-- The first page of the list is handed out. -/
lemma allocPage_spec (hfree : s.FreeIs free) (hcount : s.freeCount = free.length) :
    (free = [] ∧ s.allocPage = .ok (0, s)) ∨
    ∃ page rest s', free = page :: rest ∧ page ≠ 0 ∧ s.allocPage = .ok (page, s') ∧
      (page ∉ rest → s'.FreeIs rest) ∧ s'.freeCount = rest.length := by
  obtain ⟨hchain, hzero⟩ := hfree
  cases free with
  | nil =>
    rw [Chained.nil] at hchain
    refine Or.inl ⟨rfl, ?_⟩
    rw [allocPage, if_pos hchain]
  | cons page rest =>
    obtain ⟨hhead, hrest⟩ := hchain
    rw [List.mem_cons, not_or] at hzero
    rw [List.length_cons] at hcount
    have halloc := allocPage_of_head hhead (Ne.symm hzero.1) (by omega)
    refine Or.inr ⟨page, rest, _, rfl, Ne.symm hzero.1, halloc, fun hpage => ⟨?_, hzero.2⟩, ?_⟩
    · exact hrest.congr fun other hother =>
        setPage_next_of_ne _ _ (ne_of_mem_of_not_mem hother hpage)
    · dsimp only [setPage]
      omega

lemma freePage_of_kernel {page : Word} (hpage : IsKernelPage page) : s.freePage page = .ok
    { (s.setPage page (Page.fill 0xee)).setWord page 0 s.freeList with
      freeList := page
      freeCount := s.freeCount + 1 } := by
  have hne : assert (page ≠ 0) .kernelPage = .ok () :=
    assert_eq_ok.mpr (decide_eq_true hpage.ne_zero)
  have haligned : assert (isPageAligned page.toNat) .kernelPage = .ok () :=
    assert_eq_ok.mpr hpage.aligned
  have hkernel : assert (isKernelPointer page) .kernelPage = .ok () := assert_eq_ok.mpr hpage.kernel
  rw [freePage, hne, ok_bind, haligned, ok_bind, hkernel, ok_bind]
  rfl

/-- A page comes to the head of the list. -/
lemma freePage_spec {page : Word} (hfree : s.FreeIs free) (hpage : IsKernelPage page)
    (hnew : page ∉ free) :
    ∃ s', s.freePage page = .ok s' ∧ s'.FreeIs (page :: free) ∧
      s'.freeCount = s.freeCount + 1 := by
  refine ⟨_, freePage_of_kernel hpage, ⟨⟨rfl, ?_⟩, ?_⟩, rfl⟩
  · have hlink : ((s.setPage page (Page.fill 0xee)).setWord page 0 s.freeList).next page =
        s.freeList := by
      rw [setWord_next, Function.update_self]
    have hchain : Chained ((s.setPage page (Page.fill 0xee)).setWord page 0 s.freeList).next
        s.freeList free 0 := by
      refine hfree.1.congr fun other hother => ?_
      have hother' : other ≠ page := ne_of_mem_of_not_mem hother hnew
      rw [setWord_next, Function.update_of_ne hother', setPage_next_of_ne s _ hother']
    exact hlink.symm ▸ hchain
  · rw [List.mem_cons, not_or]
    exact ⟨Ne.symm hpage.ne_zero, hfree.2⟩

end PmmLinks

/-! ### Every run -/

/-- The invariant: what is accounted for is seen by the kernel. -/
structure PmmRun.Ok (r : PmmRun) (free : List Word) : Prop where
  links : r.pmm.FreeIs free
  nodup : r.added.Nodup
  perm : r.added.Perm (free ++ r.live)
  count : r.pmm.freeCount = free.length
  kernel : ∀ page ∈ r.added, IsKernelPage page

namespace PmmRun

variable {r : PmmRun} {free : List Word}

lemma Ok.apart (h : r.Ok free) : (free ++ r.live).Nodup := h.perm.nodup_iff.mp h.nodup

lemma Ok.accounted (h : r.Ok free) : r.Accounted := by
  refine ⟨free, h.links, h.nodup, h.perm, h.count, ?_⟩
  rcases PmmLinks.allocPage_spec h.links h.count with
    ⟨hnil, halloc⟩ | ⟨page, rest, s', hcons, hne, halloc, -⟩
  · rw [halloc]
    exact iff_of_true rfl hnil
  · rw [halloc, hcons]
    exact iff_of_false hne (List.cons_ne_nil _ _)

lemma Ok.tailAt (h : r.Ok free) (htail : r.pmm.TailEnds) : r.pmm.TailAt free := by
  obtain ⟨free', hfree', htail'⟩ := htail
  rw [h.links.1.unique hfree'.1 h.links.2 hfree'.2]
  exact htail'

lemma Ok.add (h : r.Ok free) {hhdmOffset start : Word} {length : ℕ}
    (hlegal : (PmmStep.add hhdmOffset start length).Legal r) (htail : r.pmm.TailEnds) :
    ∃ r' free', (PmmStep.add hhdmOffset start length).run r = .ok r' ∧ r'.Ok free' ∧
      ∀ page ∈ r.live, r'.pmm.memory page = r.pmm.memory page := by
  obtain ⟨hstart, hlength, hnodup, hkernel⟩ := hlegal
  have hperm : (r.added ++ PmmLinks.rangePages hhdmOffset start length).Perm
      (free ++ PmmLinks.rangePages hhdmOffset start length ++ r.live) := by
    refine (h.perm.append_right _).trans ?_
    rw [List.append_assoc, List.append_assoc]
    exact List.perm_append_comm.append_left free
  have hapart := hperm.nodup_iff.mp hnodup
  have hzero : 0 ∉ PmmLinks.rangePages hhdmOffset start length := fun hmem =>
    (hkernel 0 hmem).ne_zero rfl
  obtain ⟨s', hadd, hfree, -, hcount, -, hframe⟩ := PmmLinks.addPages_spec h.links
    (h.tailAt htail) hstart hlength (List.nodup_append.mp hapart).1 hzero
  refine ⟨{ r with pmm := s', added := _ }, _, ?_, ⟨hfree, hnodup, hperm, ?_, ?_⟩,
    fun page hpage => ?_⟩
  · rw [PmmStep.run, hadd]
    rfl
  · rw [List.length_append]
    exact hcount.trans (by rw [h.count])
  · intro page hpage
    rcases List.mem_append.mp hpage with hpage | hpage
    · exact h.kernel page hpage
    · exact hkernel page hpage
  · exact hframe page fun hmem => (List.nodup_append.mp hapart).2.2 page hmem page hpage rfl

lemma Ok.alloc (h : r.Ok free) :
    ∃ r' free', PmmStep.alloc.run r = .ok r' ∧ r'.Ok free' := by
  rcases PmmLinks.allocPage_spec h.links h.count with
    ⟨-, halloc⟩ | ⟨page, rest, s', rfl, hne, halloc, hfree, hcount⟩
  · refine ⟨r, free, ?_, h⟩
    rw [PmmStep.run, halloc, ok_bind]
    rfl
  · have hapart := h.apart
    rw [List.cons_append, List.nodup_cons, List.mem_append, not_or] at hapart
    refine ⟨{ r with pmm := s', live := page :: r.live }, rest, ?_,
      ⟨hfree hapart.1.1, h.nodup, ?_, hcount, h.kernel⟩⟩
    · rw [PmmStep.run, halloc, ok_bind]
      dsimp only
      rw [if_neg hne]
    · exact h.perm.trans List.perm_middle.symm

lemma Ok.release (h : r.Ok free) {page : Word} (hpage : page ∈ r.live) :
    ∃ r' free', (PmmStep.free page).run r = .ok r' ∧ r'.Ok free' := by
  have hnew : page ∉ free := fun hmem =>
    (List.nodup_append.mp h.apart).2.2 page hmem page hpage rfl
  have hadded : page ∈ r.added := h.perm.mem_iff.mpr (List.mem_append_right _ hpage)
  obtain ⟨s', hrelease, hfree, hcount⟩ := PmmLinks.freePage_spec h.links (h.kernel page hadded) hnew
  refine ⟨{ r with pmm := s', live := r.live.erase page }, page :: free, ?_,
    ⟨hfree, h.nodup, ?_, ?_, h.kernel⟩⟩
  · rw [PmmStep.run, hrelease]
    rfl
  · refine h.perm.trans ?_
    exact ((List.perm_cons_erase hpage).append_left free).trans List.perm_middle
  · rw [List.length_cons, ← h.count]
    exact hcount

lemma Ok.write (h : r.Ok free) {page : Word} (hpage : page ∈ r.live) (i : Fin 512) (word : Word) :
    ∃ r' free', (PmmStep.write page i word).run r = .ok r' ∧ r'.Ok free' := by
  have hnew : ∀ other ∈ free, other ≠ page := fun other hmem heq =>
    (List.nodup_append.mp h.apart).2.2 other hmem page hpage heq
  refine ⟨_, free, rfl, ⟨⟨h.links.1.congr fun other hother => ?_, h.links.2⟩, h.nodup, h.perm,
    h.count, h.kernel⟩⟩
  exact PmmLinks.setPage_next_of_ne _ _ (hnew other hother)

lemma Initial.ok (h : r.Initial) : r.Ok [] := by
  obtain ⟨hlist, hcount, -, hadded, hlive⟩ := h
  refine ⟨⟨hlist, List.not_mem_nil⟩, ?_, ?_, hcount, fun page hpage => ?_⟩
  · rw [hadded]
    exact List.nodup_nil
  · rw [hadded, hlive]
    exact List.Perm.nil
  · rw [hadded] at hpage
    cases hpage

/-- Every legal step succeeds and keeps the account, as long as `tail` is right. -/
lemma Ok.step (h : r.Ok free) {step : PmmStep} (hlegal : step.Legal r) (htail : step.TailOk r) :
    ∃ r' free', step.run r = .ok r' ∧ r'.Ok free' := by
  cases step with
  | add hhdmOffset start length =>
    obtain ⟨r', free', hrun, hok, -⟩ := h.add hlegal htail
    exact ⟨r', free', hrun, hok⟩
  | alloc => exact h.alloc
  | free page => exact h.release hlegal
  | write page i word => exact h.write hlegal i word

end PmmRun

/-- In every run that adds pages only while `tail` points to the end of the free list, all pages
are accounted for, and adding pages writes to no page that is in use. -/
theorem pmm_accounted {r : PmmRun}
    (h : Reachable PmmRun.Initial (fun step r => step.Legal r ∧ step.TailOk r) PmmStep.run r) :
    r.Accounted ∧ ∀ hhdmOffset start length,
      (PmmStep.add hhdmOffset start length).Legal r → r.pmm.TailEnds →
        Ensures (fun _ => False) (fun r' => ∀ page ∈ r.live, r'.pmm.memory page = r.pmm.memory page)
          ((PmmStep.add hhdmOffset start length).run r) := by
  have hinv : ∃ free, r.Ok free := by
    refine h.invariant (I := fun r => ∃ free, PmmRun.Ok r free) (fun r hr => ⟨[], hr.ok⟩) ?_
    rintro step r r' ⟨free, hok⟩ ⟨hlegal, htail⟩ hrun
    obtain ⟨r'', free', hrun', hok'⟩ := hok.step hlegal htail
    rw [hrun, Except.ok.injEq] at hrun'
    exact ⟨free', hrun' ▸ hok'⟩
  obtain ⟨free, hok⟩ := hinv
  refine ⟨hok.accounted, fun hhdmOffset start length hlegal htail => ?_⟩
  obtain ⟨r', -, hrun, -, hframe⟩ := hok.add hlegal htail
  rw [hrun]
  exact hframe

/-- No page was added yet. -/
def PmmRun.empty : PmmRun :=
  ⟨⟨fun _ _ => 0, 0, 0, 0, .freeList⟩, [], []⟩

/-- Three pages of physical memory, as the kernel sees them -/
def threePages : Fin 3 → Word
  | 0 => 0xffff800000001000
  | 1 => 0xffff800000002000
  | 2 => 0xffff800000003000

lemma threePages_kernel (i : Fin 3) : IsKernelPage (threePages i) := by
  fin_cases i <;> exact ⟨by decide, by decide, by decide⟩

/-- The pool after the first two pages were added -/
def poolAdded : PmmRun :=
  ⟨{ (PmmRun.empty.pmm.setWord (threePages 0) 0 (threePages 1)).setWord (threePages 1) 0 0 with
      freeList := threePages 0
      freeCount := 2
      totalCount := 2
      tail := .next (threePages 1) }, [threePages 0, threePages 1], []⟩

/-- The pool after the first page was handed out -/
def poolTaken : PmmRun :=
  ⟨{ poolAdded.pmm.setPage (threePages 0) (Page.fill 0xdd) with
      freeList := threePages 1
      freeCount := 1 }, [threePages 0, threePages 1], [threePages 0]⟩

/-- The pool after the third page was added behind the second -/
def poolExtended : PmmRun :=
  ⟨{ (poolTaken.pmm.setWord (threePages 1) 0 (threePages 2)).setWord (threePages 2) 0 0 with
      freeCount := 2
      totalCount := 3
      tail := .next (threePages 2) }, [threePages 0, threePages 1, threePages 2], [threePages 0]⟩

/-- The pool after the second page was handed out as well -/
def poolTakenTwice : PmmRun :=
  ⟨{ poolExtended.pmm.setPage (threePages 1) (Page.fill 0xdd) with
      freeList := threePages 2
      freeCount := 1 }, [threePages 0, threePages 1, threePages 2], [threePages 1, threePages 0]⟩

/-- The pool after the first page was given back -/
def poolReturned : PmmRun :=
  ⟨{ (poolTakenTwice.pmm.setPage (threePages 0) (Page.fill 0xee)).setWord (threePages 0) 0
        (threePages 2) with
      freeList := threePages 0
      freeCount := 2 }, [threePages 0, threePages 1, threePages 2], [threePages 1]⟩

/-- Pages are added, handed out and given back; the second addition finds the end of the list. -/
lemma poolReturned_reachable : Reachable PmmRun.Initial
    (fun step r => PmmStep.Legal r step ∧ PmmStep.TailOk r step) PmmStep.run poolReturned := by
  have hfirst : PmmLinks.rangePages 0xffff800000000000 0x1000 8192 =
      [threePages 0, threePages 1] := by decide
  have hthird : PmmLinks.rangePages 0xffff800000000000 0x3000 4096 = [threePages 2] := by decide
  have hadded : Reachable PmmRun.Initial
      (fun step r => PmmStep.Legal r step ∧ PmmStep.TailOk r step) PmmStep.run poolAdded := by
    refine .step (.add 0xffff800000000000 0x1000 8192) (.init (s := PmmRun.empty) ?_) ⟨?_, ?_⟩ rfl
    · exact ⟨rfl, rfl, rfl, rfl, rfl⟩
    · refine ⟨by decide, by decide, by decide, fun page hpage => ?_⟩
      rw [hfirst, List.mem_pair] at hpage
      rcases hpage with rfl | rfl
      · exact threePages_kernel 0
      · exact threePages_kernel 1
    · exact ⟨[], ⟨rfl, List.not_mem_nil⟩, rfl⟩
  have htaken : Reachable PmmRun.Initial
      (fun step r => PmmStep.Legal r step ∧ PmmStep.TailOk r step) PmmStep.run poolTaken :=
    .step .alloc hadded ⟨trivial, trivial⟩ rfl
  have hextended : Reachable PmmRun.Initial
      (fun step r => PmmStep.Legal r step ∧ PmmStep.TailOk r step) PmmStep.run poolExtended := by
    refine .step (.add 0xffff800000000000 0x3000 4096) htaken ⟨?_, ?_⟩ rfl
    · refine ⟨by decide, by decide, by decide, fun page hpage => ?_⟩
      rw [hthird, List.mem_singleton] at hpage
      subst hpage
      exact threePages_kernel 2
    · exact ⟨[threePages 1], ⟨⟨rfl, rfl⟩, by decide⟩, rfl⟩
  have htwice : Reachable PmmRun.Initial
      (fun step r => PmmStep.Legal r step ∧ PmmStep.TailOk r step) PmmStep.run poolTakenTwice :=
    .step .alloc hextended ⟨trivial, trivial⟩ rfl
  refine .step (.free (threePages 0)) htwice ⟨?_, trivial⟩ rfl
  exact List.mem_cons_of_mem _ List.mem_cons_self

/-- Two of three pages are free again, and what is added next leaves the third as it is. -/
theorem pmm_accounted_poolReturned :
    poolReturned.live = [threePages 1] ∧ poolReturned.pmm.FreeIs [threePages 0, threePages 2] ∧
      poolReturned.Accounted ∧ ∀ hhdmOffset start length,
        (PmmStep.add hhdmOffset start length).Legal poolReturned → poolReturned.pmm.TailEnds →
          Ensures (fun _ => False) (fun r' => ∀ page ∈ poolReturned.live,
              r'.pmm.memory page = poolReturned.pmm.memory page)
            ((PmmStep.add hhdmOffset start length).run poolReturned) := by
  refine ⟨rfl, ⟨⟨rfl, ?_⟩, by decide⟩, pmm_accounted poolReturned_reachable⟩
  exact ⟨rfl, rfl⟩

/-- Two pages of physical memory, as the kernel sees them -/
def latePages : Word × Word := (0xffff800000001000, 0xffff800000002000)

lemma latePages_kernel {page : Word} (h : page = latePages.1 ∨ page = latePages.2) :
    IsKernelPage page := by
  rcases h with rfl | rfl <;> exact ⟨by decide, by decide, by decide⟩

/-- The pool after the first page was added -/
def lateFirst : PmmRun :=
  ⟨⟨Function.update (fun _ _ => 0) latePages.1 (Function.update (fun _ => 0) 0 0), latePages.1, 1,
    1, .next latePages.1⟩, [latePages.1], []⟩

/-- The pool after this page was handed out -/
def lateSecond : PmmRun :=
  ⟨⟨Function.update lateFirst.pmm.memory latePages.1 (Page.fill 0xdd), 0, 0, 1,
    .next latePages.1⟩, [latePages.1], [latePages.1]⟩

/-- The pool after the second page was added -/
def lateThird : PmmRun :=
  ⟨{ (lateSecond.pmm.setWord latePages.1 0 latePages.2).setWord latePages.2 0 0 with
      freeCount := 1
      totalCount := 2
      tail := .next latePages.2 }, [latePages.1, latePages.2], [latePages.1]⟩

lemma lateThird_reachable :
    Reachable PmmRun.Initial (fun step r => PmmStep.Legal r step) PmmStep.run lateThird := by
  have hfirst : PmmLinks.rangePages 0xffff800000000000 0x1000 4096 = [latePages.1] := by decide
  have hsecond : PmmLinks.rangePages 0xffff800000000000 0x2000 4096 = [latePages.2] := by decide
  have h₁ : Reachable PmmRun.Initial (fun step r => PmmStep.Legal r step) PmmStep.run
      lateFirst := by
    refine .step (.add 0xffff800000000000 0x1000 4096) (.init (s := PmmRun.empty) ?_) ?_ rfl
    · exact ⟨rfl, rfl, rfl, rfl, rfl⟩
    · refine ⟨by decide, by decide, by decide, fun page hpage => latePages_kernel (Or.inl ?_)⟩
      rwa [hfirst, List.mem_singleton] at hpage
  have h₂ : Reachable PmmRun.Initial (fun step r => PmmStep.Legal r step) PmmStep.run lateSecond :=
    .step PmmStep.alloc h₁ (show PmmStep.Legal lateFirst .alloc from trivial) rfl
  refine .step (PmmStep.add 0xffff800000000000 0x2000 4096) h₂ ?_ rfl
  refine ⟨by decide, by decide, by decide, fun page hpage => latePages_kernel (Or.inr ?_)⟩
  rwa [hsecond, List.mem_singleton] at hpage

/-- A page is added after the only page was handed out: it lands in that page and is lost. -/
theorem not_pmm_accounted_lateAddition : ¬ ∀ r,
    Reachable PmmRun.Initial (fun step r => PmmStep.Legal r step) PmmStep.run r →
      r.Accounted := by
  intro hall
  obtain ⟨free, ⟨hchain, hzero⟩, -, hperm, -⟩ := hall lateThird lateThird_reachable
  have hnil : free = [] := hchain.eq_nil hzero
  have hlength := hperm.length_eq
  rw [hnil] at hlength
  exact absurd hlength (by decide)

end Fluke
