import Fluke.Forth.Dictionary

/-!
# Defining words

Between `:` and `;` a new word grows at the end of the data space, and the dictionary does not lead
to it yet. A later definition begins where the one before ends, and leaves it as it is.
-/

namespace Fluke

open Outcome ByteMemory

/-! ### Definitions -/

/-- A word that is defined by its cells: where its header is, and its name in the input. -/
structure Definition where
  header : ℕ
  name : List (BitVec 8)
  cells : List Word
  deriving DecidableEq

namespace Definition

/-- The length of the name in the header -/
def nameLength (d : Definition) : ℕ := min d.name.length 126

/-- The code field -/
def xt (d : Definition) : ℕ := d.header + (18 + d.nameLength) / 8 * 8

/-- The end of the body -/
def stop (d : Definition) : ℕ := d.xt + 8 * (d.cells.length + 2)

/-- The word in the dictionary; a name that is too long is cut off. -/
def entry (d : Definition) : DictEntry := ⟨d.header, d.stop, d.name.take 126⟩

/-- The code field and the body -/
def code (docolon exit : Word) (d : Definition) : List Word := docolon :: d.cells ++ [exit]

lemma length_take_name (d : Definition) : (d.name.take 126).length = d.nameLength := by
  rw [List.length_take, nameLength, Nat.min_comm]

/-- The header and the name end in front of the code field. -/
lemma header_le_xt (d : Definition) : d.header + 11 + d.nameLength ≤ d.xt := by
  rw [xt]
  omega

end Definition

/-- Where words are defined -/
structure DataSpace where
  start : ℕ
  stop : ℕ
  nonnull : start ≠ 0
  aligned : start % 8 = 0
  fits : stop < 2 ^ 64

/-- The words that were defined so far, the latest one first, and the one whose definition has not
ended. -/
structure DictRun where
  s : ForthState
  words : List Definition
  pending : Option Definition

/-- The interpreter comes to `:` in an input buffer, compiles a cell, comes to `;` or to
`immediate`. -/
inductive DictStep where
  | enterColon (tib ntib toIn : Word)
  | compile (x : Word)
  | enterSemicolon
  | enterImmediate

/-- The interpreter reads from this buffer. -/
def ForthState.setInput (s : ForthState) (tib ntib toIn : Word) : ForthState :=
  { s with ctx := { s.ctx with
      tib := tib
      ntib := ntib
      toIn := toIn } }

/-- The name that follows in the input -/
def ForthState.nextName (s : ForthState) : List (BitVec 8) := (names s.remaining).headD []

/-- One step -/
def DictStep.run (docolon exit : Word) : DictStep → DictRun → Except Panic DictRun
  | .enterColon tib ntib toIn, r => do
    let s := r.s.setInput tib ntib toIn
    let s' ← colon docolon s
    .ok { r with s := s', pending := some ⟨s.ctx.here.toNat, s.nextName, []⟩ }
  | .compile x, r => do
    let s ← comma (r.s.push x)
    .ok { r with s := s, pending := r.pending.map fun d => { d with cells := d.cells ++ [x] } }
  | .enterSemicolon, r => do
    let s ← semicolon exit r.s
    .ok ⟨s, r.pending.toList ++ r.words, none⟩
  | .enterImmediate, r => do
    let s ← immediate r.s
    .ok { r with s := s }

/-- `:` and `immediate` come between definitions, cells and `;` in one. The input buffer is apart
from the data space, which is large enough. -/
def DictStep.Legal (space : DataSpace) (r : DictRun) : DictStep → Prop
  | .enterColon tib ntib toIn =>
    r.pending = none ∧ (r.s.setInput tib ntib toIn).ctx.InputOk ∧
      (tib.toNat + ntib.toNat ≤ space.start ∨ space.stop ≤ tib.toNat) ∧
      names (r.s.setInput tib ntib toIn).remaining ≠ [] ∧
      r.s.ctx.here.toNat +
        (18 + min (r.s.setInput tib ntib toIn).nextName.length 126) / 8 * 8 + 8 ≤ space.stop
  | .compile _ => r.pending ≠ none ∧ r.s.ctx.here.toNat + 8 ≤ space.stop
  | .enterSemicolon => r.pending ≠ none ∧ r.s.ctx.here.toNat + 8 ≤ space.stop
  | .enterImmediate => r.pending = none ∧ r.s.ctx.dictionary ≠ 0

/-- The words of the dictionary: those that were defined, and the old ones -/
def DictRun.entries (old : List DictEntry) (r : DictRun) : List DictEntry :=
  r.words.map Definition.entry ++ old

/-- The data space is empty, and the words of the dictionary are outside of it. -/
structure DictRun.Initial (space : DataSpace) (old : List DictEntry) (r : DictRun) : Prop where
  here : r.s.ctx.here.toNat = space.start
  words : r.words = []
  pending : r.pending = none
  dictionary : IsDictionary r.s.memory r.s.ctx.dictionary.toNat old
  outside : ∀ e ∈ old, e.stop ≤ space.start ∨ space.stop ≤ e.header

/-! ### The memory of a definition -/

namespace DictRun

/-- Where the memory of the defined words ends -/
def top (r : DictRun) : ℕ :=
  match r.pending with
  | none => r.s.ctx.here.toNat
  | some d => d.header

end DictRun

/-- A definition that has not ended: the data pointer is behind its last cell. -/
structure IsPending (docolon : Word) (m : ByteMemory) (here : ℕ) (d : Definition) : Prop where
  header : HasHeader m ⟨d.header, here, d.name.take 126⟩
  code : m.cellsAt d.xt (d.cells.length + 1) = docolon :: d.cells
  here : here = d.xt + 8 * (d.cells.length + 1)

variable {docolon exit : Word} {m : ByteMemory} {here : ℕ} {d : Definition}

/-- One more cell -/
lemma IsPending.comma (h : IsPending docolon m here d) (x : Word) (hfits : here + 8 ≤ 2 ^ 64) :
    IsPending docolon (m.store here x) (here + 8) { d with cells := d.cells ++ [x] } ∧
      (m.store here x).load d.header = m.load d.header := by
  obtain ⟨hheader, hcode, hhere⟩ := h
  have hkept : ∀ y < here, (m.store here x) y = m y := fun y hy => store_of_out (Or.inl hy)
  have hheader' : HasHeader (m.store here x) ⟨d.header, here, d.name.take 126⟩ :=
    hheader.congr fun y _ hy _ => hkept y hy
  have hstop := hheader.stop_le
  dsimp only at hstop
  refine ⟨⟨?_, ?_, ?_⟩, ?_⟩
  · exact { hheader' with stop_le := Nat.le_trans hstop (Nat.le_add_right here 8), fits := hfits }
  · have hcells : (m.store here x).cellsAt d.xt (d.cells.length + 1) =
        m.cellsAt d.xt (d.cells.length + 1) :=
      cellsAt_congr fun y _ hy => hkept y (by omega)
    have hlast : (m.store here x).load (d.xt + 8 * (d.cells.length + 1)) = x := by
      rw [← hhere, load_store]
    show (m.store here x).cellsAt d.xt _ = _
    rw [List.length_append, List.length_singleton, cellsAt_succ, hcells, hcode, hlast,
      List.cons_append]
  · show here + 8 = d.xt + _
    rw [List.length_append, List.length_singleton]
    omega
  · exact load_congr fun y _ hy => hkept y (by omega)

/-- The next name is found in the buffer. -/
lemma forthParseName_nextName {s : ForthState} (hinput : s.ctx.InputOk)
    (hnames : names s.remaining ≠ []) :
    ∃ toIn address : Word,
      forthParseName s = .ok (({ s with ctx := { s.ctx with toIn := toIn } }.push address).push
        (BitVec.ofNat 64 s.nextName.length)) ∧
      s.memory.bytesAt address.toNat s.nextName.length = s.nextName ∧ s.nextName ≠ [] ∧
      s.ctx.tib.toNat ≤ address.toNat ∧
      address.toNat + s.nextName.length ≤ s.ctx.tib.toNat + s.ctx.ntib.toNat := by
  obtain ⟨blanks, token, tail, htext, hblanks, htoken, hempty, hend, hparse⟩ := forthParseName_eq s
  have htakes : ParseCall.name.Takes s.remaining token tail.tail :=
    ⟨blanks, tail, htext, hblanks, htoken, hempty, hend, rfl⟩
  have hne : token ≠ [] := by
    intro hnil
    rw [names_of_takes htakes, if_pos hnil] at hnames
    exact hnames rfl
  have hname : s.nextName = token := by
    rw [ForthState.nextName, names_of_takes htakes, if_neg hne]
    rfl
  have hadd := hinput.remainder_add
  have hfits := hinput.fits
  have hlength : blanks.length + token.length + tail.length = s.ctx.remainder := by
    rw [← List.length_append, ← List.length_append, ← htext]
    exact length_bytesAt ..
  have hpos : 0 < token.length := List.length_pos_iff.mpr hne
  have hbegin : s.ctx.begin = s.ctx.tib.toNat + s.ctx.toIn.toNat := by
    rw [ForthContext.begin, BitVec.toNat_add]
    omega
  have haddress : (BitVec.ofNat 64 (s.ctx.begin + blanks.length)).toNat =
      s.ctx.begin + blanks.length := by
    rw [BitVec.toNat_ofNat, Nat.mod_eq_of_lt (by omega)]
  have hsplit : s.memory.bytesAt s.ctx.begin s.ctx.remainder = blanks ++ (token ++ tail) := by
    rw [← List.append_assoc]
    exact htext
  refine ⟨_, _, hname ▸ hparse, ?_⟩
  rw [haddress, hname]
  exact ⟨(bytesAt_split (bytesAt_split hsplit).2).1, hne, by omega, by omega⟩

/-- `:` lays out the header of the next name and the code field. -/
lemma colon_spec {s : ForthState} {space : DataSpace} (hinput : s.ctx.InputOk)
    (hbuffer : s.ctx.tib.toNat + s.ctx.ntib.toNat ≤ space.start ∨ space.stop ≤ s.ctx.tib.toNat)
    (hnames : names s.remaining ≠ []) (hstart : space.start ≤ s.ctx.here.toNat)
    (haligned : s.ctx.here.toNat % 8 = 0) (hd : d = ⟨s.ctx.here.toNat, s.nextName, []⟩)
    (hroom : d.xt + 8 ≤ space.stop) :
    ∃ s', colon docolon s = .ok s' ∧ s'.stack = BitVec.ofNat 64 d.header :: s.stack ∧
      s'.ctx.dictionary = s.ctx.dictionary ∧ s'.ctx.here.toNat = d.xt + 8 ∧
      s'.memory.load d.header = s.ctx.dictionary ∧ IsPending docolon s'.memory (d.xt + 8) d ∧
      ∀ x, (x < d.header ∨ d.xt + 8 ≤ x) → s'.memory x = s.memory x := by
  obtain ⟨toIn, address, hparse, hstring, hne, hlow, hhigh⟩ :=
    forthParseName_nextName hinput hnames
  have hxt := d.header_le_xt
  have hspace := space.fits
  have hheader : d.header = s.ctx.here.toNat := by rw [hd]
  have hname : d.name = s.nextName := by rw [hd]
  have hlen : d.nameLength = min s.nextName.length 126 := by rw [Definition.nameLength, hname]
  have hntib := hinput.ntib_lt
  have hpos : 0 < s.nextName.length := List.length_pos_iff.mpr hne
  set s₁ : ForthState := { s with ctx := { s.ctx with toIn := toIn } }
  obtain ⟨m, hmake, hlink, hcount, hchars, hframe⟩ :=
    @forthMakeHeader_eq s₁ address s.nextName.length d.nameLength (by omega) hlen (by
      show address.toNat + _ ≤ s.ctx.here.toNat ∨ s.ctx.here.toNat + _ + _ ≤ address.toNat
      omega)
  have hxtNat : (forthHeaderToXt m s.ctx.here).toNat = d.xt := by
    have hcount' : m (s.ctx.here.toNat + 9) = BitVec.ofNat 8 d.nameLength := hcount
    rw [forthHeaderToXt_toNat, hcount', BitVec.toNat_ofNat, ← hheader]
    rw [Definition.xt] at hroom ⊢
    omega
  set xt := forthHeaderToXt m s.ctx.here
  have hrun : colon docolon s = .ok
      { memory := m.store xt.toNat docolon
        ctx := { s₁.ctx with
          here := xt + 8
          state := 1 }
        stack := s.ctx.here :: s.stack } := by
    rw [colon, thread_cons, hparse, ok_bind, thread_cons, hmake]
    rfl
  have hkept : ∀ x, x < d.xt → (m.store d.xt docolon) x = m x := fun x hx =>
    store_of_out (Or.inl hx)
  rw [hxtNat] at hrun
  have hlink' : m.load d.header = s.ctx.dictionary := by
    rw [hheader]
    exact hlink
  have hframe' : ∀ x, (x < d.header ∨ d.header + 11 + d.nameLength ≤ x) → m x = s.memory x := by
    rw [hheader]
    exact hframe
  have htake : d.name.take 126 = s.nextName.take d.nameLength := by
    rw [hname, hlen, List.take_eq_take_iff]
    omega
  have hchars' : m.bytesAt (d.header + 10) (d.nameLength + 1) = d.name.take 126 ++ [0] := by
    have hprefix : s.memory.bytesAt address.toNat d.nameLength = d.name.take 126 := by
      rw [htake, bytesAt_take (n := s.nextName.length) (by omega), hstring]
    rw [hheader, ← hprefix]
    exact hchars
  refine ⟨_, hrun, ?_, rfl, ?_, ?_, ⟨?_, ?_, ?_⟩, ?_⟩
  · rw [hheader, BitVec.ofNat_toNat, BitVec.setWidth_eq]
  · have h8 : (8 : Word).toNat = 8 := rfl
    show (xt + 8).toNat = _
    rw [BitVec.toNat_add, hxtNat, h8]
    exact Nat.mod_eq_of_lt (by omega)
  · rw [← hlink']
    exact load_congr fun x _ hx => hkept x (by omega)
  · -- the header is below the code field
    have hstart' := space.nonnull
    have hnil : s.nextName.take 126 ≠ [] := by
      intro hnil
      rcases List.take_eq_nil_iff.mp hnil with h | h
      · exact absurd h (by decide)
      · exact hne h
    constructor
    · show d.header ≠ 0
      omega
    · show d.header % 8 = 0
      omega
    · show (m.store d.xt docolon) (d.header + 9) = _
      rw [hkept _ (by omega), d.length_take_name, hheader]
      exact hcount
    · show (m.store d.xt docolon).bytesAt (d.header + 10) _ = _
      rw [d.length_take_name, ← hchars']
      exact bytesAt_congr fun x _ hx => hkept x (by omega)
    · exact hname ▸ hnil
    · exact (d.length_take_name).trans_le (hlen ▸ Nat.min_le_right _ _)
    · show d.header + 11 + _ ≤ d.xt + 8
      rw [d.length_take_name]
      omega
    · show d.xt + 8 ≤ 2 ^ 64
      omega
  · rw [show d.cells = [] by rw [hd]]
    exact congrArg (fun x => [x]) (load_store m d.xt docolon)
  · rw [show d.cells = [] by rw [hd]]
    rfl
  · intro x hx
    show (m.store d.xt docolon) x = s.memory x
    rw [store_of_out (by omega)]
    exact hframe' x (by omega)

/-! ### Runs -/

/-- What holds between the steps -/
structure DictRun.Ok (docolon exit : Word) (space : DataSpace) (old : List DictEntry)
    (r : DictRun) : Prop where
  dictionary : IsDictionary r.s.memory r.s.ctx.dictionary.toNat (r.entries old)
  code : ∀ d ∈ r.words, r.s.memory.cellsAt d.xt (d.cells.length + 2) = d.code docolon exit
  inside : ∀ d ∈ r.words, space.start ≤ d.header ∧ d.stop ≤ r.top
  outside : ∀ e ∈ old, e.stop ≤ space.start ∨ space.stop ≤ e.header
  top_ge : space.start ≤ r.top
  here_le : r.pending ≠ none → r.s.ctx.here.toNat ≤ space.stop
  aligned : r.s.ctx.here.toNat % 8 = 0
  pending : ∀ d ∈ r.pending, IsPending docolon r.s.memory r.s.ctx.here.toNat d ∧
    r.s.memory.load d.header = r.s.ctx.dictionary ∧
    ∃ rest, r.s.stack = BitVec.ofNat 64 d.header :: rest

/-- What a later state keeps: the words that were defined, and their memory. Only the flag of the
latest one may change. -/
structure DictRun.Kept (r r' : DictRun) : Prop where
  words : r.words <:+ r'.words
  latest : ∀ d ∈ r.words, r.s.ctx.dictionary.toNat ≠ d.header →
    r'.s.ctx.dictionary.toNat ≠ d.header
  memory : ∀ d ∈ r.words, ∀ x, d.header ≤ x → x < d.stop →
    (x = d.header + 8 → r.s.ctx.dictionary.toNat ≠ d.header) → r'.s.memory x = r.s.memory x

namespace DictRun

variable {space : DataSpace} {old : List DictEntry} {r r' r'' : DictRun}

lemma Kept.refl (r : DictRun) : r.Kept r :=
  ⟨List.suffix_rfl, fun _ _ h => h, fun _ _ _ _ _ _ => rfl⟩

lemma Kept.trans (h : r.Kept r') (h' : r'.Kept r'') : r.Kept r'' := by
  refine ⟨h.words.trans h'.words, fun d hd hne => ?_, fun d hd x hx hx' hflag => ?_⟩
  · exact h'.latest d (h.words.subset hd) (h.latest d hd hne)
  · rw [h'.memory d (h.words.subset hd) x hx hx' fun heq => h.latest d hd (hflag heq)]
    exact h.memory d hd x hx hx' hflag

lemma Initial.ok (h : r.Initial space old) : r.Ok docolon exit space old := by
  have htop : r.top = space.start := by
    rw [top, h.pending]
    exact h.here
  refine ⟨?_, ?_, ?_, h.outside, htop.ge, fun hne => absurd h.pending hne, ?_, ?_⟩
  · rw [entries, h.words]
    exact h.dictionary
  · rw [h.words]
    exact fun d hd => absurd hd List.not_mem_nil
  · rw [h.words]
    exact fun d hd => absurd hd List.not_mem_nil
  · rw [h.here]
    exact space.aligned
  · rw [h.pending]
    exact fun d hd => absurd hd (Option.not_mem_none d)

/-- Every word of the dictionary lies below the place where memory is used next, or outside of the
data space. -/
lemma Ok.entry_apart (h : r.Ok docolon exit space old) {e : DictEntry} (he : e ∈ r.entries old) :
    e.stop ≤ r.top ∨ space.stop ≤ e.header := by
  rcases List.mem_append.mp he with he | he
  · obtain ⟨d, hd, rfl⟩ := List.mem_map.mp he
    exact Or.inl (h.inside d hd).2
  · rcases h.outside e he with hle | hle
    · exact Or.inl (hle.trans h.top_ge)
    · exact Or.inr hle

/-- The words survive writes to the rest of the data space. -/
lemma Ok.same (h : r.Ok docolon exit space old) {m : ByteMemory}
    (hframe : ∀ x, (x < r.top ∨ space.stop ≤ x) → m x = r.s.memory x) :
    IsDictionary m r.s.ctx.dictionary.toNat (r.entries old) ∧
      (∀ d ∈ r.words, m.cellsAt d.xt (d.cells.length + 2) = d.code docolon exit) ∧
      ∀ d ∈ r.words, ∀ x, d.header ≤ x → x < d.stop → m x = r.s.memory x := by
  have hwords : ∀ d ∈ r.words, ∀ x, d.header ≤ x → x < d.stop → m x = r.s.memory x :=
    fun d hd x _ hx => hframe x (Or.inl (Nat.lt_of_lt_of_le hx (h.inside d hd).2))
  refine ⟨h.dictionary.congr fun e he x hx hx' _ => hframe x ?_, fun d hd => ?_, hwords⟩
  · rcases h.entry_apart he with hle | hle
    · exact Or.inl (Nat.lt_of_lt_of_le hx' hle)
    · exact Or.inr (Nat.le_trans hle hx)
  · have hxt := d.header_le_xt
    rw [← h.code d hd]
    exact cellsAt_congr fun x hx hx' => hwords d hd x (by omega) hx'

/-- `:` -/
lemma Ok.enterColon (h : r.Ok docolon exit space old) {tib ntib toIn : Word}
    (hlegal : (DictStep.enterColon tib ntib toIn).Legal space r) :
    ∃ r', (DictStep.enterColon tib ntib toIn).run docolon exit r = .ok r' ∧
      r'.Ok docolon exit space old ∧ r.Kept r' := by
  obtain ⟨hpending, hinput, hbuffer, hnames, hroom⟩ := hlegal
  have htop : r.top = r.s.ctx.here.toNat := by rw [top, hpending]
  set s := r.s.setInput tib ntib toIn
  set d : Definition := ⟨r.s.ctx.here.toNat, s.nextName, []⟩ with hd
  have hroom' : d.xt + 8 ≤ space.stop := hroom
  obtain ⟨s', hrun, hstack, hdictionary, hhere, hlink, hdone, hframe⟩ :=
    @colon_spec docolon d s space hinput hbuffer hnames (htop ▸ h.top_ge) h.aligned hd hroom'
  have hframe' : ∀ x, (x < r.top ∨ space.stop ≤ x) → s'.memory x = r.s.memory x := by
    intro x hx
    rw [htop] at hx
    exact hframe x (hx.imp_right fun hle => by omega)
  obtain ⟨hentries, hcode, hwords⟩ := h.same hframe'
  refine ⟨⟨s', r.words, some d⟩, by rw [DictStep.run, hrun]; rfl, ?_, ?_⟩
  · refine ⟨?_, hcode, fun w hw => ?_, h.outside, ?_, fun _ => ?_, ?_, ?_⟩
    · show IsDictionary s'.memory s'.ctx.dictionary.toNat _
      rw [hdictionary]
      exact hentries
    · have hinside := h.inside w hw
      rw [htop] at hinside
      exact hinside
    · have hge := h.top_ge
      rw [htop] at hge
      exact hge
    · show s'.ctx.here.toNat ≤ _
      rw [hhere]
      exact hroom'
    · have haligned := h.aligned
      show s'.ctx.here.toNat % 8 = 0
      rw [hhere, Definition.xt]
      show (r.s.ctx.here.toNat + _ + 8) % 8 = 0
      omega
    · intro d' hd'
      obtain rfl : d = d' := Option.some.inj hd'
      show IsPending docolon s'.memory s'.ctx.here.toNat d ∧ _
      rw [hhere]
      exact ⟨hdone, hlink.trans hdictionary.symm, _, hstack⟩
  · refine ⟨List.suffix_rfl, fun w _ hne => ?_, fun w hw x hx hx' _ => hwords w hw x hx hx'⟩
    show s'.ctx.dictionary.toNat ≠ _
    rw [hdictionary]
    exact hne

/-- A cell is compiled. -/
lemma Ok.compile (h : r.Ok docolon exit space old) {x : Word}
    (hlegal : (DictStep.compile x).Legal space r) :
    ∃ r', (DictStep.compile x).run docolon exit r = .ok r' ∧
      r'.Ok docolon exit space old ∧ r.Kept r' := by
  obtain ⟨hne, hroom⟩ := hlegal
  obtain ⟨d, hd⟩ := Option.ne_none_iff_exists'.mp hne
  obtain ⟨hdone, hlink, rest, hstack⟩ := h.pending d hd
  have htop : r.top = d.header := by rw [top, hd]
  have hspace := space.fits
  have hxt := d.header_le_xt
  have hhere := hdone.here
  have h8 : (8 : Word).toNat = 8 := rfl
  have hnext : (r.s.ctx.here + 8).toNat = r.s.ctx.here.toNat + 8 := by
    rw [BitVec.toNat_add, h8]
    exact Nat.mod_eq_of_lt (by omega)
  obtain ⟨hdone', hload⟩ := hdone.comma x (by omega)
  have hframe : ∀ y, (y < r.top ∨ space.stop ≤ y) →
      (r.s.memory.store r.s.ctx.here.toNat x) y = r.s.memory y := by
    intro y hy
    exact store_of_out (by omega)
  obtain ⟨hentries, hcode, hwords⟩ := h.same hframe
  have haligned := h.aligned
  refine ⟨_, rfl, ⟨hentries, hcode, fun w hw => ?_, h.outside, ?_, fun _ => ?_, ?_, ?_⟩,
    ⟨List.suffix_rfl, fun _ _ hne => hne, fun w hw y hy hy' _ => hwords w hw y hy hy'⟩⟩
  · have hinside := h.inside w hw
    rw [htop] at hinside
    rw [top, hd]
    exact hinside
  · have hge := h.top_ge
    rw [htop] at hge
    rw [top, hd]
    exact hge
  · show (r.s.ctx.here + 8).toNat ≤ _
    rw [hnext]
    exact hroom
  · show (r.s.ctx.here + 8).toNat % 8 = 0
    omega
  · intro d' hd'
    rw [hd] at hd'
    obtain rfl := Option.some.inj hd'
    show IsPending docolon _ (r.s.ctx.here + 8).toNat _ ∧ _
    rw [hnext]
    exact ⟨hdone', hload.trans hlink, rest, hstack⟩

/-- `;` -/
lemma Ok.enterSemicolon (h : r.Ok docolon exit space old)
    (hlegal : DictStep.enterSemicolon.Legal space r) :
    ∃ r', DictStep.enterSemicolon.run docolon exit r = .ok r' ∧
      r'.Ok docolon exit space old ∧ r.Kept r' := by
  obtain ⟨hne, hroom⟩ := hlegal
  obtain ⟨d, hd⟩ := Option.ne_none_iff_exists'.mp hne
  obtain ⟨hdone, hlink, rest, hstack⟩ := h.pending d hd
  have htop : r.top = d.header := by rw [top, hd]
  have hspace := space.fits
  have hxt := d.header_le_xt
  have hhere := hdone.here
  have h8 : (8 : Word).toNat = 8 := rfl
  have hnext : (r.s.ctx.here + 8).toNat = r.s.ctx.here.toNat + 8 := by
    rw [BitVec.toNat_add, h8]
    exact Nat.mod_eq_of_lt (by omega)
  have hheader : (BitVec.ofNat 64 d.header).toNat = d.header := by
    rw [BitVec.toNat_ofNat]
    exact Nat.mod_eq_of_lt (by omega)
  have hstop : d.stop = r.s.ctx.here.toNat + 8 := by
    rw [Definition.stop]
    omega
  obtain ⟨hdone', hload⟩ := hdone.comma exit (by omega)
  set m := r.s.memory.store r.s.ctx.here.toNat exit
  have hframe : ∀ y, (y < r.top ∨ space.stop ≤ y) → m y = r.s.memory y := by
    intro y hy
    exact store_of_out (by omega)
  obtain ⟨hentries, hcode, hwords⟩ := h.same hframe
  have hrun : DictStep.enterSemicolon.run docolon exit r = .ok
      ⟨⟨m, { r.s.ctx with
        here := r.s.ctx.here + 8
        dictionary := BitVec.ofNat 64 d.header
        state := 0 }, rest⟩, d :: r.words, none⟩ := by
    rw [DictStep.run, semicolon, thread_cons, dictionaryStore, ForthState.pop, hstack, hd]
    rfl
  have hapart : ∀ e ∈ r.entries old, d.entry.Apart e := by
    intro e he
    rcases h.entry_apart he with hle | hle
    · rw [htop] at hle
      exact Or.inr hle
    · refine Or.inl ?_
      show d.stop ≤ e.header
      omega
  have hbelow : ∀ w ∈ r.words, w.stop ≤ d.header := by
    intro w hw
    have hinside := (h.inside w hw).2
    rwa [htop] at hinside
  have hword : HasHeader m d.entry := by
    have hheader' := hdone'.header
    rw [← hstop] at hheader'
    exact hheader'
  refine ⟨_, hrun, ⟨?_, ?_, ?_, h.outside, ?_, fun hne => absurd rfl hne, ?_, ?_⟩, ⟨?_, ?_, ?_⟩⟩
  · show IsDictionary m (BitVec.ofNat 64 d.header).toNat (d.entry :: r.entries old)
    rw [hheader]
    refine hentries.cons hword ?_ hapart
    exact congrArg BitVec.toNat (hload.trans hlink)
  · refine List.forall_mem_cons.mpr ⟨?_, hcode⟩
    have hcells := hdone'.code
    rw [List.length_append, List.length_singleton] at hcells
    exact hcells
  · show ∀ w ∈ d :: r.words, space.start ≤ w.header ∧ w.stop ≤ (r.s.ctx.here + 8).toNat
    rw [hnext]
    refine List.forall_mem_cons.mpr ⟨⟨htop ▸ h.top_ge, hstop.le⟩, fun w hw => ?_⟩
    have hle := hbelow w hw
    exact ⟨(h.inside w hw).1, by omega⟩
  · have hge := h.top_ge
    show space.start ≤ (r.s.ctx.here + 8).toNat
    omega
  · have haligned := h.aligned
    show (r.s.ctx.here + 8).toNat % 8 = 0
    omega
  · exact fun d' hd' => absurd hd' (Option.not_mem_none d')
  · exact List.suffix_cons d r.words
  · intro w hw _
    have hle := hbelow w hw
    have hlt := w.header_le_xt
    show (BitVec.ofNat 64 d.header).toNat ≠ w.header
    rw [hheader]
    rw [Definition.stop] at hle
    omega
  · exact fun w hw y hy hy' _ => hwords w hw y hy hy'

/-- `immediate` sets the flag of the latest word. -/
lemma Ok.enterImmediate (h : r.Ok docolon exit space old)
    (hlegal : DictStep.enterImmediate.Legal space r) :
    ∃ r', DictStep.enterImmediate.run docolon exit r = .ok r' ∧
      r'.Ok docolon exit space old ∧ r.Kept r' := by
  obtain ⟨hpending, hne⟩ := hlegal
  have hne' : r.s.ctx.dictionary.toNat ≠ 0 := fun hzero =>
    hne (BitVec.eq_of_toNat_eq hzero)
  obtain ⟨latest, hmem, hlatest, -⟩ := h.dictionary.latest hne'
  have hheader := h.dictionary.headers latest hmem
  have hstop := hheader.stop_le
  have hfits := hheader.fits
  have h8 : (8 : Word).toNat = 8 := rfl
  have haddress : (8 + r.s.ctx.dictionary).toNat = r.s.ctx.dictionary.toNat + 8 := by
    rw [BitVec.toNat_add, h8, Nat.mod_eq_of_lt (by omega), Nat.add_comm]
  set m := r.s.memory.writeBytes (r.s.ctx.dictionary.toNat + 8) [1]
  have hkept : ∀ x, x ≠ r.s.ctx.dictionary.toNat + 8 → m x = r.s.memory x := fun x hx =>
    writeBytes_of_out (by rw [List.length_singleton]; omega)
  have hrun : DictStep.enterImmediate.run docolon exit r =
      .ok { r with s := { r.s with memory := m } } := by
    show Except.ok { r with s := { r.s with
      memory := r.s.memory.writeBytes (8 + r.s.ctx.dictionary).toNat [1] } } = _
    rw [haddress]
  have hentry : ∀ e ∈ r.entries old, ∀ x, e.header ≤ x → x < e.stop →
      (x = e.header + 8 → r.s.ctx.dictionary.toNat ≠ e.header) → m x = r.s.memory x :=
    fun e he x hx hx' hflag => hkept x (h.dictionary.ne_flag hne' he hx hx' hflag)
  have hword : ∀ d ∈ r.words, d.entry ∈ r.entries old := fun d hd =>
    List.mem_append_left _ (List.mem_map_of_mem hd)
  refine ⟨_, hrun, ⟨?_, ?_, h.inside, h.outside, h.top_ge, h.here_le, h.aligned, ?_⟩,
    ⟨List.suffix_rfl, fun _ _ hne => hne, fun d hd => hentry d.entry (hword d hd)⟩⟩
  · exact h.dictionary.congr fun e he x hx hx' hflag =>
      hentry e he x hx hx' fun heq => absurd heq hflag
  · intro d hd
    have hxt := d.header_le_xt
    rw [← h.code d hd]
    refine cellsAt_congr fun x hx hx' => hentry d.entry (hword d hd) x ?_ hx' ?_
    · show d.header ≤ x
      omega
    · show x = d.header + 8 → _
      omega
  · rw [hpending]
    exact fun d hd => absurd hd (Option.not_mem_none d)

/-- Every legal step is possible, and keeps the words that were defined. -/
lemma Ok.step (h : r.Ok docolon exit space old) {step : DictStep} (hlegal : step.Legal space r) :
    ∃ r', step.run docolon exit r = .ok r' ∧ r'.Ok docolon exit space old ∧ r.Kept r' := by
  cases step with
  | enterColon tib ntib toIn => exact h.enterColon hlegal
  | compile x => exact h.compile hlegal
  | enterSemicolon => exact h.enterSemicolon hlegal
  | enterImmediate => exact h.enterImmediate hlegal

/-- What a run that starts between definitions keeps -/
lemma Ok.run (h : r.Ok docolon exit space old)
    (hrun : Reachable (· = r) (fun step r => step.Legal space r) (DictStep.run docolon exit) r') :
    r'.Ok docolon exit space old ∧ r.Kept r' := by
  refine hrun.invariant (I := fun r' => DictRun.Ok docolon exit space old r' ∧ r.Kept r') ?_ ?_
  · rintro r' rfl
    exact ⟨h, Kept.refl r'⟩
  · rintro step r₁ r₂ ⟨hok, hkept⟩ hlegal hstep
    obtain ⟨r₂', hstep', hok', hkept'⟩ := hok.step hlegal
    rw [hstep, Except.ok.injEq] at hstep'
    rw [hstep']
    exact ⟨hok', hkept.trans hkept'⟩

end DictRun

/-! ### What the dictionary is good for -/

/-- Names are found and lead to code fields, and the words do not share memory. A search answers the
null pointer if and only if there is no word of this name. -/
structure DictRun.Works (docolon exit : Word) (old : List DictEntry) (r : DictRun) : Prop where
  find : ∀ (fuel : ℕ) (name : Word) (query : List (BitVec 8)),
    (r.entries old).length < fuel → query.length < 2 ^ 63 →
    r.s.memory.bytesAt name.toNat query.length = query →
    forthFindName fuel ((r.s.push name).push (BitVec.ofNat 64 query.length)) =
      .ok (r.s.push (BitVec.ofNat 64 (firstEntry (r.entries old) (query.take 126))))
  null : ∀ name : List (BitVec 8), BitVec.ofNat 64 (firstEntry (r.entries old) name) = 0 ↔
    ∀ e ∈ r.entries old, e.name ≠ name
  header : ∀ e ∈ r.entries old,
    ntToName (r.s.push (BitVec.ofNat 64 e.header)) =
      .ok ((r.s.push (10 + BitVec.ofNat 64 e.header)).push (BitVec.ofNat 64 e.name.length)) ∧
    ntToXt (r.s.push (BitVec.ofNat 64 e.header)) =
      .ok (r.s.push (forthHeaderToXt r.s.memory (BitVec.ofNat 64 e.header)))
  code : ∀ d ∈ r.words,
    (forthHeaderToXt r.s.memory (BitVec.ofNat 64 d.header)).toNat = d.xt ∧
    d.header + 11 + d.nameLength ≤ d.xt ∧
    r.s.memory.cellsAt d.xt (d.cells.length + 2) = d.code docolon exit
  apart : (r.entries old).Pairwise DictEntry.Apart
  pending : ∀ d ∈ r.pending, ∀ e ∈ r.entries old,
    e.Apart ⟨d.header, r.s.ctx.here.toNat, d.name.take 126⟩

lemma DictRun.Ok.works {r : DictRun} {space : DataSpace} {old : List DictEntry}
    (h : r.Ok docolon exit space old) : r.Works docolon exit old := by
  have hheader : ∀ e ∈ r.entries old, (BitVec.ofNat 64 e.header).toNat = e.header := by
    intro e he
    have hstop := (h.dictionary.headers e he).stop_le
    have hfits := (h.dictionary.headers e he).fits
    rw [BitVec.toNat_ofNat]
    exact Nat.mod_eq_of_lt (by omega)
  constructor
  · intro fuel name query hfuel hlength hquery
    have htake : query.take 126 = query.take (min query.length 126) := by
      rw [List.take_eq_take_iff]
      omega
    have hcount : min query.length 126 = (query.take 126).length := by
      rw [List.length_take, Nat.min_comm]
    have hprefix : r.s.memory.bytesAt name.toNat (query.take 126).length = query.take 126 := by
      rw [← hcount, htake, bytesAt_take (n := query.length) (Nat.min_le_left _ _), hquery]
    rw [forthFindName, ForthState.pop_push, ok_bind]
    dsimp only
    rw [ForthState.pop_push, ok_bind]
    dsimp only
    rw [clampName_eq hlength, hcount, lookupWord_spec hprefix hfuel h.dictionary]
    rfl
  · intro name
    rw [← firstEntry_eq_zero fun e he => (h.dictionary.headers e he).nonnull]
    refine ⟨fun hzero => ?_, fun hzero => by rw [hzero]; rfl⟩
    rcases firstEntry_mem (r.entries old) name with hnone | ⟨e, he, hfirst⟩
    · exact hnone
    · rw [hfirst, ← hheader e he, ← hfirst, hzero]
      rfl
  · intro e he
    have hword := h.dictionary.headers e he
    have hstop := hword.stop_le
    have hfits := hword.fits
    have hle := hword.name_le
    refine ⟨?_, ntToXt_spec r.s ?_ ?_⟩
    · rw [ntToName_spec r.s (by rw [hheader e he]; omega), hheader e he, hword.length]
      congr 2
      apply BitVec.eq_of_toNat_eq
      rw [BitVec.toNat_setWidth, BitVec.toNat_ofNat, BitVec.toNat_ofNat]
      omega
    · rw [hheader e he]
      exact hword.aligned
    · rw [hheader e he]
      omega
  · intro d hd
    have he : d.entry ∈ r.entries old := List.mem_append_left _ (List.mem_map_of_mem hd)
    have hword := h.dictionary.headers d.entry he
    have hfits := hword.fits
    have hlength : r.s.memory (d.header + 9) = BitVec.ofNat 8 d.nameLength := by
      rw [← d.length_take_name]
      exact hword.length
    have hxt : (BitVec.ofNat 64 d.header).toNat = d.header := hheader d.entry he
    refine ⟨?_, d.header_le_xt, h.code d hd⟩
    rw [forthHeaderToXt_toNat, hxt, hlength, BitVec.toNat_ofNat]
    have hstop : d.xt + 8 * (d.cells.length + 2) ≤ 2 ^ 64 := hfits
    have hle : d.nameLength ≤ 126 := Nat.min_le_right _ _
    rw [Definition.xt] at hstop ⊢
    omega
  · exact h.dictionary.apart
  · intro d hd e he
    have htop : r.top = d.header := by rw [DictRun.top, show r.pending = some d from hd]
    have hhere := h.here_le (by rw [show r.pending = some d from hd]; exact Option.some_ne_none d)
    rcases h.entry_apart he with hle | hle
    · exact Or.inl (hle.trans htop.le)
    · exact Or.inr (hhere.trans hle)

/-- The invariant holds in every run. -/
lemma DictRun.Ok.of_reachable {r : DictRun} {space : DataSpace} {old : List DictEntry}
    (h : Reachable (DictRun.Initial space old) (fun step r => step.Legal space r)
      (DictStep.run docolon exit) r) : r.Ok docolon exit space old := by
  refine h.invariant (I := DictRun.Ok docolon exit space old) (fun r hr => hr.ok) ?_
  intro step r r' hok hlegal hrun
  obtain ⟨r'', hrun', hok', -⟩ := hok.step hlegal
  rw [hrun, Except.ok.injEq] at hrun'
  exact hrun' ▸ hok'

/-- In every run of definitions, the dictionary works, legal steps are possible, and what was
defined stays as it is. -/
theorem forth_dictionary {space : DataSpace} {old : List DictEntry} {r : DictRun}
    (h : Reachable (DictRun.Initial space old) (fun step r => step.Legal space r)
      (DictStep.run docolon exit) r) :
    r.Works docolon exit old ∧
      (∀ step : DictStep, step.Legal space r → ∃ r', step.run docolon exit r = .ok r') ∧
      ∀ r', Reachable (· = r) (fun step r => step.Legal space r) (DictStep.run docolon exit) r' →
        r.Kept r' := by
  have hok := DictRun.Ok.of_reachable h
  refine ⟨hok.works, fun step hlegal => ?_, fun r' hrun => (hok.run hrun).2⟩
  obtain ⟨r', hrun, -⟩ := hok.step hlegal
  exact ⟨r', hrun⟩

/-- A page for new words -/
def pageSpace : DataSpace := ⟨0x1000, 0x2000, by decide, by decide, by decide⟩

/-- Nothing was defined, and there are no old words; an input buffer holds `sq cube`. -/
def noWords : DictRun :=
  ⟨⟨writeBytes (fun _ => 0) 0x3000 [0x73, 0x71, 0x20, 0x63, 0x75, 0x62, 0x65],
    ⟨0x1000, 0, 0, 0, 0, 0⟩, []⟩, [], none⟩

/-- The next state, when the step is possible -/
def DictStep.next (r : DictRun) (step : DictStep) : DictRun :=
  (step.run 1 2 r).toOption.getD r

instance ForthContext.decidableInputOk (ctx : ForthContext) : Decidable ctx.InputOk :=
  decidable_of_iff (0 ≤ ctx.toIn.toInt ∧ ctx.toIn.toInt ≤ ctx.ntib.toInt ∧
      ctx.tib.toNat + ctx.ntib.toNat ≤ 2 ^ 64)
    ⟨fun h => ⟨h.1, h.2.1, h.2.2⟩, fun h => ⟨h.toIn_nonneg, h.toIn_le, h.fits⟩⟩

instance DictStep.decidableLegal (space : DataSpace) (r : DictRun) :
    ∀ step : DictStep, Decidable (step.Legal space r)
  | .enterColon _ _ _ => inferInstanceAs (Decidable (_ ∧ _))
  | .compile _ => inferInstanceAs (Decidable (_ ∧ _))
  | .enterSemicolon => inferInstanceAs (Decidable (_ ∧ _))
  | .enterImmediate => inferInstanceAs (Decidable (_ ∧ _))

/-- Every step of the list is legal when it is taken. -/
def DictStep.AllLegal (space : DataSpace) : DictRun → List DictStep → Prop
  | _, [] => True
  | r, step :: steps => step.Legal space r ∧ AllLegal space (step.next r) steps

instance DictStep.decidableAllLegal (space : DataSpace) :
    ∀ (r : DictRun) (steps : List DictStep), Decidable (AllLegal space r steps)
  | _, [] => inferInstanceAs (Decidable True)
  | r, step :: steps =>
    haveI := decidableAllLegal space (step.next r) steps
    inferInstanceAs (Decidable (_ ∧ _))

/-- Legal steps are possible, so that they lead through a run. -/
lemma DictStep.AllLegal.reachable {space : DataSpace} {old : List DictEntry}
    {steps : List DictStep} {r : DictRun}
    (h : Reachable (DictRun.Initial space old) (fun step r => step.Legal space r)
      (DictStep.run 1 2) r) (hlegal : AllLegal space r steps) :
    Reachable (DictRun.Initial space old) (fun step r => step.Legal space r)
      (DictStep.run 1 2) (steps.foldl DictStep.next r) := by
  induction steps generalizing r with
  | nil => exact h
  | cons step steps ih =>
    obtain ⟨r', hrun, -⟩ := (DictRun.Ok.of_reachable h).step hlegal.1
    have hnext : step.next r = r' := by rw [next, hrun]; rfl
    rw [List.foldl_cons, hnext]
    refine ih (.step step h hlegal.1 hrun) ?_
    rw [← hnext]
    exact hlegal.2

/-- `: sq … ; immediate : cube … … ; : sq …`, where the last definition does not end. -/
def squareSteps : List DictStep :=
  [.enterColon 0x3000 7 0, .compile 7, .enterSemicolon, .enterImmediate, .enterColon 0x3000 7 2,
    .compile 8, .compile 9, .enterSemicolon, .enterColon 0x3000 2 0, .compile 5]

/-- Two words are defined, and a third one that has the name of the first. -/
def squares : DictRun := squareSteps.foldl DictStep.next noWords

/-- The words `cube` and `sq`, and a new `sq` that is not found yet -/
theorem forth_dictionary_squares :
    (squares.words = [⟨0x1028, [0x63, 0x75, 0x62, 0x65], [8, 9]⟩, ⟨0x1000, [0x73, 0x71], [7]⟩] ∧
      squares.pending = some ⟨0x1058, [0x73, 0x71], [5]⟩) ∧
    squares.Works 1 2 [] ∧
      (∀ step : DictStep, step.Legal pageSpace squares →
        ∃ r', step.run 1 2 squares = .ok r') ∧
      ∀ r', Reachable (· = squares) (fun step r => step.Legal pageSpace r) (DictStep.run 1 2) r' →
        squares.Kept r' := by
  have hinitial : DictRun.Initial pageSpace [] noWords :=
    ⟨rfl, rfl, rfl, ⟨rfl, by simp, .nil⟩, by simp⟩
  have hlegal : DictStep.AllLegal pageSpace noWords squareSteps := by decide +kernel
  exact ⟨by decide +kernel, forth_dictionary (hlegal.reachable (.init hinitial))⟩

end Fluke
