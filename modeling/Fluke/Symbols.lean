import Fluke.Library.Chain
import Fluke.Mem.Strings
import Fluke.Print.Hex

/-!
# The symbol table of the kernel

The table is a text with a line for each symbol. `symbol_table_init` makes a list of the lines
without moving them: a `struct Symbol` lies over each line, whose fields take the place of the
digits of the address, and the newline becomes the end of the name.
-/

namespace Fluke

open Outcome ByteMemory Digits

/-- `PTRDIFF_MAX` -/
abbrev ptrdiffMax : ℕ := 2 ^ 63 - 1

/-- `MAX_SYMBOL_LENGTH` -/
abbrev maxSymbolLength : ℕ := 127

/-! ### The fields of `struct Symbol` -/

/-- `sym->next` -/
def symbolNext (m : ByteMemory) (sym : ℕ) : ℕ := (m.load sym).toNat

/-- `sym->address` -/
def symbolAddress (m : ByteMemory) (sym : ℕ) : Word := m.load (sym + 8)

/-- `sym->type` -/
def symbolType (m : ByteMemory) (sym : ℕ) : BitVec 8 := m (sym + 17)

/-- `sym->length` -/
def symbolLength (m : ByteMemory) (sym : ℕ) : BitVec 8 := m (sym + 18)

/-- `sym->name` -/
def symbolName (sym : ℕ) : ℕ := sym + 19

/-! ### The functions -/

/-- `struct Symbol*` -/
inductive SymbolPtr where
  | head
  | line (sym : ℕ)
  deriving DecidableEq

/-- The state of `symbol_table_init`: the memory, `head.next` and `sym`. -/
structure SymbolState where
  memory : ByteMemory
  headNext : Word
  sym : SymbolPtr

/-- `sym->next = ...` -/
def SymbolState.storeNext (s : SymbolState) (next : Word) : SymbolState :=
  match s.sym with
  | .head => { s with headNext := next }
  | .line sym => { s with memory := s.memory.store sym next }

/-- The digits of the address are added up. -/
def readAddress (m : ByteMemory) (text : ℕ) : Word :=
  (m.bytesAt text 16).foldl (fun addr ch => (addr <<< 4) +
    if BitVec.slt 0x39 ch then 10 + ch.signExtend 64 - 0x61 else ch.signExtend 64 - 0x30) 0

/-- The body of the loop, which returns where the next line starts. -/
def symbolLine (text : ℕ) (s : SymbolState) : ℕ × SymbolState :=
  let addr := readAddress s.memory text
  let name := text + 19
  let len := memchr s.memory 0x0a name ptrdiffMax - name
  let s := { s with memory := s.memory.writeBytes (name + len) [0] }
  let s := s.storeNext (BitVec.ofNat 64 text)
  let m := s.memory.store (text + 8) addr
  let m := m.writeBytes (text + 18) [BitVec.ofNat 8 (min len maxSymbolLength)]
  (name + len + 1, { s with memory := m, sym := .line text })

/-- The loop over the lines; `fuel` bounds their number. -/
def symbolLoop : ℕ → ℕ → SymbolState → Except Panic SymbolState
  | 0, _, _ => .error .outOfFuel
  | fuel + 1, text, s =>
    if s.memory text = 0x0a then .ok s
    else symbolLoop fuel (symbolLine text s).1 (symbolLine text s).2

/-- `symbol_table_init`, which returns the memory and `symbol_list`. -/
def symbolTableInit (fuel symbols : ℕ) (m : ByteMemory) : Except Panic (ByteMemory × ℕ) := do
  let s ← symbolLoop fuel symbols ⟨m, 0, .head⟩
  let s := s.storeNext 0
  .ok (s.memory, s.headNext.toNat)

/-- `isupper` -/
def isUpper (ch : BitVec 8) : Bool := BitVec.sle 0x41 ch && ch.sle 0x5a

/-- The loop of `ksym_n` -/
def ksymLoop (m : ByteMemory) (name : ℕ) (len : ℤ) : ℕ → ℕ → Except Panic ℕ
  | 0, _ => .error .outOfFuel
  | fuel + 1, s =>
    if s = 0 then .ok 0
    else if (symbolLength m s).toInt = len ∧ isUpper (symbolType m s) then do
      let order ← memcmp m (symbolName s) name len.toNat
      if order = 0 then .ok s else ksymLoop m name len fuel (symbolNext m s)
    else ksymLoop m name len fuel (symbolNext m s)

/-- `ksym_n`, which returns the null pointer when there is no such symbol. -/
def ksymN (fuel : ℕ) (m : ByteMemory) (symbolList name : ℕ) (len : ℤ) : Except Panic ℕ :=
  ksymLoop m name (min len maxSymbolLength) fuel symbolList

/-! ### The text -/

/-- A line of the table -/
structure SymbolLine where
  digits : List (BitVec 8)
  type : BitVec 8
  name : List (BitVec 8)
  length_digits : digits.length = 16
  hex : ∀ ch ∈ digits, IsHexDigit ch
  name_ne_nil : name ≠ []
  newline_notMem : 0x0a ∉ name

/-- `<digits> <type> <name>\n` -/
def SymbolLine.text (line : SymbolLine) : List (BitVec 8) :=
  line.digits ++ [0x20, line.type, 0x20] ++ line.name ++ [0x0a]

/-- The lines, and one that holds a newline only -/
def symbolText (lines : List SymbolLine) : List (BitVec 8) :=
  lines.flatMap SymbolLine.text ++ [0x0a]

/-- The symbol of a line -/
structure IsSymbol (m : ByteMemory) (sym : ℕ) (line : SymbolLine) : Prop where
  address : symbolAddress m sym = BitVec.ofNat 64 (hexNumber line.digits)
  type : symbolType m sym = line.type
  length : symbolLength m sym = BitVec.ofNat 8 (min line.name.length 127)
  name : m.bytesAt (symbolName sym) (line.name.length + 1) = line.name ++ [0]

/-- The list is that of the lines, in their order. -/
structure IsSymbolList (m : ByteMemory) (symbolList : ℕ) (syms : List ℕ)
    (lines : List SymbolLine) : Prop where
  chained : Chained (symbolNext m) symbolList syms 0
  nonnull : 0 ∉ syms
  symbols : List.Forall₂ (IsSymbol m) syms lines

/-- The first symbol with an upper-case type and this name, or the null pointer. -/
def firstSymbol (syms : List ℕ) (lines : List SymbolLine) (name : List (BitVec 8)) : ℕ :=
  (((syms.zip lines).find? fun p => isUpper p.2.type ∧ p.2.name = name).map Prod.fst).getD 0

/-! ### A line -/

lemma length_text (line : SymbolLine) : line.text.length = line.name.length + 20 := by
  simp only [SymbolLine.text, List.length_append, line.length_digits, List.length_cons,
    List.length_nil]
  omega

lemma symbolText_cons (line : SymbolLine) (lines : List SymbolLine) :
    symbolText (line :: lines) = line.text ++ symbolText lines := by
  rw [symbolText, List.flatMap_cons, List.append_assoc]
  rfl

lemma readAddress_eq {m : ByteMemory} {text : ℕ} {digits : List (BitVec 8)}
    (h : m.bytesAt text 16 = digits) (hhex : ∀ ch ∈ digits, IsHexDigit ch) :
    readAddress m text = BitVec.ofNat 64 (hexNumber digits) := by
  have hdigit : ∀ ch : BitVec 8, IsHexDigit ch →
      (if BitVec.slt 0x39 ch then 10 + ch.signExtend 64 - 0x61
        else ch.signExtend 64 - 0x30 : Word) = BitVec.ofNat 64 (hexValue ch) := by decide
  have hstep (k : ℕ) (ch : BitVec 8) :
      (BitVec.ofNat 64 k <<< 4) + BitVec.ofNat 64 (hexValue ch) =
        BitVec.ofNat 64 (k * 16 + hexValue ch) := by
    apply BitVec.eq_of_toNat_eq
    simp only [BitVec.toNat_add, BitVec.toNat_shiftLeft, BitVec.toNat_ofNat, Nat.shiftLeft_eq]
    omega
  have hfold : ∀ k : ℕ, digits.foldl (fun (addr : Word) ch => (addr <<< 4) +
      if BitVec.slt 0x39 ch then 10 + ch.signExtend 64 - 0x61 else ch.signExtend 64 - 0x30)
        (BitVec.ofNat 64 k) =
      BitVec.ofNat 64 ((digits.map hexValue).foldl (fun n d => n * 16 + d) k) := by
    clear h
    induction digits with
    | nil =>
      intro k
      rfl
    | cons ch digits ih =>
      intro k
      obtain ⟨hch, hdigits⟩ := List.forall_mem_cons.mp hhex
      rw [List.foldl_cons, hdigit ch hch, hstep, ih hdigits, List.map_cons, List.foldl_cons]
  rw [readAddress, h]
  exact hfold 0

/-- The link of `sym`, as it is in a memory -/
def SymbolPtr.next (m : ByteMemory) (headNext : Word) : SymbolPtr → ℕ
  | .head => headNext.toNat
  | .line sym => symbolNext m sym

/-- The symbol is in front of the place. -/
def SymbolPtr.Before (text : ℕ) : SymbolPtr → Prop
  | .head => True
  | .line sym => sym + 8 ≤ text

/-- The link of `sym` is not there. -/
def SymbolPtr.Apart (x : ℕ) : SymbolPtr → Prop
  | .head => True
  | .line sym => x < sym ∨ sym + 8 ≤ x

variable {s : SymbolState}

lemma storeNext_of_apart {x : ℕ} (h : s.sym.Apart x) (next : Word) :
    (s.storeNext next).memory x = s.memory x := by
  unfold SymbolState.storeNext
  cases hsym : s.sym with
  | head => rfl
  | line sym =>
    rw [hsym] at h
    exact store_of_out h

lemma storeNext_next (s : SymbolState) (next : Word) :
    s.sym.next (s.storeNext next).memory (s.storeNext next).headNext = next.toNat := by
  unfold SymbolState.storeNext
  cases hsym : s.sym with
  | head => rfl
  | line sym =>
    show (load (store _ _ _) _).toNat = _
    rw [load_store]

lemma apart_of_before {text x : ℕ} (h : s.sym.Before text) (hx : text ≤ x) : s.sym.Apart x := by
  cases hsym : s.sym with
  | head => trivial
  | line sym =>
    rw [hsym] at h
    exact Or.inr (Nat.le_trans h hx)

/-- The link of an earlier symbol does not depend on what follows. -/
lemma next_congr {sym : SymbolPtr} {m m' : ByteMemory} {headNext : Word} {text : ℕ}
    (h : sym.Before text) (hsame : ∀ x < text, m x = m' x) :
    sym.next m headNext = sym.next m' headNext := by
  cases sym with
  | head => rfl
  | line sym =>
    have hload : m.load sym = m'.load sym :=
      load_congr fun x _ hx => hsame x (Nat.lt_of_lt_of_le hx h)
    exact congrArg BitVec.toNat hload

/-- The body of the loop: the line becomes a symbol behind the one before, and nothing else is
written to. -/
structure LineDone (s : SymbolState) (text : ℕ) (line : SymbolLine) (s' : SymbolState) : Prop where
  symbol : IsSymbol s'.memory text line
  sym : s'.sym = .line text
  link : s.sym.next s'.memory s'.headNext = text
  head : s.sym ≠ .head → s'.headNext = s.headNext
  frame : ∀ x, s.sym.Apart x → (x < text ∨ text + line.text.length ≤ x) →
    s'.memory x = s.memory x

lemma symbolLine_spec {text : ℕ} {line : SymbolLine} (hbefore : s.sym.Before text)
    (hbytes : s.memory.bytesAt text line.text.length = line.text)
    (hfits : text + line.text.length ≤ 2 ^ 64) (hlt : line.text.length < 2 ^ 63) :
    (symbolLine text s).1 = text + line.text.length ∧
      LineDone s text line (symbolLine text s).2 := by
  have hlength := length_text line
  have hparts : s.memory.bytesAt text line.text.length =
      line.digits ++ ([0x20, line.type, 0x20] ++ (line.name ++ [0x0a])) := by
    rw [hbytes, SymbolLine.text]
    simp only [List.append_assoc]
  obtain ⟨hdigits, hrest⟩ := bytesAt_split hparts
  obtain ⟨hmiddle, hrest⟩ := bytesAt_split hrest
  rw [line.length_digits] at hdigits hmiddle hrest
  rw [List.length_append] at hrest
  have htype : s.memory (text + 17) = line.type := (List.cons.inj (List.cons.inj hmiddle).2).1
  have hname : s.memory.bytesAt (text + 19) (line.name.length + 1) = line.name ++ [0x0a] := hrest
  have hlen : memchr s.memory 0x0a (text + 19) ptrdiffMax - (text + 19) = line.name.length := by
    have hmax : line.name.length < 2 ^ 63 - 1 := by omega
    rw [memchr_eq hname line.newline_notMem hmax, Nat.add_sub_cancel_left]
  have haddr := readAddress_eq hdigits line.hex
  -- the stores, in their order
  set m₁ := s.memory.writeBytes (text + 19 + line.name.length) [0] with hm₁
  set s₂ := SymbolState.storeNext { s with memory := m₁ } (BitVec.ofNat 64 text) with hs₂
  set m₃ := s₂.memory.store (text + 8) (BitVec.ofNat 64 (hexNumber line.digits)) with hm₃
  set m₄ := m₃.writeBytes (text + 18) [BitVec.ofNat 8 (min line.name.length 127)] with hm₄
  have hrun : symbolLine text s = (text + 19 + line.name.length + 1,
      { s₂ with memory := m₄, sym := .line text }) := by
    rw [symbolLine, haddr, hlen]
  have h₁ : ∀ x, x ≠ text + 19 + line.name.length → m₁ x = s.memory x := fun x hx =>
    writeBytes_of_out (by rw [List.length_singleton]; omega)
  have h₂ : ∀ x, s.sym.Apart x → s₂.memory x = m₁ x := fun x hx =>
    storeNext_of_apart (s := { s with memory := m₁ }) hx _
  have h₃ : ∀ x, (x < text + 8 ∨ text + 16 ≤ x) → m₃ x = s₂.memory x := fun x hx =>
    store_of_out hx
  have h₄ : ∀ x, x ≠ text + 18 → m₄ x = m₃ x := fun x hx =>
    writeBytes_of_out (by rw [List.length_singleton]; omega)
  have hapart : ∀ x, text ≤ x → s.sym.Apart x := fun x hx => apart_of_before hbefore hx
  rw [hrun]
  refine ⟨by omega, ⟨?_, rfl, ?_, ?_, ?_⟩⟩
  · -- the symbol
    constructor
    · show m₄.load (text + 8) = _
      rw [load_congr fun x _ hx => h₄ x (by omega), hm₃, load_store]
    · show m₄ (text + 17) = _
      rw [h₄ _ (by omega), h₃ _ (by omega), h₂ _ (hapart _ (by omega)), h₁ _ (by omega), htype]
    · exact writeBytes_at m₃ (text + 18) (i := 0) (l := [_]) Nat.one_pos
    · have hkept : ∀ x, text + 19 ≤ x → m₄ x = m₁ x := fun x hx => by
        rw [h₄ _ (by omega), h₃ _ (by omega), h₂ _ (hapart _ (by omega))]
      have hchars : m₁.bytesAt (text + 19) line.name.length = line.name := by
        rw [bytesAt_congr fun x _ hx => h₁ x (by omega)]
        exact (bytesAt_split hname).1
      have hend : m₁.bytesAt (text + 19 + line.name.length) 1 = [0] :=
        bytesAt_writeBytes s.memory (text + 19 + line.name.length) [0]
      show m₄.bytesAt (text + 19) _ = _
      rw [bytesAt_congr fun x hx _ => hkept x hx, bytesAt_add, hchars, hend]
  · -- the link of the symbol before
    have hlink := storeNext_next { s with memory := m₁ } (BitVec.ofNat 64 text)
    rw [BitVec.toNat_ofNat, Nat.mod_eq_of_lt (by omega)] at hlink
    refine Eq.trans ?_ hlink
    exact next_congr hbefore fun x hx => (h₄ x (by omega)).trans (h₃ x (by omega))
  · intro hne
    show s₂.headNext = s.headNext
    rw [hs₂, SymbolState.storeNext]
    cases hsym : s.sym with
    | head => exact absurd hsym hne
    | line sym => rfl
  · intro x hx hout
    show m₄ x = s.memory x
    rw [h₄ _ (by omega), h₃ _ (by omega), h₂ _ hx, h₁ _ (by omega)]

/-! ### All lines -/

/-- The lines have become symbols, the first one behind the symbol before them, and nothing else is
written to. -/
structure LinesDone (s : SymbolState) (text : ℕ) (lines : List SymbolLine) (syms : List ℕ)
    (s' : SymbolState) : Prop where
  symbols : List.Forall₂ (IsSymbol s'.memory) syms lines
  chained : Chained (symbolNext s'.memory) (s.sym.next s'.memory s'.headNext) syms 0
  le : ∀ sym ∈ syms, text ≤ sym
  head : s.sym ≠ .head → s'.headNext = s.headNext
  frame : ∀ x, s.sym.Apart x → (x < text ∨ text + (symbolText lines).length ≤ x) →
    s'.memory x = s.memory x

/-- Only the line and its end matter, without the link. -/
lemma IsSymbol.congr {m m' : ByteMemory} {sym : ℕ} {line : SymbolLine} (h : IsSymbol m sym line)
    (hsame : ∀ x, sym + 8 ≤ x → x < sym + line.text.length → m' x = m x) :
    IsSymbol m' sym line := by
  have hlength := length_text line
  constructor
  · rw [← h.address]
    exact load_congr fun x hx hx' => hsame x hx (by omega)
  · rw [← h.type]
    exact hsame _ (by omega) (by omega)
  · rw [← h.length]
    exact hsame _ (by omega) (by omega)
  · rw [← h.name]
    refine bytesAt_congr fun x hx hx' => hsame x ?_ ?_
    · rw [symbolName] at hx
      omega
    · rw [symbolName] at hx'
      omega

/-- A line does not start with a newline. -/
lemma head_ne_newline {m : ByteMemory} {text : ℕ} {line : SymbolLine} {rest : List (BitVec 8)}
    {n : ℕ} (h : m.bytesAt text n = line.text ++ rest) : m text ≠ 0x0a := by
  have hlength := line.length_digits
  cases hdigits : line.digits with
  | nil =>
    rw [hdigits] at hlength
    exact absurd hlength (by decide)
  | cons ch digits =>
    have hhex : IsHexDigit ch := line.hex ch (hdigits ▸ List.mem_cons_self)
    have hbytes := (bytesAt_split h).1
    rw [SymbolLine.text, hdigits, List.cons_append, List.cons_append, List.cons_append,
      List.length_cons, bytesAt_succ, List.cons.injEq] at hbytes
    rw [hbytes.1]
    rintro rfl
    exact absurd hhex (by decide)

/-- The loop handles the lines one by one. -/
lemma symbolLoop_spec {lines : List SymbolLine} :
    ∀ {fuel text : ℕ} {s : SymbolState}, lines.length < fuel → s.sym.Before text →
      s.memory.bytesAt text (symbolText lines).length = symbolText lines →
      text + (symbolText lines).length ≤ 2 ^ 64 → (symbolText lines).length < 2 ^ 63 →
      ∃ s' syms, symbolLoop fuel text s = .ok s' ∧
        LinesDone s text lines syms (s'.storeNext 0) := by
  induction lines with
  | nil =>
    intro fuel text s hfuel hbefore hbytes _ _
    obtain ⟨fuel, rfl⟩ := Nat.exists_eq_succ_of_ne_zero (Nat.ne_zero_of_lt hfuel)
    have hnewline : s.memory text = 0x0a := (List.cons.inj hbytes).1
    refine ⟨s, [], by rw [symbolLoop, if_pos hnewline], .nil, storeNext_next s 0, by simp, ?_, ?_⟩
    · intro hne
      rw [SymbolState.storeNext]
      cases hsym : s.sym with
      | head => exact absurd hsym hne
      | line sym => rfl
    · intro x hx _
      exact storeNext_of_apart hx 0
  | cons line lines ih =>
    intro fuel text s hfuel hbefore hbytes hfits hlt
    obtain ⟨fuel, rfl⟩ := Nat.exists_eq_succ_of_ne_zero (Nat.ne_zero_of_lt hfuel)
    have hlength := length_text line
    rw [symbolText_cons] at hbytes hfits hlt
    rw [List.length_append] at hfits hlt
    obtain ⟨hline, hrest⟩ := bytesAt_split hbytes
    obtain ⟨hnext, hdone⟩ := symbolLine_spec hbefore hline (by omega) (by omega)
    set s₁ := (symbolLine text s).2
    have hbefore₁ : s₁.sym.Before (text + line.text.length) := by
      rw [hdone.sym]
      show text + 8 ≤ text + line.text.length
      omega
    have hrest₁ : s₁.memory.bytesAt (text + line.text.length) (symbolText lines).length =
        symbolText lines := by
      conv_rhs => rw [← hrest]
      refine bytesAt_congr fun x hx _ => hdone.frame x ?_ (Or.inr hx)
      exact apart_of_before hbefore (by omega)
    obtain ⟨s', syms, hrun, hlines⟩ :=
      @ih fuel (text + line.text.length) s₁ (Nat.lt_of_succ_lt_succ hfuel) hbefore₁ hrest₁
        (by omega) (by omega)
    have hsym : s₁.sym = .line text := hdone.sym
    have hkept : ∀ x, (x < text ∨ text + 8 ≤ x) → (x < text + line.text.length ∨
        text + line.text.length + (symbolText lines).length ≤ x) →
        (s'.storeNext 0).memory x = s₁.memory x := by
      intro x hx hout
      refine hlines.frame x ?_ hout
      rw [hsym]
      exact hx
    have hhead : (s'.storeNext 0).headNext = s₁.headNext :=
      hlines.head (by rw [hsym]; exact SymbolPtr.noConfusion)
    refine ⟨s', text :: syms, ?_, ?_, ?_, ?_, ?_, ?_⟩
    · rw [symbolLoop, if_neg (head_ne_newline hbytes), hnext]
      exact hrun
    · refine .cons ?_ hlines.symbols
      exact hdone.symbol.congr fun x hx hx' => hkept x (Or.inr hx) (Or.inl hx')
    · refine ⟨?_, ?_⟩
      · rw [hhead, ← hdone.link]
        exact next_congr hbefore fun x hx => hkept x (Or.inl hx) (Or.inl (by omega))
      · have hchained := hlines.chained
        rw [hsym] at hchained
        exact hchained
    · intro sym hmem
      rcases List.mem_cons.mp hmem with rfl | hmem
      · exact le_refl _
      · exact Nat.le_trans (Nat.le_add_right ..) (hlines.le sym hmem)
    · intro hne
      rw [hhead, hdone.head hne]
    · intro x hx hout
      rw [symbolText_cons, List.length_append] at hout
      rw [hkept x (by omega) (by omega), hdone.frame x hx (by omega)]

/-! ### Looking up a name -/

lemma firstSymbol_cons (sym : ℕ) (syms : List ℕ) (line : SymbolLine) (lines : List SymbolLine)
    (name : List (BitVec 8)) :
    firstSymbol (sym :: syms) (line :: lines) name =
      if isUpper line.type ∧ line.name = name then sym else firstSymbol syms lines name := by
  rw [firstSymbol, List.zip_cons_cons, List.find?_cons]
  split_ifs with h
  · rw [decide_eq_true h]
    rfl
  · rw [decide_eq_false h]
    rfl

/-- A symbol has the length of a short name only when its own name is as long. -/
lemma IsSymbol.length_eq_iff {m : ByteMemory} {sym : ℕ} {line : SymbolLine}
    (h : IsSymbol m sym line) {n : ℕ} (hn : n < 127) :
    (symbolLength m sym).toInt = n ↔ line.name.length = n := by
  rw [h.length, BitVec.toInt_eq_toNat_cond, BitVec.toNat_ofNat]
  omega

/-- The loop finds the first symbol of the name. -/
lemma ksymLoop_spec {m : ByteMemory} {name : ℕ} {query : List (BitVec 8)}
    (hquery : m.bytesAt name query.length = query) (hshort : query.length < 127)
    {syms : List ℕ} {lines : List SymbolLine} (h : List.Forall₂ (IsSymbol m) syms lines) :
    ∀ {fuel p : ℕ}, lines.length < fuel → Chained (symbolNext m) p syms 0 → 0 ∉ syms →
      ksymLoop m name query.length fuel p = .ok (firstSymbol syms lines query) := by
  induction h with
  | nil =>
    intro fuel p hfuel hchained _
    obtain ⟨fuel, rfl⟩ := Nat.exists_eq_succ_of_ne_zero (Nat.ne_zero_of_lt hfuel)
    have hp : p = 0 := hchained
    rw [ksymLoop, if_pos hp]
    rfl
  | @cons sym line syms lines hsymbol _ ih =>
    intro fuel p hfuel hchained hzero
    obtain ⟨fuel, rfl⟩ := Nat.exists_eq_succ_of_ne_zero (Nat.ne_zero_of_lt hfuel)
    obtain ⟨rfl, hchained⟩ := hchained
    have hne : p ≠ 0 := (List.ne_of_not_mem_cons hzero).symm
    have hnext : ksymLoop m name query.length fuel (symbolNext m p) =
        .ok (firstSymbol syms lines query) :=
      ih (Nat.lt_of_succ_lt_succ hfuel) hchained (List.not_mem_of_not_mem_cons hzero)
    have hcandidate : (symbolLength m p).toInt = query.length ∧ isUpper (symbolType m p) ↔
        line.name.length = query.length ∧ isUpper line.type := by
      rw [hsymbol.length_eq_iff hshort, hsymbol.type]
    rw [ksymLoop, if_neg hne, firstSymbol_cons, if_congr hcandidate rfl rfl, hnext]
    split_ifs with hcond hmatch hmatch
    · obtain ⟨r, hr, hiff⟩ := @memcmp_eq m query.length (symbolName p) name
        (hcond.1 ▸ List.length_pos_iff.mpr line.name_ne_nil)
      rw [Int.toNat_natCast, hr, ok_bind, if_pos]
      rw [hiff, hquery, ← hcond.1, (bytesAt_split hsymbol.name).1]
      exact hmatch.2
    · obtain ⟨r, hr, hiff⟩ := @memcmp_eq m query.length (symbolName p) name
        (hcond.1 ▸ List.length_pos_iff.mpr line.name_ne_nil)
      rw [Int.toNat_natCast, hr, ok_bind, if_neg]
      rw [hiff, hquery, ← hcond.1, (bytesAt_split hsymbol.name).1]
      exact fun heq => hmatch ⟨hcond.2, heq⟩
    · exact absurd ⟨congrArg List.length hmatch.2, hmatch.1⟩ hcond
    · rfl

/-- The text of the table lies at `symbols`. -/
structure HasSymbolText (m : ByteMemory) (symbols : ℕ) (lines : List SymbolLine) : Prop where
  bytes : m.bytesAt symbols (symbolText lines).length = symbolText lines
  nonnull : 0 < symbols
  fits : symbols + (symbolText lines).length ≤ 2 ^ 64
  length_le : (symbolText lines).length ≤ ptrdiffMax

/-- The text becomes the list of its lines, in which names are found. -/
theorem symbolTableInit_lists {m : ByteMemory} {symbols : ℕ} {lines : List SymbolLine}
    (h : HasSymbolText m symbols lines) {fuel : ℕ} (hfuel : lines.length < fuel) :
    ∃ m' symbolList syms, symbolTableInit fuel symbols m = .ok (m', symbolList) ∧
      IsSymbolList m' symbolList syms lines ∧
      ∀ (name : ℕ) (query : List (BitVec 8)), query.length < 127 →
        m'.bytesAt name query.length = query →
        ksymN fuel m' symbolList name query.length = .ok (firstSymbol syms lines query) := by
  obtain ⟨hbytes, hpos, hfits, hlength⟩ := h
  obtain ⟨s', syms, hrun, hlines⟩ :=
    @symbolLoop_spec lines fuel symbols ⟨m, 0, .head⟩ hfuel trivial hbytes hfits
      (Nat.lt_of_le_of_lt hlength (by decide))
  have hlist : IsSymbolList (s'.storeNext 0).memory (s'.storeNext 0).headNext.toNat syms lines := by
    refine ⟨hlines.chained, fun hmem => ?_, hlines.symbols⟩
    have hle := hlines.le 0 hmem
    omega
  refine ⟨_, _, syms, ?_, hlist, fun name query hshort hquery => ?_⟩
  · rw [symbolTableInit, hrun]
    rfl
  · rw [ksymN, min_eq_left (by rw [maxSymbolLength]; omega)]
    exact ksymLoop_spec hquery hshort hlist.symbols hfuel hlist.chained hlist.nonnull

/-- The line of `kmain` -/
def kmainLine : SymbolLine where
  digits := List.replicate 8 0x66 ++ List.replicate 8 0x30
  type := 0x54
  name := [0x6b, 0x6d, 0x61, 0x69, 0x6e]
  length_digits := rfl
  hex := by decide
  name_ne_nil := List.cons_ne_nil _ _
  newline_notMem := by decide

/-- The line of the local variable `idle` -/
def localIdleLine : SymbolLine where
  digits := List.replicate 8 0x66 ++ List.replicate 8 0x31
  type := 0x64
  name := [0x69, 0x64, 0x6c, 0x65]
  length_digits := rfl
  hex := by decide
  name_ne_nil := List.cons_ne_nil _ _
  newline_notMem := by decide

/-- The line of the function `idle` -/
def idleLine : SymbolLine where
  digits := List.replicate 8 0x66 ++ List.replicate 8 0x32
  type := 0x54
  name := [0x69, 0x64, 0x6c, 0x65]
  length_digits := rfl
  hex := by decide
  name_ne_nil := List.cons_ne_nil _ _
  newline_notMem := by decide

/-- In a table where `idle` is the name of a local symbol and of two global ones, the first of the
two is found. -/
theorem symbolTableInit_lists_idle :
    ∃ m' symbolList a b c d,
      symbolTableInit 5 0x1000 (writeBytes (fun _ => 0) 0x1000
        (symbolText [localIdleLine, kmainLine, idleLine, idleLine])) = .ok (m', symbolList) ∧
      IsSymbolList m' symbolList [a, b, c, d] [localIdleLine, kmainLine, idleLine, idleLine] ∧
      ∀ name : ℕ, m'.bytesAt name 4 = [0x69, 0x64, 0x6c, 0x65] →
        ksymN 5 m' symbolList name 4 = .ok c := by
  obtain ⟨m', symbolList, syms, hinit, hlist, hksym⟩ := @symbolTableInit_lists
    (writeBytes (fun _ => 0) 0x1000 (symbolText [localIdleLine, kmainLine, idleLine, idleLine]))
    0x1000 _ ⟨bytesAt_writeBytes .., by decide, by decide, by decide⟩ 5 (by decide)
  obtain ⟨a, syms₁, -, h₁, rfl⟩ := List.forall₂_cons_right_iff.mp hlist.symbols
  obtain ⟨b, syms₂, -, h₂, rfl⟩ := List.forall₂_cons_right_iff.mp h₁
  obtain ⟨c, syms₃, -, h₃, rfl⟩ := List.forall₂_cons_right_iff.mp h₂
  obtain ⟨d, syms₄, -, h₄, rfl⟩ := List.forall₂_cons_right_iff.mp h₃
  obtain rfl := List.forall₂_nil_right_iff.mp h₄
  refine ⟨m', symbolList, a, b, c, d, hinit, hlist, fun name hname => ?_⟩
  exact hksym name [0x69, 0x64, 0x6c, 0x65] (by decide) hname

end Fluke
