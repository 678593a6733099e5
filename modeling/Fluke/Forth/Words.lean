import Fluke.Forth.Parse
import Fluke.Mem.Strings

/-!
# Words that build the dictionary

The words that the definitions of other words are made of. A header is laid out by
`forth_make_header`, which is written in C; its code field is found by `forth_header_to_xt` there,
and by `nt>xt` in the language itself. A word that is defined by other words runs them one after the
other.
-/

namespace Fluke

open Outcome ByteMemory

/-- The words of a colon definition, one after the other. -/
def thread : List ForthWord → ForthWord
  | [], s => .ok s
  | word :: words, s => word s >>= thread words

/-! ### Primitives -/

/-- `(lit)` with the cell behind it -/
def lit (x : Word) : ForthWord := fun s => .ok (s.push x)

/-- `dup` -/
def dup : ForthWord := fun s => do
  let (x, s) ← s.pop
  .ok ((s.push x).push x)

/-- `swap` -/
def swap : ForthWord := fun s => do
  let (x, s) ← s.pop
  let (y, s) ← s.pop
  .ok ((s.push x).push y)

/-- `+` -/
def plus : ForthWord := fun s => do
  let (x, s) ← s.pop
  let (y, s) ← s.pop
  .ok (s.push (x + y))

/-- `1+` -/
def onePlus : ForthWord := fun s => do
  let (x, s) ← s.pop
  .ok (s.push (x + 1))

/-- `aligned` -/
def aligned : ForthWord := fun s => do
  let (x, s) ← s.pop
  .ok (s.push ((x + 7) &&& -8#64))

/-- `c@` -/
def cFetch : ForthWord := fun s => do
  let (x, s) ← s.pop
  .ok (s.push ((s.memory x.toNat).setWidth 64))

/-- `c!` -/
def cStore : ForthWord := fun s => do
  let (address, s) ← s.pop
  let (x, s) ← s.pop
  .ok { s with memory := s.memory.writeBytes address.toNat [x.setWidth 8] }

/-- `,` -/
def comma : ForthWord := fun s => do
  let (x, s) ← s.pop
  .ok { s with
    memory := s.memory.store s.ctx.here.toNat x
    ctx := { s.ctx with here := s.ctx.here + 8 } }

/-- `dictionary @`; the words `dictionary` and `state` lead to fields of the context. -/
def dictionaryFetch : ForthWord := fun s => .ok (s.push s.ctx.dictionary)

/-- `dictionary !` -/
def dictionaryStore : ForthWord := fun s => do
  let (x, s) ← s.pop
  .ok { s with ctx := { s.ctx with dictionary := x } }

/-- `state !` -/
def stateStore : ForthWord := fun s => do
  let (x, s) ← s.pop
  .ok { s with ctx := { s.ctx with state := x } }

/-! ### Headers -/

/-- `forth_header_to_xt` -/
def forthHeaderToXt (m : ByteMemory) (h : Word) : Word :=
  h + ((10 + (m (h.toNat + 9)).setWidth 64 + 8) &&& ~~~7#64)

/-- `CLAMP(len, 0, 126)` -/
def clampName (len : Word) : ℕ := (max 0 (min len.toInt 126)).toNat

/-- `lookup_word`; `fuel` bounds the number of headers. -/
def lookupWord (m : ByteMemory) (name len : ℕ) : ℕ → ℕ → Except Panic ℕ
  | 0, _ => .error .outOfFuel
  | fuel + 1, e =>
    if e = 0 then .ok 0
    else if (m (e + 9)).toNat = len then do
      let order ← memcmp m (e + 10) name len
      if order = 0 then .ok e else lookupWord m name len fuel (m.load e).toNat
    else lookupWord m name len fuel (m.load e).toNat

/-- `forth_find_name` -/
def forthFindName (fuel : ℕ) : ForthWord := fun s => do
  let (len, s) ← s.pop
  let (name, s) ← s.pop
  let word ← lookupWord s.memory name.toNat (clampName len) fuel s.ctx.dictionary.toNat
  .ok (s.push (BitVec.ofNat 64 word))

/-- `forth_make_header` -/
def forthMakeHeader : ForthWord := fun s => do
  let (len, s) ← s.pop
  let (name, s) ← s.pop
  let len := clampName len
  let header := s.ctx.here.toNat
  let m := s.memory.store header s.ctx.dictionary
  let m := m.writeBytes (header + 8) [0]
  let m := m.writeBytes (header + 9) [BitVec.ofNat 8 len]
  let m := memcpy m (header + 10) name.toNat len
  let m := m.writeBytes (header + 10 + len) [0]
  let here := forthHeaderToXt m s.ctx.here
  .ok ({ s with memory := m, ctx := { s.ctx with here := here } }.push s.ctx.here)

/-! ### Words of the language -/

/-- `nt>name` -/
def ntToName : ForthWord := thread [dup, lit 10, plus, swap, lit 9, plus, cFetch]

/-- `nt>xt` -/
def ntToXt : ForthWord := thread [lit 9, plus, dup, cFetch, onePlus, plus, onePlus, aligned]

/-- `[` -/
def leftBracket : ForthWord := thread [lit 0, stateStore]

/-- `]` -/
def rightBracket : ForthWord := thread [lit 1, stateStore]

/-- `:`, where `docolon` is the address of `code_docolon` -/
def colon (docolon : Word) : ForthWord :=
  thread [forthParseName, forthMakeHeader, lit docolon, comma, rightBracket]

/-- `;`, where `exit` is the code field of `exit` -/
def semicolon (exit : Word) : ForthWord := thread [dictionaryStore, lit exit, comma, leftBracket]

/-- `immediate`: `true latest nt>flags c!` -/
def immediate : ForthWord := thread [lit 1, dictionaryFetch, lit 8, plus, cStore]

/-! ### The code field -/

@[simp] lemma thread_nil (s : ForthState) : thread [] s = .ok s := rfl

@[simp] lemma thread_cons (word : ForthWord) (words : List ForthWord) (s : ForthState) :
    thread (word :: words) s = word s >>= thread words := rfl

/-- The low bits are cleared. -/
lemma toNat_and_not_seven (x : Word) : (x &&& ~~~7#64).toNat = x.toNat - x.toNat % 8 := by
  have hmask : ∀ i : Fin 64, (~~~7#64).getLsbD i = decide (3 ≤ i.val) := by decide
  have hshift : x &&& ~~~7#64 = (x >>> 3) <<< 3 := by
    apply BitVec.eq_of_getLsbD_eq
    intro i hi
    rw [BitVec.getLsbD_and, hmask ⟨i, hi⟩, BitVec.getLsbD_shiftLeft, BitVec.getLsbD_ushiftRight]
    by_cases hlow : i < 3
    · simp [hlow]
    · have hindex : 3 + (i - 3) = i := by omega
      simp [hlow, hi, hindex, Nat.not_lt.mp hlow]
  have hlt := x.isLt
  rw [hshift, BitVec.toNat_shiftLeft, BitVec.toNat_ushiftRight, Nat.shiftLeft_eq,
    Nat.shiftRight_eq_div_pow]
  omega

lemma forthHeaderToXt_toNat (m : ByteMemory) (h : Word) :
    (forthHeaderToXt m h).toNat =
      (h.toNat + (18 + (m (h.toNat + 9)).toNat) / 8 * 8) % 2 ^ 64 := by
  have hlt := (m (h.toNat + 9)).isLt
  have h8 : (8 : Word).toNat = 8 := rfl
  have h10 : (10 : Word).toNat = 10 := rfl
  rw [forthHeaderToXt, BitVec.toNat_add, toNat_and_not_seven, BitVec.toNat_add, BitVec.toNat_add,
    BitVec.toNat_setWidth, h8, h10]
  omega

/-- Both formulas round the length of the header up. -/
lemma ntToXt_spec (s : ForthState) {h : Word} (halign : h.toNat % 8 = 0)
    (hfits : h.toNat + 9 < 2 ^ 64) :
    ntToXt (s.push h) = .ok (s.push (forthHeaderToXt s.memory h)) := by
  have h1 : (1 : Word).toNat = 1 := rfl
  have h7 : (7 : Word).toNat = 7 := rfl
  have h9 : (9 : Word).toNat = 9 := rfl
  have hcount : (9 + h).toNat = h.toNat + 9 := by
    rw [BitVec.toNat_add, h9]
    omega
  set len := s.memory (h.toNat + 9) with hlen
  have hxt : (len.setWidth 64 + 1 + (9 + h) + 1 + 7) &&& -8#64 = forthHeaderToXt s.memory h := by
    have hlt := len.isLt
    have hmask : -8#64 = ~~~7#64 := by decide
    apply BitVec.eq_of_toNat_eq
    rw [forthHeaderToXt_toNat, hmask, toNat_and_not_seven, BitVec.toNat_add, BitVec.toNat_add,
      BitVec.toNat_add, hcount, BitVec.toNat_add, BitVec.toNat_setWidth, h1, h7, ← hlen]
    omega
  rw [← hxt, hlen, ← hcount]
  rfl

/-- The name stands behind the fixed part of the header. -/
lemma ntToName_spec (s : ForthState) {h : Word} (hfits : h.toNat + 9 < 2 ^ 64) :
    ntToName (s.push h) =
      .ok ((s.push (10 + h)).push ((s.memory (h.toNat + 9)).setWidth 64)) := by
  have h9 : (9 : Word).toNat = 9 := rfl
  have hcount : (9 + h).toNat = h.toNat + 9 := by
    rw [BitVec.toNat_add, h9]
    omega
  rw [← hcount]
  rfl

lemma clampName_eq {n : ℕ} (h : n < 2 ^ 63) : clampName (BitVec.ofNat 64 n) = min n 126 := by
  rw [clampName, BitVec.toInt_eq_toNat_cond, BitVec.toNat_ofNat]
  omega

/-- What `forth_make_header` writes, when the name lies apart from it. -/
lemma forthMakeHeader_eq (s : ForthState) {name : Word} {n len : ℕ} (hn : n < 2 ^ 63)
    (hlen : len = min n 126)
    (hapart : name.toNat + len ≤ s.ctx.here.toNat ∨ s.ctx.here.toNat + 11 + len ≤ name.toNat) :
    ∃ m, forthMakeHeader ((s.push name).push (BitVec.ofNat 64 n)) =
        .ok ({ s with memory := m, ctx := { s.ctx with here := forthHeaderToXt m s.ctx.here } }.push
          s.ctx.here) ∧
      m.load s.ctx.here.toNat = s.ctx.dictionary ∧
      m (s.ctx.here.toNat + 9) = BitVec.ofNat 8 len ∧
      m.bytesAt (s.ctx.here.toNat + 10) (len + 1) = s.memory.bytesAt name.toNat len ++ [0] ∧
      ∀ x, (x < s.ctx.here.toNat ∨ s.ctx.here.toNat + 11 + len ≤ x) → m x = s.memory x := by
  set header := s.ctx.here.toNat
  -- the stores, in their order
  set m₁ := s.memory.store header s.ctx.dictionary with hm₁
  set m₂ := m₁.writeBytes (header + 8) [0]
  set m₃ := m₂.writeBytes (header + 9) [BitVec.ofNat 8 len]
  set m₄ := m₃.writeBytes (header + 10) (m₃.bytesAt name.toNat len) with hm₄
  set m₅ := m₄.writeBytes (header + 10 + len) [0]
  have hcopy : memcpy m₃ (header + 10) name.toNat len = m₄ := memcpy_eq (by omega)
  have h₁ : ∀ x, (x < header ∨ header + 8 ≤ x) → m₁ x = s.memory x := fun x hx => store_of_out hx
  have h₂ : ∀ x, x ≠ header + 8 → m₂ x = m₁ x := fun x hx =>
    writeBytes_of_out (by rw [List.length_singleton]; omega)
  have h₃ : ∀ x, x ≠ header + 9 → m₃ x = m₂ x := fun x hx =>
    writeBytes_of_out (by rw [List.length_singleton]; omega)
  have h₄ : ∀ x, (x < header + 10 ∨ header + 10 + len ≤ x) → m₄ x = m₃ x := fun x hx =>
    writeBytes_of_out (by rw [length_bytesAt]; omega)
  have h₅ : ∀ x, x ≠ header + 10 + len → m₅ x = m₄ x := fun x hx =>
    writeBytes_of_out (by rw [List.length_singleton]; omega)
  have hname : m₃.bytesAt name.toNat len = s.memory.bytesAt name.toNat len := by
    refine bytesAt_congr fun x hx hx' => ?_
    rw [h₃ x (by omega), h₂ x (by omega), h₁ x (by omega)]
  refine ⟨m₅, ?_, ?_, ?_, ?_, ?_⟩
  · show forthMakeHeader _ = _
    rw [forthMakeHeader, ForthState.pop_push, ok_bind]
    dsimp only
    rw [ForthState.pop_push, ok_bind]
    dsimp only
    rw [clampName_eq hn, ← hlen]
    rw [show memcpy _ _ _ _ = m₄ from hcopy]
  · have hload : m₅.load header = m₁.load header := load_congr fun x hx hx' => by
      rw [h₅ x (by omega), h₄ x (by omega), h₃ x (by omega), h₂ x (by omega)]
    rw [hload, hm₁, load_store]
  · rw [h₅ _ (by omega), h₄ _ (by omega)]
    exact writeBytes_at m₂ (header + 9) (i := 0) (l := [_]) Nat.one_pos
  · have hchars : m₅.bytesAt (header + 10) len = s.memory.bytesAt name.toNat len := by
      have hcopied := bytesAt_writeBytes m₃ (header + 10) (m₃.bytesAt name.toNat len)
      rw [length_bytesAt, ← hm₄, hname] at hcopied
      rw [bytesAt_congr fun x _ hx => h₅ x (by omega), hcopied]
    have hend : m₅.bytesAt (header + 10 + len) 1 = [0] :=
      bytesAt_writeBytes m₄ (header + 10 + len) [0]
    rw [bytesAt_add, hchars, hend]
  · intro x hx
    rw [h₅ x (by omega), h₄ x (by omega), h₃ x (by omega), h₂ x (by omega), h₁ x (by omega)]

end Fluke
