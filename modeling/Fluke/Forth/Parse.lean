import Fluke.Forth.Context
import Fluke.Library.Outcome

/-!
# Parsing the input buffer

`forth_parse_name` and `forth_parse_char` take a token from what remains of the input buffer and
move the position in it behind the token. Names are parted by blanks, which are all characters up to
the space, read as signed numbers. One character that ends a token is passed over.
-/

namespace Fluke

open Outcome ByteMemory

/-- The loops of the parsers: a pointer moves on as long as something remains and its character is
passed over. -/
def advance (passes : BitVec 8 → Bool) (m : ByteMemory) : ℕ → ℕ → ℕ × ℕ
  | 0, p => (0, p)
  | remainder + 1, p =>
    if passes (m p) then advance passes m remainder (p + 1) else (remainder + 1, p)

/-- `ch <= ' '`, where `char` is signed -/
def isBlank (ch : BitVec 8) : Bool := ch.sle 0x20

/-- `ctx->ntib - ctx->to_in`, as far as the loops go on -/
def ForthContext.remainder (ctx : ForthContext) : ℕ := (ctx.ntib - ctx.toIn).toInt.toNat

/-- `ctx->tib + ctx->to_in` -/
def ForthContext.begin (ctx : ForthContext) : ℕ := (ctx.tib + ctx.toIn).toNat

/-- `ctx->to_in = end - ctx->tib + (remainder > 0)` -/
def ForthContext.moveTo (ctx : ForthContext) (stop remainder : ℕ) : ForthContext :=
  { ctx with toIn := BitVec.ofNat 64 stop - ctx.tib + if 0 < remainder then 1 else 0 }

/-- `forth_parse_name` -/
def forthParseName : ForthWord := fun s =>
  let (remainder, start) := advance isBlank s.memory s.ctx.remainder s.ctx.begin
  let (remainder, stop) := advance (fun ch => !isBlank ch) s.memory remainder start
  let s := { s with ctx := s.ctx.moveTo stop remainder }
  .ok ((s.push (BitVec.ofNat 64 start)).push (BitVec.ofNat 64 (stop - start)))

/-- `forth_parse_char` -/
def forthParseChar : ForthWord := fun s => do
  let (delimiter, s) ← s.pop
  let start := s.ctx.begin
  let (remainder, stop) :=
    advance (fun ch => ch ≠ delimiter.setWidth 8) s.memory s.ctx.remainder start
  let s := { s with ctx := s.ctx.moveTo stop remainder }
  .ok ((s.push (BitVec.ofNat 64 start)).push (BitVec.ofNat 64 (stop - start)))

/-! ### Calls one after another -/

/-- A call of a parser -/
inductive ParseCall where
  | name
  | char (delimiter : Word)
  deriving DecidableEq, Repr

/-- The bytes of a string whose address and length are on the stack, which are taken off. -/
def takeString (s : ForthState) : Except Panic (List (BitVec 8) × ForthState) := do
  let (length, s) ← s.pop
  let (address, s) ← s.pop
  .ok (s.memory.bytesAt address.toNat length.toNat, s)

/-- A call, and the token it leaves -/
def ParseCall.run (s : ForthState) : ParseCall → Except Panic (List (BitVec 8) × ForthState)
  | .name => forthParseName s >>= takeString
  | .char delimiter => forthParseChar (s.push delimiter) >>= takeString

/-- Calls in order, and their tokens -/
def runParseCalls : List ParseCall → ForthState → Except Panic (List (List (BitVec 8)) × ForthState)
  | [], s => .ok ([], s)
  | call :: calls, s => do
    let (token, s) ← call.run s
    let (tokens, s) ← runParseCalls calls s
    .ok (token :: tokens, s)

/-! ### What the calls are to return -/

/-- The names in a text: the maximal runs of characters that are not blank. -/
def names (text : List (BitVec 8)) : List (List (BitVec 8)) :=
  (text.splitOnP isBlank).filter (· ≠ [])

/-- A token of a text and what follows, for each of the parsers -/
def ParseCall.Takes (text token rest : List (BitVec 8)) : ParseCall → Prop
  | .name =>
    ∃ blanks tail, text = blanks ++ token ++ tail ∧ (∀ ch ∈ blanks, isBlank ch) ∧
      (∀ ch ∈ token, ¬ isBlank ch) ∧ (token = [] → tail = []) ∧ (∀ ch ∈ tail.head?, isBlank ch) ∧
      rest = tail.tail
  | .char delimiter =>
    delimiter.setWidth 8 ∉ token ∧
      (text = token ++ delimiter.setWidth 8 :: rest ∨ (text = token ∧ rest = []))

/-- What remains of the input buffer -/
def ForthState.remaining (s : ForthState) : List (BitVec 8) :=
  s.memory.bytesAt s.ctx.begin s.ctx.remainder

/-- The position is in the input buffer, which is somewhere in memory. -/
structure ForthContext.InputOk (ctx : ForthContext) : Prop where
  toIn_nonneg : 0 ≤ ctx.toIn.toInt
  toIn_le : ctx.toIn.toInt ≤ ctx.ntib.toInt
  fits : ctx.tib.toNat + ctx.ntib.toNat ≤ 2 ^ 64

/-! ### The position -/

namespace ForthContext.InputOk

variable {ctx : ForthContext}

lemma ntib_lt (h : ctx.InputOk) : ctx.ntib.toNat < 2 ^ 63 := by
  obtain ⟨hnonneg, hle, -⟩ := h
  rw [BitVec.toInt_eq_toNat_cond] at hnonneg hle
  rw [BitVec.toInt_eq_toNat_cond] at hle
  have hlt := ctx.ntib.isLt
  omega

lemma toIn_toNat (h : ctx.InputOk) : ctx.toIn.toInt = ctx.toIn.toNat := by
  have hnonneg := h.toIn_nonneg
  have hlt := ctx.toIn.isLt
  rw [BitVec.toInt_eq_toNat_cond] at hnonneg ⊢
  split_ifs at hnonneg ⊢ with hcond
  · rfl
  · omega

lemma ntib_toNat (h : ctx.InputOk) : ctx.ntib.toInt = ctx.ntib.toNat := by
  have hlt := h.ntib_lt
  rw [BitVec.toInt_eq_toNat_cond, if_pos (by omega)]

/-- The position and what remains make up the buffer. -/
lemma remainder_add (h : ctx.InputOk) : ctx.remainder + ctx.toIn.toNat = ctx.ntib.toNat := by
  have hle := h.toIn_le
  have hlt := h.ntib_lt
  rw [h.toIn_toNat, h.ntib_toNat] at hle
  rw [remainder, BitVec.toInt_eq_toNat_cond, BitVec.toNat_sub]
  omega

lemma remainder_lt (h : ctx.InputOk) : ctx.remainder < 2 ^ 64 := by
  have hadd := h.remainder_add
  have hlt := h.ntib_lt
  omega

/-- What remains is inside of the memory. -/
lemma begin_add (h : ctx.InputOk) : ctx.begin + ctx.remainder ≤ 2 ^ 64 := by
  have hadd := h.remainder_add
  have hfits := h.fits
  rw [begin, BitVec.toNat_add]
  omega

end ForthContext.InputOk

lemma ForthContext.moveTo_toIn (ctx : ForthContext) (k remainder : ℕ) :
    (ctx.moveTo (ctx.begin + k) remainder).toIn =
      ctx.toIn + BitVec.ofNat 64 (k + if 0 < remainder then 1 else 0) := by
  have hbegin : BitVec.ofNat 64 ctx.begin = ctx.tib + ctx.toIn := BitVec.ofNat_toNat ..
  have hone : (if 0 < remainder then 1 else 0 : Word) =
      BitVec.ofNat 64 (if 0 < remainder then 1 else 0) := by
    split_ifs <;> rfl
  rw [moveTo, BitVec.ofNat_add, BitVec.ofNat_add, hbegin, hone]
  dsimp only
  rw [BitVec.add_assoc ctx.tib, BitVec.add_comm ctx.tib, BitVec.add_sub_cancel, BitVec.add_assoc]

/-- The position moves over `k` characters, and over one more if there is one. -/
lemma ForthContext.InputOk.moveTo {ctx : ForthContext} (h : ctx.InputOk) (m : ByteMemory)
    {text tail : List (BitVec 8)} (hremaining : m.bytesAt ctx.begin ctx.remainder = text ++ tail) :
    (ctx.moveTo (ctx.begin + text.length) tail.length).InputOk ∧
      ctx.toIn.toInt ≤ (ctx.moveTo (ctx.begin + text.length) tail.length).toIn.toInt ∧
      m.bytesAt (ctx.moveTo (ctx.begin + text.length) tail.length).begin
        (ctx.moveTo (ctx.begin + text.length) tail.length).remainder = tail.tail := by
  set ctx' := ctx.moveTo (ctx.begin + text.length) tail.length with hctx'
  set k := text.length + if 0 < tail.length then 1 else 0 with hk
  have hlength : text.length + tail.length = ctx.remainder := by
    rw [← List.length_append, ← hremaining, length_bytesAt]
  have hle : k ≤ ctx.remainder := by
    split_ifs at hk <;> omega
  have hadd := h.remainder_add
  have hlt := h.ntib_lt
  have htoIn : ctx'.toIn = ctx.toIn + BitVec.ofNat 64 k := ctx.moveTo_toIn ..
  have htoNat : ctx'.toIn.toNat = ctx.toIn.toNat + k := by
    rw [htoIn, BitVec.toNat_add, BitVec.toNat_ofNat]
    omega
  have htoInt : ctx'.toIn.toInt = ctx.toIn.toNat + k := by
    rw [BitVec.toInt_eq_toNat_cond, if_pos (by omega), htoNat]
    norm_cast
  have hok : ctx'.InputOk := by
    refine ⟨by omega, ?_, h.fits⟩
    show ctx'.toIn.toInt ≤ ctx.ntib.toInt
    rw [h.ntib_toNat]
    omega
  refine ⟨hok, by rw [h.toIn_toNat]; omega, ?_⟩
  have hadd' : ctx'.remainder + ctx'.toIn.toNat = ctx.ntib.toNat := hok.remainder_add
  have hrest : tail.tail.length = ctx'.remainder := by
    rw [List.length_tail]
    split_ifs at hk <;> omega
  rcases Nat.eq_zero_or_pos ctx'.remainder with hzero | hpos
  · rw [hzero, bytesAt_zero, List.eq_nil_of_length_eq_zero (hrest.trans hzero)]
  · have hbegin : ctx'.begin = ctx.begin + k := by
      have hsum := h.begin_add
      show (ctx.tib + ctx'.toIn).toNat = (ctx.tib + ctx.toIn).toNat + k
      rw [htoIn, ← BitVec.add_assoc, BitVec.toNat_add, BitVec.toNat_ofNat]
      rw [ForthContext.begin] at hsum
      omega
    have hsplit : m.bytesAt ctx.begin ctx.remainder =
        m.bytesAt ctx.begin k ++ m.bytesAt ctx'.begin ctx'.remainder := by
      rw [hbegin, ← bytesAt_add]
      congr 1
      omega
    have htail : text ++ tail = (text ++ tail.take 1) ++ tail.tail := by
      rw [List.append_assoc, ← List.drop_one, List.take_append_drop]
    rw [hsplit, htail] at hremaining
    exact List.append_inj_right' hremaining (by rw [length_bytesAt, hrest])

/-! ### The tokens -/

/-- The loops stop behind the characters that are passed over. -/
lemma advance_spec (passes : BitVec 8 → Bool) (m : ByteMemory) (n p : ℕ) :
    ∃ run rest, m.bytesAt p n = run ++ rest ∧ (∀ ch ∈ run, passes ch) ∧
      (∀ ch ∈ rest.head?, ¬ passes ch) ∧
      advance passes m n p = (rest.length, p + run.length) := by
  induction n generalizing p with
  | zero => exact ⟨[], [], rfl, by simp, by simp, rfl⟩
  | succ n ih =>
    rw [bytesAt_succ, advance]
    by_cases hp : passes (m p)
    · rw [if_pos hp]
      obtain ⟨run, rest, hbytes, hrun, hrest, heq⟩ := ih (p + 1)
      refine ⟨m p :: run, rest, by rw [hbytes, List.cons_append], ?_, hrest, ?_⟩
      · exact List.forall_mem_cons.mpr ⟨hp, hrun⟩
      · rw [heq, List.length_cons, Nat.add_assoc, Nat.add_comm 1]
    · rw [if_neg hp]
      refine ⟨[], m p :: m.bytesAt (p + 1) n, rfl, by simp, by simpa using hp, ?_⟩
      rw [List.length_cons, length_bytesAt, List.length_nil]
      rfl

/-- The string that a parser leaves on the stack is the token. -/
lemma takeString_push {s : ForthState} {p n : ℕ} {front token tail : List (BitVec 8)}
    (h : s.memory.bytesAt p n = front ++ token ++ tail) (hn : n < 2 ^ 64)
    (hfits : p + n ≤ 2 ^ 64) :
    takeString ((s.push (BitVec.ofNat 64 (p + front.length))).push (BitVec.ofNat 64 token.length)) =
      .ok (token, s) := by
  have hlength := congrArg List.length h
  rw [length_bytesAt, List.length_append, List.length_append] at hlength
  rw [List.append_assoc] at h
  have htoken : s.memory.bytesAt (p + front.length) token.length = token :=
    (bytesAt_split (bytesAt_split h).2).1
  have hbytes : s.memory.bytesAt (BitVec.ofNat 64 (p + front.length)).toNat
      (BitVec.ofNat 64 token.length).toNat = token := by
    cases token with
    | nil => rfl
    | cons ch token =>
      rw [List.length_cons] at hlength htoken ⊢
      rwa [BitVec.toNat_ofNat, BitVec.toNat_ofNat, Nat.mod_eq_of_lt (by omega),
        Nat.mod_eq_of_lt (by omega)]
  show Except.ok (s.memory.bytesAt _ _, s) = _
  rw [hbytes]

/-- A parser has taken a token, and has changed nothing but the position. -/
structure ForthState.Parsed (s : ForthState) (call : ParseCall) (token : List (BitVec 8))
    (s' : ForthState) : Prop where
  takes : call.Takes s.remaining token s'.remaining
  toIn_le : s.ctx.toIn.toInt ≤ s'.ctx.toIn.toInt
  inputOk : s'.ctx.InputOk
  frame : s' = { s with ctx := { s.ctx with toIn := s'.ctx.toIn } }

variable {s : ForthState}

/-- What `forth_parse_name` does: it skips blanks and leaves the string of the next name. -/
lemma forthParseName_eq (s : ForthState) :
    ∃ blanks token tail, s.remaining = blanks ++ token ++ tail ∧
      (∀ ch ∈ blanks, isBlank ch) ∧ (∀ ch ∈ token, ¬ isBlank ch) ∧ (token = [] → tail = []) ∧
      (∀ ch ∈ tail.head?, isBlank ch) ∧
      forthParseName s = .ok (({ s with
        ctx := s.ctx.moveTo (s.ctx.begin + (blanks ++ token).length) tail.length }.push
          (BitVec.ofNat 64 (s.ctx.begin + blanks.length))).push
            (BitVec.ofNat 64 token.length)) := by
  obtain ⟨blanks, rest, hrest, hblanks, hhead, hskip⟩ :=
    advance_spec isBlank s.memory s.ctx.remainder s.ctx.begin
  obtain ⟨token, tail, htail, htoken, hend, htake⟩ :=
    advance_spec (fun ch => !isBlank ch) s.memory rest.length (s.ctx.begin + blanks.length)
  have htext : s.remaining = blanks ++ token ++ tail := by
    rw [ForthState.remaining, hrest, List.append_assoc, ← htail]
    exact congrArg (blanks ++ ·) (bytesAt_split hrest).2.symm
  refine ⟨blanks, token, tail, htext, hblanks, ?_, ?_, ?_, ?_⟩
  · intro ch hch
    simpa using htoken ch hch
  · -- a blank would have been skipped, another character taken
    rintro rfl
    rw [List.nil_append] at htail
    cases tail with
    | nil => rfl
    | cons ch tail =>
      rw [← (bytesAt_split hrest).2, htail] at hhead
      have hblank := hend ch rfl
      rw [Bool.not_eq_true', Bool.not_eq_false] at hblank
      exact absurd hblank (hhead ch rfl)
  · intro ch hch
    simpa using hend ch hch
  · rw [forthParseName, hskip]
    dsimp only
    rw [htake]
    dsimp only
    rw [Nat.add_sub_cancel_left, List.length_append, Nat.add_assoc]

lemma forthParseName_spec (h : s.ctx.InputOk) :
    Ensures (fun _ => False) (fun r => s.Parsed .name r.1 r.2) (ParseCall.name.run s) := by
  obtain ⟨blanks, token, tail, htext, hblanks, htoken, hempty, hend, hparse⟩ := forthParseName_eq s
  obtain ⟨hok, hle, hremaining⟩ := h.moveTo s.memory htext
  set ctx := s.ctx.moveTo (s.ctx.begin + (blanks ++ token).length) tail.length
  set s' : ForthState := { s with ctx := ctx }
  have hrun : ParseCall.name.run s = .ok (token, s') := by
    rw [ParseCall.run, hparse, ok_bind]
    exact @takeString_push s' _ _ blanks token tail htext h.remainder_lt h.begin_add
  rw [hrun, ensures_ok]
  exact ⟨⟨blanks, tail, htext, hblanks, htoken, hempty, hend, hremaining⟩, hle, hok, rfl⟩

lemma forthParseChar_spec (h : s.ctx.InputOk) (delimiter : Word) :
    Ensures (fun _ => False) (fun r => s.Parsed (.char delimiter) r.1 r.2)
      ((ParseCall.char delimiter).run s) := by
  obtain ⟨token, tail, htail, htoken, hend, htake⟩ :=
    advance_spec (fun ch => ch ≠ delimiter.setWidth 8) s.memory s.ctx.remainder s.ctx.begin
  obtain ⟨hok, hle, hremaining⟩ := h.moveTo s.memory htail
  set ctx := s.ctx.moveTo (s.ctx.begin + token.length) tail.length
  set s' : ForthState := { s with ctx := ctx }
  have hrun : (ParseCall.char delimiter).run s = .ok (token, s') := by
    have hstring := @takeString_push s' _ _ [] token tail htail h.remainder_lt h.begin_add
    rw [ParseCall.run, forthParseChar, ForthState.pop_push, ok_bind]
    dsimp only
    rw [htake]
    dsimp only
    rw [Nat.add_sub_cancel_left]
    exact hstring
  rw [hrun, ensures_ok]
  refine ⟨⟨?_, ?_⟩, hle, hok, rfl⟩
  · intro hmem
    simpa using htoken _ hmem
  · have hrest : s'.remaining = tail.tail := hremaining
    rw [hrest]
    cases tail with
    | nil => exact Or.inr ⟨by rw [← List.append_nil token]; exact htail, rfl⟩
    | cons ch tail =>
      have hch : ch = delimiter.setWidth 8 := by simpa using hend ch rfl
      rw [← hch]
      exact Or.inl htail

lemma ParseCall.run_spec (h : s.ctx.InputOk) (call : ParseCall) :
    Ensures (fun _ => False) (fun r => s.Parsed call r.1 r.2) (call.run s) := by
  cases call with
  | name => exact forthParseName_spec h
  | char delimiter => exact forthParseChar_spec h delimiter

/-! ### Any mix of calls -/

/-- No character of a name is blank, and those around it are. -/
lemma names_of_takes {text token rest : List (BitVec 8)}
    (h : ParseCall.name.Takes text token rest) :
    names text = if token = [] then [] else token :: names rest := by
  obtain ⟨blanks, tail, rfl, hblanks, htoken, hempty, htail, rfl⟩ := h
  have hskip : names (blanks ++ token ++ tail) = names (token ++ tail) := by
    induction blanks with
    | nil => rfl
    | cons ch blanks ih =>
      rw [← ih fun ch hch => hblanks ch (List.mem_cons_of_mem _ hch), names, List.cons_append,
        List.cons_append, List.splitOnP_cons_eq_if_modifyHead,
        if_pos (hblanks ch List.mem_cons_self)]
      rfl
  have hvisible : ∀ ch ∈ token, isBlank ch = false := fun ch hch =>
    Bool.eq_false_iff.mpr (htoken ch hch)
  rw [hskip]
  split_ifs with hnil
  · rw [hnil, hempty hnil]
    rfl
  · cases tail with
    | nil =>
      rw [List.append_nil, names, List.splitOnP_eq_singleton hvisible]
      simp [names, hnil]
    | cons ch tail =>
      rw [names, List.splitOnP_append_cons_of_forall_mem hvisible ch (htail ch rfl)]
      simp [names, hnil]

/-- Behind the last name nothing remains. -/
lemma rest_of_takes_nil {text rest : List (BitVec 8)} (h : ParseCall.name.Takes text [] rest) :
    rest = [] := by
  obtain ⟨blanks, tail, -, -, -, hempty, -, rfl⟩ := h
  rw [hempty rfl]
  rfl

/-- The position never moves back and never leaves the buffer. -/
lemma runParseCalls_spec (h : s.ctx.InputOk) (calls : List ParseCall) :
    Ensures (fun _ => False)
      (fun r => s.ctx.toIn.toInt ≤ r.2.ctx.toIn.toInt ∧ r.2.ctx.InputOk ∧
        r.2 = { s with ctx := { s.ctx with toIn := r.2.ctx.toIn } })
      (runParseCalls calls s) := by
  induction calls generalizing s with
  | nil => exact ⟨le_refl _, h, rfl⟩
  | cons call calls ih =>
    refine (call.run_spec h).bind fun r hr => ?_
    refine (ih hr.inputOk).bind fun r' hr' => ?_
    obtain ⟨hle, hok, hframe⟩ := hr'
    refine ⟨hr.toIn_le.trans hle, hok, ?_⟩
    dsimp only
    rw [hframe, hr.frame]

/-- The names come one after the other, and then no more. -/
lemma runParseCalls_names (h : s.ctx.InputOk) (n : ℕ) :
    Ensures (fun _ => False)
      (fun r => r.1 = (names s.remaining ++ List.replicate n []).take n)
      (runParseCalls (List.replicate n .name) s) := by
  induction n generalizing s with
  | zero => rfl
  | succ n ih =>
    have hcalls : List.replicate (n + 1) ParseCall.name = .name :: List.replicate n .name := rfl
    rw [hcalls]
    refine (ParseCall.name.run_spec h).bind fun r hr => ?_
    refine (ih hr.inputOk).bind fun r' hr' => ?_
    rw [ensures_ok]
    dsimp only
    rw [hr', names_of_takes hr.takes]
    split_ifs with hnil
    · have hrest : r.2.remaining = [] := rest_of_takes_nil (hnil ▸ hr.takes)
      rw [hnil, hrest, show names [] = [] from rfl, List.nil_append, List.nil_append,
        List.take_replicate, List.take_replicate, min_self, min_self, List.replicate_succ]
    · have hshorter : n ≤ (names r.2.remaining ++ List.replicate n []).length := by
        rw [List.length_append, List.length_replicate]
        exact Nat.le_add_left n _
      rw [List.cons_append, List.take_succ_cons, List.replicate_succ', ← List.append_assoc,
        List.take_append_of_le_length hshorter]

/-- Whatever was parsed before, the parsers take the tokens of what remains. -/
theorem forth_parse (h : s.ctx.InputOk) (calls : List ParseCall) :
    ∃ tokens s', runParseCalls calls s = .ok (tokens, s') ∧
      (s.ctx.toIn.toInt ≤ s'.ctx.toIn.toInt ∧ s'.ctx.toIn.toInt ≤ s.ctx.ntib.toInt) ∧
      s' = { s with ctx := { s.ctx with toIn := s'.ctx.toIn } } ∧
      (∀ n, Ensures (fun _ => False)
        (fun r => r.1 = (names s'.remaining ++ List.replicate n []).take n)
        (runParseCalls (List.replicate n .name) s')) ∧
      ∀ call : ParseCall,
        Ensures (fun _ => False) (fun r => s'.Parsed call r.1 r.2) (call.run s') := by
  obtain ⟨⟨tokens, s'⟩, hrun, hle, hok, hframe⟩ := (runParseCalls_spec h calls).exists_ok
  refine ⟨tokens, s', hrun, ⟨hle, ?_⟩, hframe, runParseCalls_names hok, ?_⟩
  swap
  · intro call
    exact call.run_spec hok
  have hntib := hok.toIn_le
  rw [hframe] at hntib
  exact hntib

/-- A buffer that holds `"ab c"` -/
def shortInput : ForthState where
  memory := writeBytes (fun _ => 0) 0x1000 [97, 98, 32, 99]
  ctx := ⟨0, 0, 0x1000, 4, 0, 0⟩
  stack := []

/-- Tokens of a buffer with two names -/
theorem forth_parse_shortInput :
    ∃ tokens s', runParseCalls [.name, .char 0x63] shortInput = .ok (tokens, s') ∧
      (shortInput.ctx.toIn.toInt ≤ s'.ctx.toIn.toInt ∧
        s'.ctx.toIn.toInt ≤ shortInput.ctx.ntib.toInt) ∧
      s' = { shortInput with ctx := { shortInput.ctx with toIn := s'.ctx.toIn } } ∧
      (∀ n, Ensures (fun _ => False)
        (fun r => r.1 = (names s'.remaining ++ List.replicate n []).take n)
        (runParseCalls (List.replicate n .name) s')) ∧
      ∀ call : ParseCall,
        Ensures (fun _ => False) (fun r => s'.Parsed call r.1 r.2) (call.run s') :=
  forth_parse ⟨by decide, by decide, by decide⟩ _

end Fluke
