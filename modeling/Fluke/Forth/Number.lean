import Fluke.Forth.Context
import Fluke.Print.Hex

/-!
# Hexadecimal numbers

`forth_str_to_num` reads the digits that `print_hex` writes. It accumulates from the left, modulo
`2 ^ 64`, so that a string of digits of any length has a value; the index of its loop is an `int`,
though, while the length of the string is not.
-/

namespace Fluke

open Outcome ByteMemory Digits

/-- `INT_MAX` -/
abbrev maxInt : ℕ := 2 ^ 31 - 1

/-- One character of a number, where `char` is signed: a digit is added to the value. -/
def addDigit (value : Word) (ch : BitVec 8) : Option Word :=
  if BitVec.sle 0x30 ch && ch.sle 0x39 then some (value * 16 + ch.signExtend 64 - 0x30)
  else if BitVec.sle 0x61 ch && ch.sle 0x66 then some (value * 16 + 10 + ch.signExtend 64 - 0x61)
  else none

/-- The loop of `forth_str_to_num` from index `i` on, when `remaining` characters are left, and the
value it ends with, if any. After `INT_MAX` the index wraps around to a negative number, and
the loop goes on in front of the string. -/
def strToNumLoop (m : ByteMemory) (buf : ℕ) : ℕ → ℕ → Word → Except Panic (Option Word)
  | 0, _, value => .ok (some value)
  | remaining + 1, i, value =>
    match addDigit value (m (buf + i)) with
    | none => .ok none
    | some value =>
      if i = maxInt then .error .outOfBounds else strToNumLoop m buf remaining (i + 1) value

/-- `forth_str_to_num` -/
def forthStrToNum : ForthWord := fun s => do
  let (len, s) ← s.pop
  let (buf, s) ← s.pop
  match ← strToNumLoop s.memory buf.toNat len.toInt.toNat 0 0 with
  | none => .ok ((s.push buf).push 0)
  | some value => .ok ((s.push value).push 1)

/-- The conversion `%zx`, with which the interpreter prints a cell. -/
def cellSpecifier : FmtSpecifier := ⟨0, 0, 1, false, false⟩

/-! ### What the strings stand for -/

/-- The bytes of a text -/
def textBytes (text : List Char) : List (BitVec 8) := text.map fun c => BitVec.ofNat 8 c.toNat

/-- The string lies in memory, and its address and length are on the stack. -/
structure ForthState.HasString (s : ForthState) (text : List (BitVec 8)) (buf : Word)
    (rest : List Word) : Prop where
  stack : s.stack = BitVec.ofNat 64 text.length :: buf :: rest
  bytes : s.memory.bytesAt buf.toNat text.length = text
  length_lt : text.length < 2 ^ 63

/-- The reader and the printer agree: on the strings of `Read` the reader finds out whether they are
numbers and which, and the printer gives those of `Printed` back. -/
structure HexRoundTrip (Read Printed : List (BitVec 8) → Prop) : Prop where
  print_read : ∀ v : Word, ∃ text, printHex cellSpecifier v [] = .ok text ∧
    ∀ s buf rest, ForthState.HasString s (textBytes text) buf rest →
      forthStrToNum s = .ok { s with stack := 1 :: v :: rest }
  read : ∀ s text buf rest, ForthState.HasString s text buf rest → Read text →
    ∃ flag x, forthStrToNum s = .ok { s with stack := flag :: x :: rest } ∧
      (flag = 1 ↔ ∀ ch ∈ text, IsHexDigit ch) ∧
      (flag = 1 → x = BitVec.ofNat 64 (hexNumber text)) ∧ (flag ≠ 1 → flag = 0 ∧ x = buf)
  read_print : ∀ text : List (BitVec 8), Printed text → text.length ≤ 16 →
    (∀ ch ∈ text, IsHexDigit ch) → (text.head? = some 0x30 → text = [0x30]) →
    ∃ printed, printHex cellSpecifier (BitVec.ofNat 64 (hexNumber text)) [] = .ok printed ∧
      textBytes printed = text

/-- The index of the loop can count the string, or does not come that far. -/
def IndexFits (text : List (BitVec 8)) : Prop :=
  text.length ≤ maxInt ∨ ∃ ch ∈ text.take (maxInt + 1), ¬ IsHexDigit ch

/-! ### Reading -/

lemma addDigit_eq (value : Word) (ch : BitVec 8) :
    addDigit value ch =
      if IsHexDigit ch then some (value * 16 + BitVec.ofNat 64 (hexValue ch)) else none := by
  have hdigit : ∀ ch : BitVec 8, (0x30 ≤ ch ∧ ch ≤ 0x39) →
      (BitVec.sle 0x30 ch && ch.sle 0x39) ∧
        ch.signExtend 64 - 0x30 = BitVec.ofNat 64 (hexValue ch) := by decide
  have hletter : ∀ ch : BitVec 8, (0x61 ≤ ch ∧ ch ≤ 0x66) →
      ¬ (BitVec.sle 0x30 ch && ch.sle 0x39) ∧ (BitVec.sle 0x61 ch && ch.sle 0x66) ∧
        10 + ch.signExtend 64 - 0x61 = BitVec.ofNat 64 (hexValue ch) := by decide
  have hother : ∀ ch : BitVec 8, ¬ IsHexDigit ch →
      ¬ (BitVec.sle 0x30 ch && ch.sle 0x39) ∧ ¬ (BitVec.sle 0x61 ch && ch.sle 0x66) := by decide
  unfold addDigit
  by_cases h : IsHexDigit ch
  · rw [if_pos h]
    rcases h with h | h
    · obtain ⟨hcond, hvalue⟩ := hdigit ch h
      rw [if_pos hcond, BitVec.sub_eq_add_neg, BitVec.add_assoc, ← BitVec.sub_eq_add_neg, hvalue]
    · obtain ⟨hcond, hcond', hvalue⟩ := hletter ch h
      rw [if_neg hcond, if_pos hcond', BitVec.sub_eq_add_neg, BitVec.add_assoc, BitVec.add_assoc,
        ← BitVec.add_assoc 10, ← BitVec.sub_eq_add_neg, hvalue]
  · obtain ⟨hcond, hcond'⟩ := hother ch h
    rw [if_neg h, if_neg hcond, if_neg hcond']

/-- The loop stops at the first character that is no digit; with digits only, it comes to the end of
the string or its index wraps around. -/
lemma strToNumLoop_eq {m : ByteMemory} {buf : ℕ} {text : List (BitVec 8)} :
    ∀ {i k : ℕ}, i ≤ maxInt → m.bytesAt (buf + i) text.length = text →
      strToNumLoop m buf text.length i (BitVec.ofNat 64 k) =
        if ∀ ch ∈ text.take (maxInt + 1 - i), IsHexDigit ch then
          if i + text.length ≤ maxInt then
            .ok (some (BitVec.ofNat 64 ((text.map hexValue).foldl (fun n d => n * 16 + d) k)))
          else .error .outOfBounds
        else .ok none := by
  induction text with
  | nil =>
    intro i k hi _
    rw [if_pos (by simp), List.length_nil, Nat.add_zero, if_pos hi]
    rfl
  | cons ch text ih =>
    intro i k hi hbytes
    rw [List.length_cons, bytesAt_succ, List.cons.injEq, Nat.add_assoc] at hbytes
    obtain ⟨hch, hbytes⟩ := hbytes
    have htake : (ch :: text).take (maxInt + 1 - i) = ch :: text.take (maxInt + 1 - (i + 1)) := by
      rw [show maxInt + 1 - i = (maxInt - i) + 1 by omega, List.take_succ_cons]
      congr 2
      omega
    rw [List.length_cons, strToNumLoop, hch, addDigit_eq, htake]
    by_cases hdigit : IsHexDigit ch
    · rw [if_pos hdigit]
      have hall : (∀ c ∈ ch :: text.take (maxInt + 1 - (i + 1)), IsHexDigit c) ↔
          ∀ c ∈ text.take (maxInt + 1 - (i + 1)), IsHexDigit c := by
        rw [List.forall_mem_cons]
        exact and_iff_right hdigit
      rw [if_congr hall rfl rfl]
      dsimp only
      by_cases hlast : i = maxInt
      · have hnone : maxInt + 1 - (i + 1) = 0 := by omega
        rw [if_pos hlast, hnone, List.take_zero, if_pos (by simp), if_neg (by omega)]
      · have hvalue : BitVec.ofNat 64 k * 16 + BitVec.ofNat 64 (hexValue ch) =
            BitVec.ofNat 64 (k * 16 + hexValue ch) := by
          rw [BitVec.ofNat_add, BitVec.ofNat_mul]
          rfl
        rw [if_neg hlast, hvalue, ih (by omega) hbytes]
        rw [Nat.add_assoc, Nat.add_comm 1]
        rfl
    · rw [if_neg hdigit, if_neg fun hall => hdigit (hall ch List.mem_cons_self)]

variable {s : ForthState} {text : List (BitVec 8)} {buf : Word} {rest : List Word}

/-- What `forth_str_to_num` does with a string of any length. -/
lemma forthStrToNum_eq (h : s.HasString text buf rest) :
    forthStrToNum s =
      if ∀ ch ∈ text.take (maxInt + 1), IsHexDigit ch then
        if text.length ≤ maxInt then
          .ok { s with stack := 1 :: BitVec.ofNat 64 (hexNumber text) :: rest }
        else .error .outOfBounds
      else .ok { s with stack := 0 :: buf :: rest } := by
  obtain ⟨hstack, hbytes, hlength⟩ := h
  have hcount : (BitVec.ofNat 64 text.length).toInt.toNat = text.length := by
    rw [BitVec.toInt_eq_toNat_cond, BitVec.toNat_ofNat]
    omega
  have hloop : strToNumLoop s.memory buf.toNat text.length 0 0 = _ :=
    strToNumLoop_eq (i := 0) (k := 0) (Nat.zero_le maxInt) hbytes
  rw [Nat.sub_zero, Nat.zero_add] at hloop
  unfold forthStrToNum ForthState.pop
  rw [hstack]
  dsimp only [ok_bind]
  rw [hcount, hloop]
  split_ifs <;> rfl

/-- A string that the index of the loop fits -/
lemma forthStrToNum_of_indexFits (h : s.HasString text buf rest) (hfits : IndexFits text) :
    forthStrToNum s =
      if ∀ ch ∈ text, IsHexDigit ch then
        .ok { s with stack := 1 :: BitVec.ofNat 64 (hexNumber text) :: rest }
      else .ok { s with stack := 0 :: buf :: rest } := by
  rw [forthStrToNum_eq h]
  rcases hfits with hlength | ⟨ch, hmem, hch⟩
  · rw [List.take_of_length_le (by omega), if_pos hlength]
  · rw [if_neg fun hall => hch (hall ch hmem),
      if_neg fun hall => hch (hall ch (List.mem_of_mem_take hmem))]

/-! ### Printing -/

lemma printHex_cell (v : Word) :
    printHex cellSpecifier v [] = .ok ((numeral 16 v.toNat).map hexDigit) := by
  have hpadding : padding cellSpecifier (numeral 16 v.toNat).length = [] := by
    rw [padding, Int.toNat_of_nonpos (by simp [cellSpecifier]), List.replicate_zero]
  have harg : unsignedArg cellSpecifier v = v.toNat := rfl
  rw [printHex_eq (by decide), harg, field, hpadding, List.nil_append, List.nil_append]

/-- The byte that is printed for a digit -/
def hexByte (d : ℕ) : BitVec 8 := BitVec.ofNat 8 (hexDigit d).toNat

lemma hexByte_spec : ∀ d < 16, IsHexDigit (hexByte d) ∧ hexValue (hexByte d) = d := by decide

lemma hexByte_hexValue : ∀ ch : BitVec 8, IsHexDigit ch →
    hexValue ch < 16 ∧ hexByte (hexValue ch) = ch := by decide

lemma textBytes_map_hexDigit (digits : List ℕ) :
    textBytes (digits.map hexDigit) = digits.map hexByte := by
  rw [textBytes, List.map_map]
  rfl

/-- The digits of a number are digits, and stand for it. -/
lemma hexNumber_map_hexByte {digits : List ℕ} (hlt : ∀ d ∈ digits, d < 16) :
    (∀ ch ∈ digits.map hexByte, IsHexDigit ch) ∧
      hexNumber (digits.map hexByte) = value 16 digits := by
  constructor
  · intro ch hch
    obtain ⟨d, hd, rfl⟩ := List.mem_map.mp hch
    exact (hexByte_spec d (hlt d hd)).1
  · rw [hexNumber, List.map_map]
    congr 1
    conv_rhs => rw [← List.map_id digits]
    exact List.map_congr_left fun d hd => (hexByte_spec d (hlt d hd)).2

/-- What is printed for a cell is read back. -/
lemma forthStrToNum_numeral (v : Word)
    (h : s.HasString ((numeral 16 v.toNat).map hexByte) buf rest) :
    forthStrToNum s = .ok { s with stack := 1 :: v :: rest } := by
  have hlength : (numeral 16 v.toNat).length ≤ 16 :=
    length_numeral_le (by decide) (by decide) v.isLt
  obtain ⟨hdigits, hvalue⟩ := hexNumber_map_hexByte fun d => numeral_lt (by decide) (n := v.toNat)
  have hfits : IndexFits ((numeral 16 v.toNat).map hexByte) :=
    Or.inl ((List.length_map ..).trans_le (hlength.trans (by decide)))
  rw [forthStrToNum_of_indexFits h hfits, if_pos hdigits, hvalue, value_numeral (by decide),
    BitVec.ofNat_toNat, BitVec.setWidth_eq]

/-- The number of a string of digits is printed as the string. -/
lemma printHex_hexNumber (hne : text ≠ []) (hlength : text.length ≤ 16)
    (hdigits : ∀ ch ∈ text, IsHexDigit ch) (hzero : text.head? = some 0x30 → text = [0x30]) :
    ∃ printed, printHex cellSpecifier (BitVec.ofNat 64 (hexNumber text)) [] = .ok printed ∧
      textBytes printed = text := by
  have hlt : ∀ d ∈ text.map hexValue, d < 16 := by
    intro d hd
    obtain ⟨ch, hch, rfl⟩ := List.mem_map.mp hd
    exact (hexByte_hexValue ch (hdigits ch hch)).1
  have hback : (text.map hexValue).map hexByte = text := by
    rw [List.map_map]
    conv_rhs => rw [← List.map_id text]
    exact List.map_congr_left fun ch hch => (hexByte_hexValue ch (hdigits ch hch)).2
  have hnumeral : numeral 16 (hexNumber text) = text.map hexValue := by
    cases text with
    | nil => exact absurd rfl hne
    | cons ch text =>
      refine numeral_value (by decide) (List.cons_ne_nil _ _) hlt fun hhead => ?_
      have hzeroDigit : hexValue ch = 0 := hhead
      have hch : hexByte (hexValue ch) = ch :=
        (hexByte_hexValue ch (hdigits ch List.mem_cons_self)).2
      rw [hzeroDigit] at hch
      rw [hzero (congrArg some hch.symm)]
      rfl
  have hvalue : hexNumber text < 2 ^ 64 := by
    refine (value_lt (by decide) hlt).trans_le ?_
    rw [List.length_map]
    exact Nat.pow_le_pow_right (by decide) hlength
  refine ⟨_, printHex_cell _, ?_⟩
  rw [textBytes_map_hexDigit, BitVec.toNat_ofNat, Nat.mod_eq_of_lt hvalue, hnumeral, hback]

/-! ### The round trip -/

/-- The reader and the printer agree, except that zero is printed for the empty string, and on
strings that the index of the loop cannot count. -/
theorem forth_hexRoundTrip : HexRoundTrip IndexFits (· ≠ []) := by
  constructor
  · intro v
    refine ⟨_, printHex_cell v, fun s buf rest h => ?_⟩
    rw [textBytes_map_hexDigit] at h
    exact forthStrToNum_numeral v h
  · intro s text buf rest h hfits
    rw [forthStrToNum_of_indexFits h hfits]
    split_ifs with hdigits
    · exact ⟨_, _, rfl, iff_of_true rfl hdigits, fun _ => rfl, fun hne => absurd rfl hne⟩
    · exact ⟨_, _, rfl, iff_of_false (by decide) hdigits, fun heq => absurd heq (by decide),
        fun _ => ⟨rfl, rfl⟩⟩
  · intro text hne hlength hdigits hzero
    exact printHex_hexNumber hne hlength hdigits hzero

/-- The empty string is read as zero, which is printed with a digit; and the index leaves a string
of `2 ^ 31` digits. -/
theorem not_hexRoundTrip_all :
    ¬ HexRoundTrip (fun _ => True) (fun _ => True) ∧ ¬ HexRoundTrip IndexFits (fun _ => True) ∧
      ¬ HexRoundTrip (fun _ => True) (· ≠ []) := by
  have hempty {Read : List (BitVec 8) → Prop} : ¬ HexRoundTrip Read (fun _ => True) := by
    intro h
    obtain ⟨printed, hprint, hbytes⟩ :=
      h.read_print [] trivial (Nat.zero_le 16) (by simp) (by simp)
    rw [printHex_cell, Except.ok.injEq] at hprint
    rw [← hprint] at hbytes
    exact absurd hbytes (by decide)
  have hlong {Printed : List (BitVec 8) → Prop} : ¬ HexRoundTrip (fun _ => True) Printed := by
    intro h
    have hstring : ForthState.HasString
        ⟨fun _ => 0x30, ⟨0, 0, 0, 0, 0, 0⟩, [BitVec.ofNat 64 (maxInt + 1), 0]⟩
        (List.replicate (maxInt + 1) 0x30) 0 [] := by
      refine ⟨?_, ?_, ?_⟩
      · rw [List.length_replicate]
      · rw [List.length_replicate]
        exact List.eq_replicate_iff.mpr ⟨length_bytesAt .., fun b hb => by
          obtain ⟨i, -, rfl⟩ := List.mem_map.mp hb
          rfl⟩
      · rw [List.length_replicate]
        decide
    obtain ⟨flag, x, hrun, -⟩ := h.read _ _ _ _ hstring trivial
    rw [forthStrToNum_eq hstring, if_pos, if_neg] at hrun
    · cases hrun
    · rw [List.length_replicate]
      exact Nat.not_succ_le_self maxInt
    · intro ch hch
      rw [List.eq_of_mem_replicate (List.mem_of_mem_take hch)]
      decide
  exact ⟨hempty, hempty, hlong⟩

end Fluke
