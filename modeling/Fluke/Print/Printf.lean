import Fluke.Klib
import Fluke.Library.Outcome
import Fluke.Library.Digits

/-!
# Printing numbers

The number conversions of the kernel's `printf`. Every function takes what has been written so far
and returns it with what it writes; `buffer` is the array on the stack of the function.
-/

namespace Fluke

open Outcome Digits

/-- `struct fmt_specifier` -/
structure FmtSpecifier where
  precision : ℤ
  width : ℤ
  length : ℤ
  zeroPad : Bool
  hasPrecision : Bool
  deriving DecidableEq, Repr

/-- An access to an array, which is undefined when it is out of its bounds. -/
def inBounds {α : Type} (x : Option α) : Except Panic α :=
  match x with
  | some a => .ok a
  | none => .error .outOfBounds

/-- `write`, which does nothing for a negative length. -/
def Printf.write (out data : List Char) (length : ℤ) : Except Panic (List Char) :=
  if length ≤ data.length then .ok (out ++ data.take length.toNat) else .error .outOfBounds

/-- `putchar` -/
def putchar (out : List Char) (c : Char) : List Char := out ++ [c]

/-- `digit_count_base_10` -/
def digitCountBase10 (value : ℕ) : ℕ := countDigits 10 one_lt_ten value

/-- `digit_count_base_16` -/
def digitCountBase16 (value : ℕ) : ℕ := countDigits 16 one_lt_sixteen value

/-- `'0' + (value % 10)` -/
def decimalChar (value : ℕ) : Char := Char.ofNat ('0'.toNat + value % 10)

/-- `"0123456789abcdef"[value & 0xf]` -/
def hexChar (value : ℕ) : Char := "0123456789abcdef".toList.getD (value &&& 0xf) '0'

/-- The body of `print_num_base_10` and `print_num_base_16`. -/
def printNum (digit : ℕ → Char) (next : ℕ → ℕ) (out : List Char) (value digits : ℕ) :
    Except Panic (List Char) := do
  let buffer ← inBounds (store (List.replicate 32 '\x00') digits '\x00')
  let buffer ← inBounds (fillDigits digit next digits value buffer)
  Printf.write out buffer digits

/-- `print_num_base_10` -/
def printNumBase10 : List Char → ℕ → ℕ → Except Panic (List Char) :=
  printNum decimalChar (· / 10)

/-- `print_num_base_16` -/
def printNumBase16 : List Char → ℕ → ℕ → Except Panic (List Char) :=
  printNum hexChar (· >>> 4)

/-- `print_char_rep` -/
def printCharRep (out : List Char) (ch : Char) (count : ℤ) : Except Panic (List Char) :=
  if 32 ≤ count then do
    let out ← Printf.write out (List.replicate 32 ch) 32
    printCharRep out ch (count - 32)
  else Printf.write out (List.replicate 32 ch) count
termination_by count.toNat
decreasing_by omega

/-- `pad` -/
def pad (afmt : FmtSpecifier) (out : List Char) (characters : ℤ) : Except Panic (List Char) :=
  if afmt.width > characters then
    printCharRep out (if afmt.zeroPad then '0' else ' ') (afmt.width - characters)
  else .ok out

/-- `read_number`, from the next argument -/
def readNumber (afmt : FmtSpecifier) (arg : Word) : Except Panic Word :=
  if afmt.length = -2 ∨ afmt.length = -1 ∨ afmt.length = 0 then
    .ok ((arg.setWidth 32).setWidth 64)
  else if afmt.length = 1 ∨ afmt.length = 2 then .ok arg
  else .error .invalidFormat

/-- The argument of `print_signed` -/
def readSigned (afmt : FmtSpecifier) (arg : Word) : Except Panic Word :=
  if afmt.length = -2 ∨ afmt.length = -1 ∨ afmt.length = 0 then
    .ok ((arg.setWidth 32).signExtend 64)
  else if afmt.length = 1 ∨ afmt.length = 2 then .ok arg
  else .error .invalidFormat

/-- `print_unsigned` -/
def printUnsigned (afmt : FmtSpecifier) (arg : Word) (out : List Char) :
    Except Panic (List Char) := do
  let value ← readNumber afmt arg
  let digits := digitCountBase10 value.toNat
  let out ← pad afmt out digits
  printNumBase10 out value.toNat digits

/-- `print_signed`; a negative number loses its sign modulo `2 ^ 64`. -/
def printSigned (afmt : FmtSpecifier) (arg : Word) (out : List Char) :
    Except Panic (List Char) := do
  let value ← readSigned afmt arg
  let (out, value, afmt) :=
    if value.slt 0 then (putchar out '-', -value, { afmt with width := afmt.width - 1 })
    else (out, value, afmt)
  let digits := digitCountBase10 value.toNat
  let out ← pad afmt out digits
  printNumBase10 out value.toNat digits

/-- `print_hex` -/
def printHex (afmt : FmtSpecifier) (arg : Word) (out : List Char) : Except Panic (List Char) := do
  let value ← readNumber afmt arg
  let digits := digitCountBase16 value.toNat
  let out ← pad afmt out digits
  printNumBase16 out value.toNat digits

/-! ### Reading a printed number back -/

/-- The value of a digit in a base. -/
def digitValue (base : ℕ) (c : Char) : Option ℕ :=
  let d := if '0' ≤ c ∧ c ≤ '9' then c.toNat - '0'.toNat
    else if 'a' ≤ c ∧ c ≤ 'f' then c.toNat - 'a'.toNat + 10 else base
  if d < base then some d else none

/-- Read one more digit. -/
def readDigit (base n : ℕ) (c : Char) : Option ℕ := (digitValue base c).map (n * base + ·)

/-- A number without a sign, which has one digit at least. -/
def parseNat (base : ℕ) (text : List Char) : Option ℕ :=
  if text = [] then none else text.foldlM (readDigit base) 0

/-- A number, with a minus sign in front when it is negative. -/
def parseInt (base : ℕ) : List Char → Option ℤ
  | '-' :: text => (parseNat base text).map fun n : ℕ => -(n : ℤ)
  | text => (parseNat base text).map fun n : ℕ => (n : ℤ)

/-- No zero stands in front of other digits. -/
def NoLeadingZero : List Char → Prop
  | '-' :: '0' :: text => text = []
  | '0' :: text => text = []
  | _ => True

/-- The padding taken away. -/
def unpadded (text : List Char) : List Char := text.filter (· ≠ ' ')

/-- The number of characters of a number: its digits and its sign. -/
def naturalLength (base : ℕ) (value : ℤ) : ℕ :=
  (numeral base value.natAbs).length + if value < 0 then 1 else 0

/-- `text` shows `value` in the field that the conversion asks for. -/
structure Shows (afmt : FmtSpecifier) (base : ℕ) (value : ℤ) (text : List Char) : Prop where
  parse : parseInt base (unpadded text) = some value
  /-- Only a negative number has a sign. -/
  sign : '-' ∈ text ↔ value < 0
  canonical : afmt.zeroPad = false → NoLeadingZero (unpadded text)
  length : (text.length : ℤ) = max afmt.width (naturalLength base value)

/-- The characters that stand for the digits of a base. -/
structure DigitChars (base : ℕ) (char : ℕ → Char) : Prop where
  one_lt : 1 < base
  digit : ∀ d < base, digitValue base (char d) = some d
  zero : char 0 = '0'
  nonzero : ∀ d < base, d ≠ 0 → char d ≠ '0'
  sign : ∀ d < base, char d ≠ '-'
  space : ∀ d < base, char d ≠ ' '

/-- `'0' + d` -/
abbrev decimalDigit (d : ℕ) : Char := Char.ofNat ('0'.toNat + d)

/-- `"0123456789abcdef"[d]` -/
abbrev hexDigit (d : ℕ) : Char := "0123456789abcdef".toList.getD d '0'

lemma decimalDigit_chars : DigitChars 10 decimalDigit := by
  constructor <;> decide

lemma hexDigit_chars : DigitChars 16 hexDigit := by
  constructor <;> decide

lemma hexChar_eq (n : ℕ) : hexChar n = hexDigit (n % 16) := by
  rw [hexChar, hexDigit, show (0xf : ℕ) = 2 ^ 4 - 1 from rfl, Nat.and_two_pow_sub_one_eq_mod]

/-! ### What the functions write -/

lemma Printf.write_eq {out data : List Char} {length : ℤ} (h : length ≤ data.length) :
    Printf.write out data length = .ok (out ++ data.take length.toNat) := if_pos h

/-- The blocks of 32 characters and the rest are `count` characters. -/
lemma printCharRep_eq (out : List Char) (ch : Char) {count : ℤ} (h : 0 ≤ count) :
    printCharRep out ch count = .ok (out ++ List.replicate count.toNat ch) := by
  induction hn : count.toNat using Nat.strong_induction_on generalizing out count with
  | _ n ih =>
    rw [printCharRep]
    split_ifs with hlarge
    · rw [Printf.write_eq (by simp), ok_bind, ih _ (by omega) _ (by omega) rfl, List.append_assoc,
        List.take_of_length_le (by simp), List.replicate_append_replicate]
      congr 3
      omega
    · rw [Printf.write_eq (by rw [List.length_replicate]; omega), List.take_replicate, hn,
        Nat.min_eq_left (by omega)]

/-- The padding in front of `characters` characters. -/
def padding (afmt : FmtSpecifier) (characters : ℤ) : List Char :=
  List.replicate (afmt.width - characters).toNat (if afmt.zeroPad then '0' else ' ')

lemma pad_eq (afmt : FmtSpecifier) (out : List Char) (characters : ℤ) :
    pad afmt out characters = .ok (out ++ padding afmt characters) := by
  rw [pad, padding]
  split_ifs with h
  · exact printCharRep_eq out _ (by omega)
  · exact printCharRep_eq out _ (by omega)
  all_goals rw [Int.toNat_of_nonpos (by omega), List.replicate_zero, List.append_nil]

/-- The digit buffer is large enough, and the numeral is written from it. -/
lemma printNum_eq {base : ℕ} (hbase : 1 < base) (char : ℕ → Char) (out : List Char) {value : ℕ}
    (h : (numeral base value).length < 32) :
    printNum (fun n => char (n % base)) (· / base) out value (numeral base value).length =
      .ok (out ++ (numeral base value).map char) := by
  rw [printNum, store, if_pos (by rwa [List.length_replicate]), inBounds, ok_bind,
    fillDigits_numeral hbase char value _ (by rw [List.length_set, List.length_replicate]; omega),
    inBounds, ok_bind, Printf.write_eq (by rw [List.length_append, List.length_map]; omega),
    Int.toNat_natCast, List.take_left' (List.length_map ..)]

lemma printNumBase10_eq (out : List Char) {value : ℕ} (h : value < 2 ^ 64) :
    printNumBase10 out value (digitCountBase10 value) =
      .ok (out ++ (numeral 10 value).map decimalDigit) := by
  have hlength : (numeral 10 value).length ≤ 20 :=
    length_numeral_le (by decide) (by decide) (h.trans (by decide))
  rw [digitCountBase10, countDigits_eq]
  exact printNum_eq (by decide) decimalDigit out (by omega)

lemma printNumBase16_eq (out : List Char) {value : ℕ} (h : value < 2 ^ 64) :
    printNumBase16 out value (digitCountBase16 value) =
      .ok (out ++ (numeral 16 value).map hexDigit) := by
  have hlength : (numeral 16 value).length ≤ 16 :=
    length_numeral_le (by decide) (by decide) (h.trans_le (by decide))
  have hdigit : hexChar = fun n => hexDigit (n % 16) := funext hexChar_eq
  have hnext : (fun n : ℕ => n >>> 4) = (· / 16) := funext fun n => Nat.shiftRight_eq_div_pow n 4
  rw [digitCountBase16, countDigits_eq, printNumBase16, hdigit, hnext]
  exact printNum_eq (by decide) hexDigit out (by omega)

/-! ### What is read back -/

section Field

variable {base : ℕ} {char : ℕ → Char} {afmt : FmtSpecifier}

/-- A list of digits is read as its value. -/
lemma DigitChars.parseNat_map (hchar : DigitChars base char) {digits : List ℕ}
    (hne : digits ≠ []) (hlt : ∀ d ∈ digits, d < base) :
    parseNat base (digits.map char) = some (value base digits) := by
  have hfold (n : ℕ) : (digits.map char).foldlM (readDigit base) n =
      some (digits.foldl (fun n d => n * base + d) n) := by
    clear hne
    induction digits generalizing n with
    | nil => rfl
    | cons d digits ih =>
      have hd := hchar.digit d (hlt d List.mem_cons_self)
      rw [List.map_cons, List.foldlM_cons, readDigit, hd, List.foldl_cons]
      exact ih (fun d' h => hlt d' (List.mem_cons_of_mem d h)) _
  rw [parseNat, if_neg (by simpa using hne), hfold, value]

/-- The padded digits of a number without its sign. -/
def field (afmt : FmtSpecifier) (base : ℕ) (char : ℕ → Char) (n : ℕ) : List Char :=
  padding afmt (numeral base n).length ++ (numeral base n).map char

lemma length_field (afmt : FmtSpecifier) (n : ℕ) :
    ((field afmt base char n).length : ℤ) = max afmt.width (numeral base n).length := by
  rw [field, padding, List.length_append, List.length_replicate, List.length_map]
  omega

/-- Without the spaces, the padding that is left is zeros. -/
lemma DigitChars.unpadded_field (hchar : DigitChars base char) (n : ℕ) :
    ∃ k, unpadded (field afmt base char n) =
      (List.replicate k 0 ++ numeral base n).map char ∧ (afmt.zeroPad = false → k = 0) := by
  have hdigits : ((numeral base n).map char).filter (· ≠ ' ') = (numeral base n).map char := by
    apply List.filter_eq_self.mpr
    intro c hc
    obtain ⟨d, hd, rfl⟩ := List.mem_map.mp hc
    exact decide_eq_true (hchar.space d (numeral_lt hchar.one_lt hd))
  cases hzero : afmt.zeroPad with
  | true =>
    refine ⟨(afmt.width - (numeral base n).length).toNat, ?_, by simp⟩
    rw [unpadded, field, List.filter_append, hdigits, padding, hzero, List.map_append,
      List.map_replicate, hchar.zero]
    simp
  | false =>
    refine ⟨0, ?_, fun _ => rfl⟩
    rw [unpadded, field, List.filter_append, hdigits, padding, hzero]
    simp

lemma DigitChars.digits_lt (hchar : DigitChars base char) {n k d : ℕ}
    (h : d ∈ List.replicate k 0 ++ numeral base n) : d < base := by
  rcases List.mem_append.mp h with h | h
  · have := List.eq_of_mem_replicate h
    have := hchar.one_lt
    omega
  · exact numeral_lt hchar.one_lt h

/-- The digits of the field are read as the number. -/
lemma DigitChars.parseNat_field (hchar : DigitChars base char) (n : ℕ) :
    parseNat base (unpadded (field afmt base char n)) = some n := by
  obtain ⟨k, heq, -⟩ := @DigitChars.unpadded_field base char afmt hchar n
  rw [heq, hchar.parseNat_map (by simp [numeral_ne_nil]) fun d => hchar.digits_lt,
    value_replicate_append, value_numeral hchar.one_lt]

/-- There is no sign in the field. -/
lemma DigitChars.sign_notMem_field (hchar : DigitChars base char) (n : ℕ) :
    '-' ∉ field afmt base char n := by
  intro h
  have hmem : '-' ∈ unpadded (field afmt base char n) := List.mem_filter.mpr ⟨h, by decide⟩
  obtain ⟨k, heq, -⟩ := @DigitChars.unpadded_field base char afmt hchar n
  rw [heq] at hmem
  obtain ⟨d, hd, hchar'⟩ := List.mem_map.mp hmem
  exact hchar.sign d (hchar.digits_lt hd) hchar'

lemma DigitChars.field_ne_sign (hchar : DigitChars base char) (n : ℕ) (text : List Char) :
    unpadded (field afmt base char n) ≠ '-' :: text := by
  intro h
  have hmem : '-' ∈ unpadded (field afmt base char n) := h ▸ List.mem_cons_self
  exact hchar.sign_notMem_field n (List.mem_of_mem_filter hmem)

/-- Without zero padding, a zero in front is the only digit. -/
lemma DigitChars.field_zero (hchar : DigitChars base char) (hzero : afmt.zeroPad = false) (n : ℕ)
    {text : List Char} (h : unpadded (field afmt base char n) = '0' :: text) : text = [] := by
  obtain ⟨k, heq, hk⟩ := @DigitChars.unpadded_field base char afmt hchar n
  rw [heq, hk hzero, List.replicate_zero, List.nil_append] at h
  obtain ⟨d, digits, hds, hd, rfl⟩ := List.map_eq_cons_iff.mp h
  rcases Nat.eq_zero_or_pos n with rfl | hn
  · rw [numeral_zero] at hds
    injection hds with _ hnil
    rw [← hnil, List.map_nil]
  · have hhead := head_numeral (b := base) n hn.ne' (numeral_ne_nil n)
    simp only [hds, List.head_cons] at hhead
    have hlt : d < base := numeral_lt hchar.one_lt (hds ▸ List.mem_cons_self)
    exact absurd hd (hchar.nonzero d hlt hhead)

/-- A field without a sign shows the number. -/
lemma DigitChars.shows (hchar : DigitChars base char) (n : ℕ) :
    Shows afmt base n (field afmt base char n) := by
  constructor
  · rw [parseInt]
    · rw [hchar.parseNat_field, Option.map_some]
    · exact hchar.field_ne_sign n
  · exact iff_of_false (hchar.sign_notMem_field n) (Int.natCast_nonneg n).not_gt
  · intro hzero
    unfold NoLeadingZero
    split
    · exact absurd ‹_› (hchar.field_ne_sign n _)
    · exact hchar.field_zero hzero n ‹_›
    · trivial
  · rw [length_field, naturalLength, Int.natAbs_natCast, if_neg (by omega), add_zero]

/-- A sign in front of a field that is one shorter shows the opposite number. -/
lemma DigitChars.shows_neg (hchar : DigitChars base char) {n : ℕ} (hn : 0 < n) :
    Shows afmt base (-n) ('-' :: field { afmt with width := afmt.width - 1 } base char n) := by
  have hunpadded (text : List Char) : unpadded ('-' :: text) = '-' :: unpadded text := rfl
  constructor
  · rw [hunpadded, parseInt, hchar.parseNat_field, Option.map_some]
  · exact iff_of_true List.mem_cons_self (by omega)
  · intro hzero
    rw [hunpadded]
    unfold NoLeadingZero
    split
    · rename_i h
      exact @DigitChars.field_zero base char { afmt with width := afmt.width - 1 } hchar hzero n _
        (List.cons.inj h).2
    · rename_i h
      exact absurd (List.cons.inj h).1 (by decide)
    · trivial
  · rw [List.length_cons, Nat.cast_add, length_field, naturalLength, Int.natAbs_neg,
      Int.natAbs_natCast, if_pos (by omega)]
    push_cast
    omega

end Field

/-! ### The number conversions -/

/-- An argument as `print_unsigned` and `print_hex` take it: all of it with a length modifier, and
its lower half otherwise. -/
def unsignedArg (afmt : FmtSpecifier) (arg : Word) : ℕ :=
  if 0 < afmt.length then arg.toNat else arg.toNat % 2 ^ 32

/-- An argument as `print_signed` takes it. -/
def signedArg (afmt : FmtSpecifier) (arg : Word) : ℤ :=
  if 0 < afmt.length then arg.toInt else (arg.setWidth 32).toInt

lemma unsignedArg_lt (afmt : FmtSpecifier) (arg : Word) : unsignedArg afmt arg < 2 ^ 64 := by
  have := arg.isLt
  rw [unsignedArg]
  split_ifs
  · exact this
  · omega

lemma readNumber_eq {afmt : FmtSpecifier} (h : -2 ≤ afmt.length ∧ afmt.length ≤ 2) (arg : Word) :
    ∃ value, readNumber afmt arg = .ok value ∧ value.toNat = unsignedArg afmt arg := by
  rw [readNumber, unsignedArg]
  split_ifs with h1 h2 h3 h4
  · omega
  · refine ⟨_, rfl, ?_⟩
    rw [BitVec.toNat_setWidth_of_le (by decide), BitVec.toNat_setWidth]
  · exact ⟨arg, rfl, rfl⟩
  all_goals omega

lemma readSigned_eq {afmt : FmtSpecifier} (h : -2 ≤ afmt.length ∧ afmt.length ≤ 2) (arg : Word) :
    ∃ value, readSigned afmt arg = .ok value ∧ value.toInt = signedArg afmt arg := by
  rw [readSigned, signedArg]
  split_ifs with h1 h2 h3 h4
  · omega
  · exact ⟨_, rfl, by rw [BitVec.toInt_signExtend_of_le (by decide)]⟩
  · exact ⟨arg, rfl, rfl⟩
  all_goals omega

lemma printUnsigned_eq {afmt : FmtSpecifier} (h : -2 ≤ afmt.length ∧ afmt.length ≤ 2) (arg : Word)
    (out : List Char) : printUnsigned afmt arg out =
      .ok (out ++ field afmt 10 decimalDigit (unsignedArg afmt arg)) := by
  obtain ⟨value, hread, hvalue⟩ := readNumber_eq h arg
  rw [printUnsigned, hread, ok_bind]
  simp only [hvalue]
  rw [pad_eq, ok_bind,
    printNumBase10_eq _ (unsignedArg_lt afmt arg), digitCountBase10, countDigits_eq, field,
    List.append_assoc]

lemma printHex_eq {afmt : FmtSpecifier} (h : -2 ≤ afmt.length ∧ afmt.length ≤ 2) (arg : Word)
    (out : List Char) : printHex afmt arg out =
      .ok (out ++ field afmt 16 hexDigit (unsignedArg afmt arg)) := by
  obtain ⟨value, hread, hvalue⟩ := readNumber_eq h arg
  rw [printHex, hread, ok_bind]
  simp only [hvalue]
  rw [pad_eq, ok_bind,
    printNumBase16_eq _ (unsignedArg_lt afmt arg), digitCountBase16, countDigits_eq, field,
    List.append_assoc]

/-- The magnitude of a negative number, the most negative one included. -/
lemma toNat_neg_of_slt {value : Word} (h : value.slt 0 = true) :
    ((-value).toNat : ℤ) = -value.toInt ∧ 0 < (-value).toNat := by
  have hneg : value.toInt < 0 := by simpa [BitVec.slt] using h
  have hlt := value.isLt
  rw [BitVec.toInt_eq_toNat_cond] at hneg ⊢
  rw [BitVec.toNat_neg]
  split_ifs at hneg ⊢ <;> omega

lemma toNat_of_not_slt {value : Word} (h : value.slt 0 = false) :
    (value.toNat : ℤ) = value.toInt := by
  have hpos : ¬ value.toInt < 0 := by simpa [BitVec.slt] using h
  have hlt := value.isLt
  rw [BitVec.toInt_eq_toNat_cond] at hpos ⊢
  split_ifs at hpos ⊢ <;> omega

lemma printSigned_eq {afmt : FmtSpecifier} (h : -2 ≤ afmt.length ∧ afmt.length ≤ 2) (arg : Word)
    (out : List Char) : ∃ text, printSigned afmt arg out = .ok (out ++ text) ∧
      Shows afmt 10 (signedArg afmt arg) text := by
  obtain ⟨value, hread, hvalue⟩ := readSigned_eq h arg
  rw [printSigned, hread, ok_bind, ← hvalue]
  cases hneg : value.slt 0 with
  | true =>
    obtain ⟨hnat, hpos⟩ := toNat_neg_of_slt hneg
    refine ⟨_, ?_, by
      rw [show value.toInt = -((-value).toNat : ℤ) by omega]
      exact decimalDigit_chars.shows_neg hpos⟩
    simp only [if_true]
    rw [pad_eq, ok_bind, printNumBase10_eq _ (-value).isLt, digitCountBase10, countDigits_eq,
      field, putchar]
    simp only [List.append_assoc, List.cons_append, List.nil_append]
  | false =>
    refine ⟨_, ?_, by
      rw [← toNat_of_not_slt hneg]
      exact decimalDigit_chars.shows value.toNat⟩
    simp only [Bool.false_eq_true, if_false]
    rw [pad_eq, ok_bind, printNumBase10_eq _ value.isLt, digitCountBase10, countDigits_eq,
      field, List.append_assoc]

/-- What the three number conversions write shows the number they were given, and they stay
within their buffers. -/
theorem printedNumber_faithful (afmt : FmtSpecifier) (hlength : -2 ≤ afmt.length ∧ afmt.length ≤ 2)
    (arg : Word) (out : List Char) :
    (∃ text, printSigned afmt arg out = .ok (out ++ text) ∧
      Shows afmt 10 (signedArg afmt arg) text) ∧
    (∃ text, printUnsigned afmt arg out = .ok (out ++ text) ∧
      Shows afmt 10 (unsignedArg afmt arg) text) ∧
    (∃ text, printHex afmt arg out = .ok (out ++ text) ∧
      Shows afmt 16 (unsignedArg afmt arg) text) :=
  ⟨printSigned_eq hlength arg out,
    ⟨_, printUnsigned_eq hlength arg out, decimalDigit_chars.shows _⟩,
    ⟨_, printHex_eq hlength arg out, hexDigit_chars.shows _⟩⟩

/-- The most negative number in a field of 25 characters, padded with zeros. -/
theorem printedNumber_faithful_min :
    ∃ text, printSigned ⟨0, 25, 2, true, false⟩ 0x8000000000000000 [] = .ok text ∧
      Shows ⟨0, 25, 2, true, false⟩ 10 (-0x8000000000000000) text :=
  (printedNumber_faithful ⟨0, 25, 2, true, false⟩ (by decide) 0x8000000000000000 []).1

end Fluke
