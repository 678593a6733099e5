import Fluke.Libc.Vfprintf

/-!
# What a format stands for

A format is a list of pieces, and `render` is what the C standard makes of them. `vfprintf` goes
wrong in three cases: `%%` goes to `stdout`, a minus sign is written as the letter `o`, and a
precision that is no `int` overflows. `vfprintf_renders_iff` says that there are no others.
-/

namespace Fluke.Libc

open Outcome Digits

/-! ### Formats -/

/-- Text without a percent sign, and without the zero that ends a format. -/
abbrev Text := {s : List Byte // ∀ c ∈ s, c ≠ chr '%' ∧ c ≠ 0}

/-- A minimum field width, which does not start with the flag `0`; nothing written is zero. -/
abbrev Width := {ds : List (Fin 10) // ds.head? ≠ some 0}

inductive Precision where
  | digits (ds : List (Fin 10))
  | star

/-- The length modifiers -/
inductive Length where
  | none
  | l
  | ll
  | z

inductive Conversion where
  | d
  | i
  | u
  | x

inductive Piece where
  | text (s : Text)
  | percent
  | number (zero : Bool) (width : Width) (length : Length) (conversion : Conversion)
  | char
  | string (width : Width) (precision : Option Precision)

/-- `'0' + d` -/
def digitByte (d : Fin 10) : Byte := chr '0' + BitVec.ofNat 8 d

def digitsFormat (ds : List (Fin 10)) : List Byte := ds.map digitByte

/-- The number that digits stand for, after those that stand for `n`. -/
def accumulate (n : ℕ) (ds : List (Fin 10)) : ℕ := ds.foldl (fun n d => n * 10 + d.val) n

def Precision.format : Precision → List Byte
  | .digits ds => digitsFormat ds
  | .star => [chr '*']

def Length.format : Length → List Byte
  | .none => []
  | .l => [chr 'l']
  | .ll => [chr 'l', chr 'l']
  | .z => [chr 'z']

def Conversion.format : Conversion → Byte
  | .d => chr 'd'
  | .i => chr 'i'
  | .u => chr 'u'
  | .x => chr 'x'

/-- What follows the percent sign of a conversion. -/
def Piece.directive : Piece → List Byte
  | .text _ => []
  | .percent => [chr '%']
  | .number zero width length conversion =>
    (if zero then [chr '0'] else []) ++ digitsFormat width ++ length.format ++ [conversion.format]
  | .char => [chr 'c']
  | .string width precision =>
    digitsFormat width ++ (precision.elim [] fun p => chr '.' :: p.format) ++ [chr 's']

def Piece.format : Piece → List Byte
  | .text s => s
  | p => chr '%' :: p.directive

/-- The characters of a format. -/
def format (pieces : List Piece) : List Byte := pieces.flatMap Piece.format

/-! ### Their meaning -/

/-- The number a conversion prints: the whole argument with a length modifier, and an `int` or an
`unsigned` otherwise. -/
def Conversion.argument (conversion : Conversion) (length : Length) (arg : Arg) : ℤ :=
  match conversion, length with
  | .d, .none | .i, .none => (arg.bits.setWidth 32).toInt
  | .d, _ | .i, _ => arg.bits.toInt
  | .u, .none | .x, .none => (arg.bits.setWidth 32).toNat
  | .u, _ | .x, _ => arg.bits.toNat

def Conversion.base : Conversion → ℕ
  | .x => 16
  | _ => 10

/-- The digits of the bases up to 16 -/
def digitChar (d : ℕ) : Byte := ("0123456789abcdef".toList.map chr).getD d 0

/-- Justify to the right: spaces go in front of the sign, zeros after it. -/
def justify (zero : Bool) (width : ℕ) (sign digits : List Byte) : List Byte :=
  let missing := width - (sign.length + digits.length)
  if zero then sign ++ List.replicate missing (chr '0') ++ digits
  else List.replicate missing (chr ' ') ++ sign ++ digits

/-- The string that stands in an array, or its first `limit` characters. There is none when the
array ends before it. -/
def cstring (limit : Option ℕ) (array : List Byte) : Option (List Byte) :=
  let s := array.takeWhile (· ≠ 0)
  match limit with
  | none => if 0 ∈ array then some s else none
  | some n => if 0 ∈ array ∨ n ≤ array.length then some (s.take n) else none

/-- The precision of a string: nothing when none is given, or a negative one. -/
def Precision.limit : Option Precision → List Arg → Option (Option ℕ × List Arg)
  | none, args => some (none, args)
  | some (.digits ds), args => some (some (accumulate 0 ds), args)
  | some .star, arg :: args => some (if arg.int < 0 then none else some arg.int.toNat, args)
  | some .star, [] => none

/-- What a piece is rendered as, and the arguments after it; nothing when its arguments do not
match. -/
def Piece.render : Piece → List Arg → Option (List Byte × List Arg)
  | .text s, args => some (s, args)
  | .percent, args => some ([chr '%'], args)
  | .number zero width length conversion, arg :: args =>
    let value := conversion.argument length arg
    let digits := (numeral conversion.base value.natAbs).map digitChar
    some (justify zero (accumulate 0 width) (if value < 0 then [chr '-'] else []) digits, args)
  | .char, arg :: args => some ([arg.bits.setWidth 8], args)
  | .string width precision, args => do
    let (limit, args) ← Precision.limit precision args
    match args with
    | [] => none
    | arg :: args =>
      let s ← cstring limit arg.string
      some (justify false (accumulate 0 width) [] s, args)
  | _, [] => none

/-- What a format is rendered as with its arguments. -/
def render : List Piece → List Arg → Option (List Byte)
  | [], _ => some []
  | piece :: pieces, args => do
    let (s, args) ← piece.render args
    let rest ← render pieces args
    some (s ++ rest)

/-! ### Where `vfprintf` does as the standard says -/

/-- The piece is not the percent sign, does not print a negative number, and its precision is an
`int`. -/
def Piece.Faultless : Piece → List Arg → Prop
  | .percent, _ => False
  | .number _ _ length conversion, args => ∀ arg ∈ args.head?, 0 ≤ conversion.argument length arg
  | .string _ (some (.digits ds)), _ => accumulate 0 ds ≤ intMax
  | _, _ => True

/-- Every piece of the format is faultless, with the arguments it prints. -/
def Faultless : List Piece → List Arg → Prop
  | [], _ => True
  | piece :: pieces, args =>
    piece.Faultless args ∧ ∀ r ∈ piece.render args, Faultless pieces r.2

/-- `vfprintf` does what the standard says: `rendering` goes to the stream, nothing to any other,
and its length is returned. -/
def Renders (s : Streams) (f : FileId) (fmt : List Byte) (args : List Arg)
    (rendering : List Byte) : Prop :=
  ∃ s' : Streams, vfprintf s f fmt args = some ((rendering.length : ℤ), s') ∧
    (s'.files f).sent = (s.files f).sent ++ rendering ∧
    ∀ g, g ≠ f → (s'.files g).sent = (s.files g).sent

/-! ### Writing -/

/-- `t` has been written to the stream of the output and nothing else has changed. The stream still
accepts everything. -/
structure Wrote (o : Output) (t : List Byte) (o' : Output) : Prop where
  f : o'.f = o.f
  printed : o'.printed = o.printed + t.length
  sent : (o'.streams.files o'.f).sent = (o.streams.files o.f).sent ++ t
  others : ∀ g, g ≠ o.f → o'.streams.files g = o.streams.files g
  stdout : o'.streams.stdout = o.streams.stdout
  accepts : none ∉ (o'.streams.files o'.f).writes

/-- The stream of the output accepts everything, and there is room for `n` characters more. -/
structure Room (o : Output) (n : ℕ) : Prop where
  accepts : none ∉ (o.streams.files o.f).writes
  le : o.printed + n ≤ intMax

lemma Room.mono {o : Output} {m n : ℕ} (h : Room o n) (hmn : m ≤ n) : Room o m :=
  ⟨h.accepts, by have := h.le; omega⟩

lemma Room.after {o o' : Output} {t : List Byte} {m n : ℕ} (h : Room o n) (hw : Wrote o t o')
    (hmn : t.length + m ≤ n) : Room o' m :=
  ⟨hw.accepts, by have := h.le; rw [hw.printed]; omega⟩

lemma Wrote.refl {o : Output} {n : ℕ} (h : Room o n) : Wrote o [] o :=
  ⟨rfl, rfl, (List.append_nil _).symm, fun _ _ => rfl, rfl, h.accepts⟩

lemma Wrote.trans {o o' o'' : Output} {t u : List Byte} (h : Wrote o t o') (h' : Wrote o' u o'') :
    Wrote o (t ++ u) o'' := by
  constructor
  · rw [h'.f, h.f]
  · rw [h'.printed, h.printed, List.length_append, Nat.add_assoc]
  · rw [h'.sent, h.sent, List.append_assoc]
  · intro g hg
    rw [h'.others g (h.f ▸ hg), h.others g hg]
  · rw [h'.stdout, h.stdout]
  · exact h'.accepts

/-- `x` writes `t`. -/
def Writes (o : Output) (t : List Byte) : Except Exit Output → Prop :=
  Ensures (fun _ => False) (Wrote o t)

/-- One write after the other. -/
lemma Writes.bind {o : Output} {t u : List Byte} {x : Except Exit Output}
    {f : Output → Except Exit Output} (hx : Writes o t x)
    (hf : ∀ o', Wrote o t o' → Writes o' u (f o')) : Writes o (t ++ u) (x >>= f) :=
  Ensures.bind hx fun o' ho' => (hf o' ho').imp fun _ h => ho'.trans h

/-- `_fwrite` writes its data to a stream that accepts everything. -/
lemma fwrite_writes {o : Output} {buf : List Byte} {len : ℕ} (h : Room o len)
    (hlen : len ≤ buf.length) : Writes o (buf.take len) (_fwrite o buf len) := by
  obtain ⟨count, used, file, heq, haccepts⟩ := libcWrite_spec (o.streams.files o.f) buf len
  have hused : none ∉ used := by
    intro hmem
    exact h.accepts (haccepts.writes ▸ List.mem_append_left _ hmem)
  have hcount : count = len := haccepts.whole.mpr hused
  subst hcount
  have hroom := h.le
  rw [_fwrite, if_neg (by omega), heq]
  dsimp only
  rw [if_neg (by simp), if_neg (by omega)]
  constructor
  · rfl
  · show o.printed + count = _
    rw [List.length_take_of_le hlen]
  · dsimp only
    rw [Streams.setFile_files, haccepts.sent]
  · intro g hg
    exact Streams.setFile_files_of_ne _ _ hg
  · rfl
  · dsimp only
    rw [Streams.setFile_files]
    intro hmem
    exact h.accepts (haccepts.writes ▸ List.mem_append_right _ hmem)

lemma fwrite_writes_all {o : Output} {buf : List Byte} (h : Room o buf.length) :
    Writes o buf (_fwrite o buf buf.length) := by
  have := fwrite_writes h le_rfl
  rwa [List.take_length] at this

lemma printCharRep_writes {o : Output} (ch : Byte) {count : ℤ} (hcount : 0 ≤ count)
    (h : Room o count.toNat) :
    Writes o (List.replicate count.toNat ch) (printCharRep o ch count) := by
  induction hn : count.toNat using Nat.strong_induction_on generalizing o count with
  | _ n ih =>
    rw [printCharRep]
    split_ifs with hlarge
    · have hn' : n = 16 + (count - 16).toNat := by omega
      rw [hn', ← List.replicate_append_replicate]
      have hfirst : Writes o (List.replicate 16 ch) (_fwrite o (List.replicate 16 ch) 16) :=
        fwrite_writes_all (h.mono (by rw [List.length_replicate]; omega))
      refine hfirst.bind fun o' ho' => ?_
      exact ih _ (by omega) (by omega) (h.after ho' (by rw [List.length_replicate]; omega)) rfl
    · have := @fwrite_writes o (List.replicate 16 ch) _ (h.mono (m := n) (by omega))
        (by rw [List.length_replicate]; omega)
      rw [List.take_replicate, Nat.min_eq_left (by omega)] at this
      rwa [hn]

/-- The padding in front of `characters` characters. -/
def padding (afmt : FmtSpecifier) (characters : ℤ) : List Byte :=
  List.replicate (afmt.width - characters).toNat (if afmt.zeroPad then chr '0' else chr ' ')

lemma pad_writes {o : Output} {afmt : FmtSpecifier} {characters : ℤ}
    (h : Room o (padding afmt characters).length) :
    Writes o (padding afmt characters) (pad o afmt characters) := by
  rw [padding, List.length_replicate] at h
  rw [pad, padding]
  by_cases hwidth : afmt.width > characters
  · rw [if_pos hwidth]
    exact printCharRep_writes _ (by omega) h
  · rw [if_neg hwidth, Int.toNat_of_nonpos (by omega), List.replicate_zero]
    exact Wrote.refl h

lemma printNum_writes {base : ℕ} (hbase : 1 < base) {char : ℕ → Byte} {o : Output} {value : ℕ}
    (hsmall : (numeral base value).length < 32) (h : Room o (numeral base value).length) :
    Writes o ((numeral base value).map char)
      (printNum (fun n => char (n % base)) (· / base) o value (numeral base value).length) := by
  rw [printNum, store, if_pos (by rwa [List.length_replicate]), access, ok_bind,
    fillDigits_numeral hbase char value _ (by rw [List.length_set, List.length_replicate]; omega),
    access, ok_bind]
  have := @fwrite_writes o ((numeral base value).map char ++
    ((List.replicate 32 0).set (numeral base value).length 0).drop (numeral base value).length) _ h
    (by rw [List.length_append, List.length_map]; omega)
  rwa [List.take_left' (List.length_map ..)] at this

/-! ### Conversions -/

lemma decimalChar_eq (n : ℕ) : decimalChar n = digitChar (n % 10) := by
  have hdigit : ∀ d < 10, chr '0' + BitVec.ofNat 8 d = digitChar d := by decide
  exact hdigit (n % 10) (Nat.mod_lt n (by decide))

lemma hexChar_eq (n : ℕ) : hexChar n = digitChar (n % 16) := by
  rw [hexChar, digitChar, show (0xf : ℕ) = 2 ^ 4 - 1 from rfl, Nat.and_two_pow_sub_one_eq_mod]

lemma printNumBase10_writes {o : Output} {value : ℕ} (hvalue : value < 2 ^ 64)
    (h : Room o (numeral 10 value).length) :
    Writes o ((numeral 10 value).map digitChar)
      (printNumBase10 o value (digitCountBase10 value)) := by
  have hlength : (numeral 10 value).length ≤ 20 :=
    length_numeral_le (by decide) (by decide) (hvalue.trans (by decide))
  rw [digitCountBase10, countDigits_eq, printNumBase10, funext decimalChar_eq]
  exact printNum_writes (by decide) (by omega) h

lemma printNumBase16_writes {o : Output} {value : ℕ} (hvalue : value < 2 ^ 64)
    (h : Room o (numeral 16 value).length) :
    Writes o ((numeral 16 value).map digitChar)
      (printNumBase16 o value (digitCountBase16 value)) := by
  have hlength : (numeral 16 value).length ≤ 16 :=
    length_numeral_le (by decide) (by decide) (hvalue.trans_le (by decide))
  have hnext : (fun n : ℕ => n >>> 4) = (· / 16) := funext fun n => Nat.shiftRight_eq_div_pow n 4
  rw [digitCountBase16, countDigits_eq, printNumBase16, funext hexChar_eq, hnext]
  exact printNum_writes (by decide) (by omega) h

lemma length_justify (zero : Bool) (width : ℕ) (sign digits : List Byte) :
    (justify zero width sign digits).length = max width (sign.length + digits.length) := by
  cases zero <;> simp [justify] <;> omega

/-- Without a sign, the padding stands in front either way. -/
lemma justify_eq_padding {afmt : FmtSpecifier} (hwidth : 0 ≤ afmt.width) (digits : List Byte) :
    justify afmt.zeroPad afmt.width.toNat [] digits = padding afmt digits.length ++ digits := by
  have hmissing : afmt.width.toNat - digits.length = (afmt.width - digits.length).toNat := by omega
  rw [justify, padding, List.length_nil, zero_add, hmissing]
  cases afmt.zeroPad with
  | true => rfl
  | false => rw [if_neg Bool.false_ne_true, if_neg Bool.false_ne_true, List.append_nil]

/-- The letter that is written for a minus sign makes a difference. -/
lemma justify_ne_cons (zero : Bool) (width : ℕ) (digits t : List Byte) :
    chr 'o' :: t ≠ justify zero width [chr '-'] digits := by
  have hhead (n : ℕ) :
      (List.replicate n (chr ' ') ++ [chr '-'] ++ digits).head? ≠ some (chr 'o') := by
    cases n with
    | zero =>
      show some (chr '-') ≠ some (chr 'o')
      decide
    | succ n =>
      show some (chr ' ') ≠ some (chr 'o')
      decide
  intro h
  rw [justify] at h
  cases zero with
  | true => exact absurd (List.cons.inj h).1 (by decide)
  | false => exact hhead _ (congrArg List.head? h).symm

/-- `x` writes `t` and leaves the arguments `args`. -/
def Converts (o : Output) (t : List Byte) (args : List Arg) :
    Except Exit (Output × List Arg) → Prop :=
  Ensures (fun _ => False) fun p => Wrote o t p.1 ∧ p.2 = args

/-- The last steps of a conversion. -/
lemma Writes.converts {o : Output} {t : List Byte} {args : List Arg} {x : Except Exit Output}
    (h : Writes o t x) : Converts o t args (x >>= fun o => .ok (o, args)) :=
  Ensures.bind h fun _ ho => ⟨ho, rfl⟩

lemma Converts.cons {o o' : Output} {t u : List Byte} {args : List Arg}
    {x : Except Exit (Output × List Arg)} (h : Wrote o t o') (hx : Converts o' u args x) :
    Converts o (t ++ u) args x :=
  hx.imp fun _ hp => ⟨h.trans hp.1, hp.2⟩

section Field

variable {o : Output} {afmt : FmtSpecifier} {value : ℕ} {args : List Arg}

/-- The padding and the digits of a number without its sign. -/
lemma field10_converts (hvalue : value < 2 ^ 64)
    (h : Room o (padding afmt (numeral 10 value).length ++
      (numeral 10 value).map digitChar).length) :
    Converts o (padding afmt (numeral 10 value).length ++ (numeral 10 value).map digitChar) args
      (pad o afmt (digitCountBase10 value) >>= fun o =>
        printNumBase10 o value (digitCountBase10 value) >>= fun o => .ok (o, args)) := by
  rw [List.length_append, List.length_map] at h
  rw [digitCountBase10, countDigits_eq]
  apply Ensures.bind (pad_writes (h.mono (Nat.le_add_right _ _)))
  intro o' ho'
  have hdigits := printNumBase10_writes hvalue (h.after ho' le_rfl)
  rw [digitCountBase10, countDigits_eq] at hdigits
  exact hdigits.converts.cons ho'

lemma field16_converts (hvalue : value < 2 ^ 64)
    (h : Room o (padding afmt (numeral 16 value).length ++
      (numeral 16 value).map digitChar).length) :
    Converts o (padding afmt (numeral 16 value).length ++ (numeral 16 value).map digitChar) args
      (pad o afmt (digitCountBase16 value) >>= fun o =>
        printNumBase16 o value (digitCountBase16 value) >>= fun o => .ok (o, args)) := by
  rw [List.length_append, List.length_map] at h
  rw [digitCountBase16, countDigits_eq]
  apply Ensures.bind (pad_writes (h.mono (Nat.le_add_right _ _)))
  intro o' ho'
  have hdigits := printNumBase16_writes hvalue (h.after ho' le_rfl)
  rw [digitCountBase16, countDigits_eq] at hdigits
  exact hdigits.converts.cons ho'

/-- The value that `print_unsigned` and `print_hex` take. -/
def unsignedArg (afmt : FmtSpecifier) (arg : Arg) : ℕ :=
  if afmt.length > 0 then arg.bits.toNat else (arg.bits.setWidth 32).toNat

lemma unsignedArg_lt (afmt : FmtSpecifier) (arg : Arg) : unsignedArg afmt arg < 2 ^ 64 := by
  rw [unsignedArg]
  split_ifs
  · exact arg.bits.isLt
  · exact (arg.bits.setWidth 32).isLt.trans (by decide)

lemma readNumber_eq (afmt : FmtSpecifier) (arg : Arg) (args : List Arg) :
    readNumber afmt (arg :: args) = .ok (unsignedArg afmt arg, args) := by
  rw [readNumber, vaArg, ok_bind, unsignedArg]
  split_ifs <;> rfl

lemma printUnsigned_converts {arg : Arg} (hwidth : 0 ≤ afmt.width)
    (h : Room o (justify afmt.zeroPad afmt.width.toNat []
      ((numeral 10 (unsignedArg afmt arg)).map digitChar)).length) :
    Converts o (justify afmt.zeroPad afmt.width.toNat []
      ((numeral 10 (unsignedArg afmt arg)).map digitChar)) args
      (printUnsigned o afmt (arg :: args)) := by
  rw [justify_eq_padding hwidth, List.length_map] at h ⊢
  rw [printUnsigned, readNumber_eq, ok_bind]
  exact field10_converts (unsignedArg_lt afmt arg) h

lemma printHex_converts {arg : Arg} (hwidth : 0 ≤ afmt.width)
    (h : Room o (justify afmt.zeroPad afmt.width.toNat []
      ((numeral 16 (unsignedArg afmt arg)).map digitChar)).length) :
    Converts o (justify afmt.zeroPad afmt.width.toNat []
      ((numeral 16 (unsignedArg afmt arg)).map digitChar)) args
      (printHex o afmt (arg :: args)) := by
  rw [justify_eq_padding hwidth, List.length_map] at h ⊢
  rw [printHex, readNumber_eq, ok_bind]
  exact field16_converts (unsignedArg_lt afmt arg) h

/-- The value that `print_signed` takes. -/
def signedArg (afmt : FmtSpecifier) (arg : Arg) : BitVec 64 :=
  if afmt.length > 0 then arg.bits else (arg.bits.setWidth 32).signExtend 64

/-- What `print_signed` writes has the right length, and it is right unless the number is
negative. -/
lemma printSigned_converts {arg : Arg} (hwidth : 0 ≤ afmt.width) (hwidth' : afmt.width ≤ intMax) :
    let value := (signedArg afmt arg).toInt
    let s := justify afmt.zeroPad afmt.width.toNat (if value < 0 then [chr '-'] else [])
      ((numeral 10 value.natAbs).map digitChar)
    Room o s.length → ∃ t, t.length = s.length ∧ (t = s ↔ 0 ≤ value) ∧
      Converts o t args (printSigned o afmt (arg :: args)) := by
  intro value s h
  have hlt := (signedArg afmt arg).isLt
  have hvalue : value = (signedArg afmt arg).toInt := rfl
  have hcond := BitVec.toInt_eq_toNat_cond (signedArg afmt arg)
  rw [printSigned, vaArg, ok_bind]
  dsimp only
  rw [← signedArg]
  cases hneg : (signedArg afmt arg).slt 0 with
  | true =>
    have hlt0 : value < 0 := by simpa [BitVec.slt] using hneg
    have hnat : (-signedArg afmt arg).toNat = value.natAbs := by
      rw [BitVec.toNat_neg]
      split_ifs at hcond <;> omega
    set afmt' : FmtSpecifier := { afmt with width := afmt.width - 1 } with hafmt'
    have hs : s = justify afmt.zeroPad afmt.width.toNat [chr '-']
        ((numeral 10 value.natAbs).map digitChar) := by
      show justify _ _ (if value < 0 then _ else _) _ = _
      rw [if_pos hlt0]
    have hlength : (chr 'o' :: (padding afmt' (numeral 10 value.natAbs).length ++
        (numeral 10 value.natAbs).map digitChar)).length = s.length := by
      rw [hs, length_justify, List.length_cons, List.length_append, padding,
        List.length_replicate, List.length_map, List.length_singleton]
      dsimp only [afmt']
      omega
    refine ⟨_, hlength, ?_, ?_⟩
    · rw [hs]
      exact ⟨fun h => absurd h (justify_ne_cons _ _ _ _), fun h => absurd hlt0 (by omega)⟩
    · rw [← hlength, List.length_cons] at h
      have hsign : Writes o [chr 'o'] (_fwritec o (chr 'o')) :=
        fwrite_writes_all (h.mono (by simp))
      have hmax : (intMax : ℤ) = 2 ^ 31 - 1 := rfl
      simp only [if_true]
      apply Ensures.bind hsign
      intro o' ho'
      rw [checkInt, if_pos (by omega), ok_bind, ok_bind]
      dsimp only
      rw [hnat, ← hafmt']
      exact (field10_converts (by omega) (h.after ho' (by simp; omega))).cons ho'
  | false =>
    have hge : ¬ value < 0 := by simpa [BitVec.slt] using hneg
    have hnat : (signedArg afmt arg).toNat = value.natAbs := by
      split_ifs at hcond <;> omega
    have hs : s = padding afmt (numeral 10 value.natAbs).length ++
        (numeral 10 value.natAbs).map digitChar := by
      show justify _ _ (if value < 0 then _ else _) _ = _
      rw [if_neg hge, justify_eq_padding hwidth, List.length_map]
    refine ⟨s, rfl, by simp; omega, ?_⟩
    rw [hs] at h ⊢
    simp only [Bool.false_eq_true, if_false]
    rw [ok_bind]
    dsimp only
    rw [hnat]
    exact field10_converts (by omega) h

end Field

/-! ### Strings -/

lemma strlen_eq (s : List Byte) :
    strlen s = if 0 ∈ s then some (s.takeWhile (· ≠ 0)).length else none := by
  induction s with
  | nil => rfl
  | cons c s ih =>
    rw [strlen]
    by_cases hc : c = 0
    · rw [if_pos hc, if_pos (hc ▸ List.mem_cons_self),
        List.takeWhile_cons_of_neg (by simpa using hc)]
      rfl
    · have hmem : 0 ∈ c :: s ↔ 0 ∈ s := by
        rw [List.mem_cons, or_iff_right (Ne.symm hc)]
      rw [if_neg hc, ih, List.takeWhile_cons_of_pos (by simpa using hc), if_congr hmem rfl rfl]
      split_ifs <;> rfl

lemma strnlen_eq (s : List Byte) (n : ℕ) :
    strnlen s n =
      if 0 ∈ s ∨ n ≤ s.length then some (min n (s.takeWhile (· ≠ 0)).length) else none := by
  induction s generalizing n with
  | nil => cases n <;> rfl
  | cons c s ih =>
    cases n with
    | zero => rw [strnlen, if_pos (Or.inr (Nat.zero_le _)), Nat.zero_min]
    | succ n =>
      rw [strnlen]
      by_cases hc : c = 0
      · rw [if_pos hc, if_pos (Or.inl (hc ▸ List.mem_cons_self)),
          List.takeWhile_cons_of_neg (by simpa using hc)]
        rfl
      · have hmem : 0 ∈ c :: s ∨ n + 1 ≤ (c :: s).length ↔ 0 ∈ s ∨ n ≤ s.length := by
          rw [List.mem_cons, or_iff_right (Ne.symm hc), List.length_cons, Nat.succ_le_succ_iff]
        rw [if_neg hc, ih, List.takeWhile_cons_of_pos (by simpa using hc), if_congr hmem rfl rfl,
          List.length_cons]
        split_ifs
        · rw [Option.map_some, Nat.succ_min_succ]
        · rfl

/-- The characters before the zero are the front of the array. -/
lemma take_length_takeWhile (s : List Byte) (n : ℕ) :
    s.take (min n (s.takeWhile (· ≠ 0)).length) = (s.takeWhile (· ≠ 0)).take n := by
  have hfront : s.take (s.takeWhile (· ≠ 0)).length = s.takeWhile (· ≠ 0) :=
    (List.prefix_iff_eq_take.mp (List.takeWhile_prefix _)).symm
  rw [← List.take_take, hfront]

/-- A precision as `print_string` finds it. -/
def PrecisionOf (afmt : FmtSpecifier) (limit : Option ℕ) : Prop :=
  match limit with
  | none => afmt.hasPrecision = false ∨ (afmt.hasPrecision = true ∧
      -2 ^ 31 ≤ afmt.precision ∧ afmt.precision < 0)
  | some n => afmt.hasPrecision = true ∧ afmt.precision = n ∧ n < 2 ^ 31

/-- `strlen` or `strnlen` finds the end of the string. -/
lemma strlen_cstring {afmt : FmtSpecifier} {limit : Option ℕ} (hlimit : PrecisionOf afmt limit)
    {array s : List Byte} (hs : cstring limit array = some s) (hlen : s.length ≤ intMax) :
    (if afmt.hasPrecision then strnlen array (afmt.precision % 2 ^ 64).toNat else strlen array) =
      some s.length ∧ array.take s.length = s ∧ s.length ≤ array.length := by
  have hfront : array.take (array.takeWhile (· ≠ 0)).length = array.takeWhile (· ≠ 0) :=
    (List.prefix_iff_eq_take.mp (List.takeWhile_prefix _)).symm
  have hle : (array.takeWhile (· ≠ 0)).length ≤ array.length := (List.takeWhile_prefix _).length_le
  have hmax : intMax = 2 ^ 31 - 1 := rfl
  cases limit with
  | none =>
    rw [cstring] at hs
    split_ifs at hs with hzero
    cases hs
    refine ⟨?_, hfront, hle⟩
    rcases hlimit with h | ⟨h, hlow, hneg⟩
    · rw [h, if_neg Bool.false_ne_true, strlen_eq, if_pos hzero]
    · rw [h, if_pos rfl, strnlen_eq, if_pos (Or.inl hzero), Nat.min_eq_right (by omega)]
  | some n =>
    obtain ⟨h, hn, hsmall⟩ := hlimit
    rw [cstring] at hs
    split_ifs at hs with hzero
    cases hs
    have hmod : (afmt.precision % 2 ^ 64).toNat = n := by omega
    rw [h, if_pos rfl, hmod, strnlen_eq, if_pos hzero, List.length_take]
    exact ⟨rfl, take_length_takeWhile array n, by omega⟩

lemma printString_converts {o : Output} {afmt : FmtSpecifier} {limit : Option ℕ} {arg : Arg}
    {args : List Arg} {s : List Byte} (hwidth : 0 ≤ afmt.width) (hzero : afmt.zeroPad = false)
    (hlimit : PrecisionOf afmt limit) (hs : cstring limit arg.string = some s)
    (h : Room o (justify false afmt.width.toNat [] s).length) :
    Converts o (justify false afmt.width.toNat [] s) args
      (printString o afmt (arg :: args)) := by
  have hlen : s.length ≤ intMax := by
    have := h.le
    rw [length_justify, List.length_nil] at this
    omega
  obtain ⟨hlength, htake, hle⟩ := strlen_cstring hlimit hs hlen
  rw [← hzero, justify_eq_padding hwidth] at h ⊢
  rw [List.length_append] at h
  rw [printString, vaArg, ok_bind]
  dsimp only
  rw [hlength, access, ok_bind, if_neg (by omega)]
  apply Ensures.bind (pad_writes (h.mono (Nat.le_add_right _ _)))
  intro o' ho'
  have hwrite := fwrite_writes (h.after ho' le_rfl) hle
  rw [htake] at hwrite
  exact hwrite.converts.cons ho'

lemma printChar_converts {o : Output} {arg : Arg} {args : List Arg} (h : Room o 1) :
    Converts o [arg.bits.setWidth 8] args (printChar o (arg :: args)) := by
  rw [printChar, vaArg, ok_bind]
  have hwrite : Writes o [arg.bits.setWidth 8] (_fwritec o (arg.bits.setWidth 8)) :=
    fwrite_writes_all h
  exact hwrite.converts

end Fluke.Libc
