import Fluke.Library.Outcome
import Fluke.Library.Digits
import Fluke.Libc.Block

/-!
# Formatted output

`vfprintf` writes piece by piece to a `FILE` and leaves with `_longjmp` when something goes wrong;
`Exit.thrown` is that way out. A format is what stands before its terminating zero.
-/

namespace Fluke.Libc

open Outcome Digits

/-- `EINVAL` -/
abbrev EINVAL : ℕ := 1

/-- The address of a `FILE` -/
abbrev FileId := ℕ

/-- The streams of a program. -/
structure Streams where
  files : FileId → OutFile
  stdout : FileId
  errno : ℕ

/-- `struct output` -/
structure Output where
  streams : Streams
  f : FileId
  printed : ℕ

/-- How a function is left without returning. -/
inductive Exit where
  /-- `_longjmp` to `vfprintf` -/
  | thrown (o : Output)
  /-- Not an exit of the source: an `int` overflows, an array is left, or there is no such
  argument, and what follows is undefined. -/
  | undefined

/-- An argument: what its slot holds, and the characters that stand where it points to. -/
structure Arg where
  bits : BitVec 64
  string : List Byte

/-- `struct fmt_specifier` -/
structure FmtSpecifier where
  precision : ℤ
  width : ℤ
  length : ℤ
  zeroPad : Bool
  hasPrecision : Bool
  deriving DecidableEq, Repr

/-- `enum { FLAG, WIDTH, PRECISION }` -/
inductive FmtState where
  | flag
  | width
  | precision
  deriving DecidableEq, Repr

/-- A character as a byte. -/
def chr (c : Char) : Byte := BitVec.ofNat 8 c.toNat

/-- The result of an operation on `int`, where it has one. -/
def checkInt (n : ℤ) : Except Exit ℤ :=
  if -2 ^ 31 ≤ n ∧ n < 2 ^ 31 then .ok n else .error .undefined

/-- An access to an array, which is undefined when it is out of its bounds. -/
def access {α : Type} (x : Option α) : Except Exit α :=
  match x with
  | some a => .ok a
  | none => .error .undefined

/-- `va_arg` -/
def vaArg : List Arg → Except Exit (Arg × List Arg)
  | [] => .error .undefined
  | arg :: args => .ok (arg, args)

/-- An `int` in the slot of an argument. -/
def Arg.int (arg : Arg) : ℤ := (arg.bits.setWidth 32).toInt

/-- `strlen`; nothing when no zero ends the string. -/
def strlen : List Byte → Option ℕ
  | [] => none
  | c :: s => if c = 0 then some 0 else (strlen s).map (· + 1)

/-- `strnlen` -/
def strnlen : List Byte → ℕ → Option ℕ
  | _, 0 => some 0
  | [], _ + 1 => none
  | c :: s, n + 1 => if c = 0 then some 0 else (strnlen s n).map (· + 1)

/-- `FILE` number `f` becomes `file`. -/
def Streams.setFile (s : Streams) (f : FileId) (file : OutFile) : Streams :=
  { s with files := Function.update s.files f file }

lemma Streams.setFile_files (s : Streams) (f : FileId) (file : OutFile) :
    (s.setFile f file).files f = file := Function.update_self ..

lemma Streams.setFile_files_of_ne (s : Streams) {f g : FileId} (file : OutFile) (h : g ≠ f) :
    (s.setFile f file).files g = s.files g := Function.update_of_ne h ..

/-- `error` -/
def error {α : Type} (o : Output) (errc : ℕ) : Except Exit α :=
  .error (.thrown { o with streams := { o.streams with errno := errc } })

/-- `_fwrite` -/
def _fwrite (o : Output) (buf : List Byte) (len : ℕ) : Except Exit Output :=
  if buf.length < len then .error .undefined
  else
    let (count, file) := libcWrite (o.streams.files o.f) buf len
    let o := { o with streams := o.streams.setFile o.f file }
    if count ≠ len then .error (.thrown o)
    else
      let o := { o with printed := o.printed + len }
      if o.printed > intMax then error o EOVERFLOW else .ok o

/-- `_fwritec` -/
def _fwritec (o : Output) (c : Byte) : Except Exit Output := _fwrite o [c] 1

/-- `putchar`, whose result the caller ignores -/
def putchar (o : Output) (c : Byte) : Output :=
  let (_, file) := libcWrite (o.streams.files o.streams.stdout) [c] 1
  { o with streams := o.streams.setFile o.streams.stdout file }

/-- `digit_count_base_10` -/
def digitCountBase10 (value : ℕ) : ℕ := countDigits 10 one_lt_ten value

/-- `digit_count_base_16` -/
def digitCountBase16 (value : ℕ) : ℕ := countDigits 16 one_lt_sixteen value

/-- `'0' + (value % 10)` -/
def decimalChar (value : ℕ) : Byte := chr '0' + BitVec.ofNat 8 (value % 10)

/-- `"0123456789abcdef"[value & 0xf]` -/
def hexChar (value : ℕ) : Byte := ("0123456789abcdef".toList.map chr).getD (value &&& 0xf) 0

/-- The body of `print_num_base_10` and `print_num_base_16`. -/
def printNum (digit : ℕ → Byte) (next : ℕ → ℕ) (o : Output) (value digits : ℕ) :
    Except Exit Output := do
  let buffer ← access (store (List.replicate 32 0) digits 0)
  let buffer ← access (fillDigits digit next digits value buffer)
  _fwrite o buffer digits

/-- `print_num_base_10` -/
def printNumBase10 : Output → ℕ → ℕ → Except Exit Output := printNum decimalChar (· / 10)

/-- `print_num_base_16` -/
def printNumBase16 : Output → ℕ → ℕ → Except Exit Output := printNum hexChar (· >>> 4)

/-- `print_char_rep` -/
def printCharRep (o : Output) (ch : Byte) (count : ℤ) : Except Exit Output :=
  if 16 ≤ count then do
    let o ← _fwrite o (List.replicate 16 ch) 16
    printCharRep o ch (count - 16)
  else _fwrite o (List.replicate 16 ch) count.toNat
termination_by count.toNat
decreasing_by omega

/-- `pad` -/
def pad (o : Output) (afmt : FmtSpecifier) (characters : ℤ) : Except Exit Output :=
  if afmt.width > characters then
    printCharRep o (if afmt.zeroPad then chr '0' else chr ' ') (afmt.width - characters)
  else .ok o

/-- `read_number` -/
def readNumber (afmt : FmtSpecifier) (args : List Arg) : Except Exit (ℕ × List Arg) := do
  let (arg, args) ← vaArg args
  if afmt.length > 0 then .ok (arg.bits.toNat, args) else .ok ((arg.bits.setWidth 32).toNat, args)

/-- `print_unsigned` -/
def printUnsigned (o : Output) (afmt : FmtSpecifier) (args : List Arg) :
    Except Exit (Output × List Arg) := do
  let (value, args) ← readNumber afmt args
  let digits := digitCountBase10 value
  let o ← pad o afmt digits
  let o ← printNumBase10 o value digits
  .ok (o, args)

/-- `print_signed`. `-value` wraps for the least `ptrdiff_t`, where C leaves it undefined. -/
def printSigned (o : Output) (afmt : FmtSpecifier) (args : List Arg) :
    Except Exit (Output × List Arg) := do
  let (arg, args) ← vaArg args
  let value : BitVec 64 :=
    if afmt.length > 0 then arg.bits else (arg.bits.setWidth 32).signExtend 64
  let (o, value, afmt) ←
    if value.slt 0 then do
      let o ← _fwritec o (chr 'o')
      let width ← checkInt (afmt.width - 1)
      .ok (o, -value, { afmt with width := width })
    else .ok (o, value, afmt)
  let digits := digitCountBase10 value.toNat
  let o ← pad o afmt digits
  let o ← printNumBase10 o value.toNat digits
  .ok (o, args)

/-- `print_string`; a negative precision is a large `size_t`. -/
def printString (o : Output) (afmt : FmtSpecifier) (args : List Arg) :
    Except Exit (Output × List Arg) := do
  let (arg, args) ← vaArg args
  let chars ← access (if afmt.hasPrecision then
    strnlen arg.string (afmt.precision % 2 ^ 64).toNat else strlen arg.string)
  if chars > intMax then error o EOVERFLOW
  else do
    let o ← pad o afmt chars
    let o ← _fwrite o arg.string chars
    .ok (o, args)

/-- `print_hex` -/
def printHex (o : Output) (afmt : FmtSpecifier) (args : List Arg) :
    Except Exit (Output × List Arg) := do
  let (value, args) ← readNumber afmt args
  let digits := digitCountBase16 value
  let o ← pad o afmt digits
  let o ← printNumBase16 o value digits
  .ok (o, args)

/-- `print_char` -/
def printChar (o : Output) (args : List Arg) : Except Exit (Output × List Arg) := do
  let (arg, args) ← vaArg args
  let o ← _fwritec o (arg.bits.setWidth 8)
  .ok (o, args)

/-- A `double`, in place of which its bits are printed. -/
def printDouble (o : Output) (args : List Arg) : Except Exit (Output × List Arg) := do
  let o ← _fwrite o ("<double(".toList.map chr) 8
  let (arg, args) ← vaArg args
  let o ← printNumBase16 o arg.bits.toNat 16
  let o ← _fwrite o (")>".toList.map chr) 2
  .ok (o, args)

/-- The cases of `print_fmt_arg` that return; nothing when `c` is none of them. -/
def convert (o : Output) (afmt : FmtSpecifier) (c : Byte) (args : List Arg) :
    Option (Except Exit (Output × List Arg)) :=
  if c = chr 'd' ∨ c = chr 'i' then some (printSigned o afmt args)
  else if c = chr 'u' then some (printUnsigned o afmt args)
  else if c = chr 'x' then some (printHex o afmt args)
  else if c = chr 'c' then some (printChar o args)
  else if c = chr 's' then some (printString o afmt args)
  else if c = chr 'p' then some (printHex o { afmt with length := 2 } args)
  else if c = chr '%' then some (.ok (putchar o (chr '%'), args))
  else if c ∈ "fFeEgGaA".toList.map chr then some (printDouble o args)
  else none

/-- The cases of `print_fmt_arg` after which it reads on. -/
def modify (o : Output) (afmt : FmtSpecifier) (state : FmtState) (c : Byte) (args : List Arg) :
    Except Exit (FmtSpecifier × FmtState × List Arg) :=
  if c = chr 'h' then do
    let length ← checkInt (afmt.length - 1)
    .ok ({ afmt with length := length }, state, args)
  else if c = chr 'l' then do
    let length ← checkInt (afmt.length + 1)
    .ok ({ afmt with length := length }, state, args)
  else if c = chr 'z' then .ok ({ afmt with length := 1 }, state, args)
  else if c = chr '0' then
    match state with
    | .flag => .ok ({ afmt with zeroPad := true }, .width, args)
    | .width => do
      let width ← checkInt (afmt.width * 10)
      .ok ({ afmt with width := width }, .width, args)
    | .precision => do
      let precision ← checkInt (afmt.precision * 10)
      .ok ({ afmt with precision := precision }, .precision, args)
  else if chr '1' ≤ c ∧ c ≤ chr '9' then
    match state with
    | .flag | .width => do
      let width ← checkInt (afmt.width * 10 + (c - chr '0').toNat)
      .ok ({ afmt with width := width }, .width, args)
    | .precision => do
      let precision ← checkInt (afmt.precision * 10 + (c - chr '0').toNat)
      .ok ({ afmt with precision := precision }, .precision, args)
  else if c = chr '.' then .ok ({ afmt with hasPrecision := true }, .precision, args)
  else if c = chr '*' then
    if state ≠ .precision then error o EINVAL
    else do
      let (arg, args) ← vaArg args
      .ok ({ afmt with hasPrecision := true, precision := arg.int }, .precision, args)
  else error o EINVAL

/-- `print_fmt_arg`, from the character after the percent sign or after the last one that was
read; it returns what is left of the format and of the arguments. -/
def printFmtArg (o : Output) (afmt : FmtSpecifier) (state : FmtState) :
    List Byte → List Arg → Except Exit (Output × List Byte × List Arg)
  | [], _ => error o EINVAL
  | c :: fmt, args =>
    match convert o afmt c args with
    | some x => do
      let (o, args) ← x
      .ok (o, fmt, args)
    | none => do
      let (afmt, state, args) ← modify o afmt state c args
      printFmtArg o afmt state fmt args

/-- A conversion is at least one character long. -/
lemma printFmtArg_length {o : Output} {afmt : FmtSpecifier} {state : FmtState} {fmt : List Byte}
    {args : List Arg} {r : Output × List Byte × List Arg}
    (h : printFmtArg o afmt state fmt args = .ok r) : r.2.1.length < fmt.length := by
  induction fmt generalizing afmt state args with
  | nil => cases h
  | cons c fmt ih =>
    rw [printFmtArg] at h
    split at h
    · obtain ⟨p, -, h⟩ := bind_eq_ok.mp h
      cases h
      exact Nat.lt_succ_self _
    · obtain ⟨p, -, h⟩ := bind_eq_ok.mp h
      exact (ih h).trans (Nat.lt_succ_self _)

/-- `_vfprintf`. The first `i` characters of `fmt` are text that is not written yet. -/
def vfprintfLoop (o : Output) (fmt : List Byte) (i : ℕ) (args : List Arg) : Except Exit Output :=
  match hch : fmt[i]? with
  | none => if i > 0 then _fwrite o fmt i else .ok o
  | some ch =>
    if ch = chr '%' then
      match (if i > 0 then _fwrite o fmt i else .ok o) with
      | .error e => .error e
      | .ok o =>
        match _h : printFmtArg o ⟨0, 0, 0, false, false⟩ .flag (fmt.drop (i + 1)) args with
        | .error e => .error e
        | .ok (o, fmt', args) => vfprintfLoop o fmt' 0 args
    else vfprintfLoop o fmt (i + 1) args
termination_by (fmt.length, fmt.length - i)
decreasing_by
  · have := printFmtArg_length _h
    rw [List.length_drop] at this
    dsimp only at this
    exact Prod.Lex.left _ _ (by omega)
  · have := (List.getElem?_eq_some_iff.mp hch).1
    exact Prod.Lex.right _ (by omega)

/-- `vfprintf`, with the streams it leaves behind; nothing when its behaviour is undefined. -/
def vfprintf (s : Streams) (f : FileId) (fmt : List Byte) (args : List Arg) :
    Option (ℤ × Streams) :=
  match vfprintfLoop ⟨s, f, 0⟩ fmt 0 args with
  | .ok o => some (o.printed, o.streams)
  | .error (.thrown o) => some (-1, o.streams)
  | .error .undefined => none

end Fluke.Libc
