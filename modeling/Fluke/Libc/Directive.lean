import Fluke.Libc.Rendering

/-!
# Reading a format

`print_fmt_arg` reads a directive character by character. `vfprintf_run` follows `_vfprintf` over
the pieces of a format, and `vfprintf_renders_iff` compares it with the rendering.
-/

namespace Fluke.Libc

open Outcome Digits

/-! ### Digits -/

lemma le_accumulate (n : ℕ) (ds : List (Fin 10)) : n ≤ accumulate n ds := by
  induction ds generalizing n with
  | nil => exact le_rfl
  | cons d ds ih => exact le_trans (by omega) (ih (n * 10 + d))

section Directive

variable {o : Output} {afmt afmt' : FmtSpecifier} {state state' : FmtState} {c : Byte}
  {fmt : List Byte} {args args' : List Arg}

/-- A character after which the directive goes on. -/
lemma printFmtArg_modify (hc : convert o afmt c args = none)
    (hm : modify o afmt state c args = .ok (afmt', state', args')) :
    printFmtArg o afmt state (c :: fmt) args = printFmtArg o afmt' state' fmt args' := by
  rw [printFmtArg, hc]
  dsimp only
  rw [hm]
  rfl

/-- The last character of a directive. -/
lemma printFmtArg_convert {t : List Byte} {x : Except Exit (Output × List Arg)}
    (hc : convert o afmt c args = some x) (hx : Converts o t args' x) :
    Ensures (fun _ => False) (fun r => Wrote o t r.1 ∧ r.2 = (fmt, args'))
      (printFmtArg o afmt state (c :: fmt) args) := by
  rw [printFmtArg, hc]
  dsimp only
  apply Ensures.bind hx
  rintro ⟨o', args''⟩ ⟨ho', rfl⟩
  exact ⟨ho', rfl⟩

lemma convert_digit (o : Output) (afmt : FmtSpecifier) (d : Fin 10) (args : List Arg) :
    convert o afmt (digitByte d) args = none := by
  fin_cases d <;> rfl

lemma checkInt_eq {n : ℤ} (h : -2 ^ 31 ≤ n ∧ n < 2 ^ 31) : checkInt n = .ok n := if_pos h

/-- A digit of the width. -/
lemma modify_width {d : Fin 10} (hstate : state ≠ .precision) (hd : state = .flag → d ≠ 0) :
    modify o afmt state (digitByte d) args =
      (checkInt (afmt.width * 10 + d) >>= fun width =>
        .ok ({ afmt with width := width }, .width, args)) := by
  cases state with
  | precision => exact absurd rfl hstate
  | flag =>
    have hd := hd rfl
    fin_cases d
    · exact absurd rfl hd
    all_goals rfl
  | width =>
    fin_cases d
    · show (checkInt (afmt.width * 10) >>= _) = checkInt (afmt.width * 10 + (0 : ℕ)) >>= _
      rw [Nat.cast_zero, add_zero]
    all_goals rfl

/-- A digit of the precision. -/
lemma modify_precision (d : Fin 10) :
    modify o afmt .precision (digitByte d) args =
      (checkInt (afmt.precision * 10 + d) >>= fun precision =>
        .ok ({ afmt with precision := precision }, .precision, args)) := by
  fin_cases d
  · show (checkInt (afmt.precision * 10) >>= _) = checkInt (afmt.precision * 10 + (0 : ℕ)) >>= _
    rw [Nat.cast_zero, add_zero]
  all_goals rfl

/-- The digits of a width that is an `int`. -/
lemma printFmtArg_width (ds : List (Fin 10)) {n : ℕ} (hn : afmt.width = n)
    (hstate : state ≠ .precision) (hds : state = .flag → ds.head? ≠ some 0)
    (hmax : accumulate n ds ≤ intMax) :
    ∃ state', state' ≠ .precision ∧ printFmtArg o afmt state (digitsFormat ds ++ fmt) args =
      printFmtArg o { afmt with width := accumulate n ds } state' fmt args := by
  have hlimit : intMax = 2 ^ 31 - 1 := rfl
  induction ds generalizing n afmt state with
  | nil =>
    refine ⟨state, hstate, ?_⟩
    rw [accumulate, List.foldl_nil, ← hn]
    rfl
  | cons d ds ih =>
    have hle : n * 10 + d ≤ accumulate n (d :: ds) := le_accumulate (n * 10 + d) ds
    have hd : state = .flag → d ≠ 0 := by
      intro h
      simpa using hds h
    have hstep : modify o afmt state (digitByte d) args =
        .ok ({ afmt with width := (n * 10 + d : ℕ) }, .width, args) := by
      rw [modify_width hstate hd, hn, checkInt_eq (by omega), ok_bind]
      push_cast
      rfl
    obtain ⟨state', hstate', heq⟩ := @ih { afmt with width := (n * 10 + d : ℕ) } .width _ rfl
      (by decide) (by intro h; cases h) hmax
    exact ⟨state', hstate', (printFmtArg_modify (convert_digit ..) hstep).trans heq⟩

/-- The digits of a precision that is an `int`. -/
lemma printFmtArg_precision (ds : List (Fin 10)) {n : ℕ} (hn : afmt.precision = n)
    (hmax : accumulate n ds ≤ intMax) :
    printFmtArg o afmt .precision (digitsFormat ds ++ fmt) args =
      printFmtArg o { afmt with precision := accumulate n ds } .precision fmt args := by
  have hlimit : intMax = 2 ^ 31 - 1 := rfl
  induction ds generalizing n afmt with
  | nil =>
    rw [accumulate, List.foldl_nil, ← hn]
    rfl
  | cons d ds ih =>
    have hle : n * 10 + d ≤ accumulate n (d :: ds) := le_accumulate (n * 10 + d) ds
    have hstep : modify o afmt .precision (digitByte d) args =
        .ok ({ afmt with precision := (n * 10 + d : ℕ) }, .precision, args) := by
      rw [modify_precision, hn, checkInt_eq (by omega), ok_bind]
      push_cast
      rfl
    exact (printFmtArg_modify (convert_digit ..) hstep).trans
      (@ih { afmt with precision := (n * 10 + d : ℕ) } _ rfl hmax)

/-- The digits of a larger precision. -/
lemma printFmtArg_overflow (ds : List (Fin 10)) {n : ℕ} (hn : afmt.precision = n)
    (hsmall : n ≤ intMax) (hlarge : intMax < accumulate n ds) :
    printFmtArg o afmt .precision (digitsFormat ds ++ fmt) args = .error .undefined := by
  have hlimit : intMax = 2 ^ 31 - 1 := rfl
  induction ds generalizing n afmt with
  | nil =>
    rw [accumulate, List.foldl_nil] at hlarge
    omega
  | cons d ds ih =>
    by_cases hnext : n * 10 + d ≤ intMax
    · have hstep : modify o afmt .precision (digitByte d) args =
          .ok ({ afmt with precision := (n * 10 + d : ℕ) }, .precision, args) := by
        rw [modify_precision, hn, checkInt_eq (by omega), ok_bind]
        push_cast
        rfl
      exact (printFmtArg_modify (convert_digit ..) hstep).trans
        (@ih { afmt with precision := (n * 10 + d : ℕ) } _ rfl hnext hlarge)
    · show printFmtArg o afmt .precision (digitByte d :: (digitsFormat ds ++ fmt)) args = _
      rw [printFmtArg, convert_digit]
      dsimp only
      rw [modify_precision, hn, checkInt, if_neg (by omega)]
      rfl

/-! ### Directives -/

/-- The flag `0`. -/
lemma printFmtArg_zero (h : afmt.zeroPad = false) (zero : Bool) :
    ∃ state', state' ≠ .precision ∧
      printFmtArg o afmt .flag ((if zero then [chr '0'] else []) ++ fmt) args =
        printFmtArg o { afmt with zeroPad := zero } state' fmt args := by
  cases zero with
  | true => exact ⟨.width, by decide, printFmtArg_modify rfl rfl⟩
  | false =>
    refine ⟨.flag, by decide, ?_⟩
    have hsame : { afmt with zeroPad := false } = afmt := by rw [← h]
    rw [hsame]
    rfl

/-- How often the length is counted up. -/
def Length.value : Length → ℤ
  | .none => 0
  | .l | .z => 1
  | .ll => 2

lemma printFmtArg_lengthModifier (h : afmt.length = 0) (length : Length) :
    printFmtArg o afmt state (length.format ++ fmt) args =
      printFmtArg o { afmt with length := length.value } state fmt args := by
  have hl {n : ℤ} (hn : afmt.length = n) (hsmall : -2 ^ 31 ≤ n + 1 ∧ n + 1 < 2 ^ 31)
      (fmt : List Byte) : printFmtArg o afmt state (chr 'l' :: fmt) args =
      printFmtArg o { afmt with length := n + 1 } state fmt args := by
    apply printFmtArg_modify rfl
    show (checkInt (afmt.length + 1) >>= _) = _
    rw [hn, checkInt_eq hsmall, ok_bind]
  cases length with
  | none =>
    rw [Length.value, ← h]
    rfl
  | l => exact hl h (by decide) fmt
  | z => exact printFmtArg_modify rfl rfl
  | ll =>
    show printFmtArg o afmt state (chr 'l' :: chr 'l' :: fmt) args = _
    rw [hl h (by decide)]
    apply printFmtArg_modify rfl
    show (checkInt (0 + 1 + 1) >>= _) = _
    rfl

end Directive

/-- The specifier a directive starts with. -/
abbrev blank : FmtSpecifier := ⟨0, 0, 0, false, false⟩

/-- What a piece other than text does to the output: `t` is written for it, as long as `s`, and it
is `s` if and only if the piece is faultless. -/
structure Carries (o : Output) (s : List Byte) (faultless : Prop) (fmt : List Byte)
    (args : List Arg) (t : List Byte) (x : Except Exit (Output × List Byte × List Arg)) : Prop where
  length : t.length = s.length
  eq_iff : t = s ↔ faultless
  writes : Ensures (fun _ => False) (fun r => Wrote o t r.1 ∧ r.2 = (fmt, args)) x

lemma signedArg_toInt {conversion : Conversion} (h : conversion = .d ∨ conversion = .i)
    {afmt : FmtSpecifier} {length : Length} (hlength : afmt.length = length.value) (arg : Arg) :
    (signedArg afmt arg).toInt = conversion.argument length arg := by
  have hsign : ((arg.bits.setWidth 32).signExtend 64).toInt = (arg.bits.setWidth 32).toInt :=
    BitVec.toInt_signExtend_of_le (by decide)
  rw [signedArg, hlength]
  rcases h with rfl | rfl <;> cases length <;> first | exact hsign | rfl

lemma unsignedArg_eq {conversion : Conversion} (h : conversion = .u ∨ conversion = .x)
    {afmt : FmtSpecifier} {length : Length} (hlength : afmt.length = length.value) (arg : Arg) :
    (unsignedArg afmt arg : ℤ) = conversion.argument length arg := by
  rw [unsignedArg, hlength]
  rcases h with rfl | rfl <;> cases length <;> rfl

/-- A number. -/
lemma number_carries {o : Output} {zero : Bool} {width : Width} {length : Length}
    {conversion : Conversion} {args args' : List Arg} {s fmt : List Byte}
    (hs : (Piece.number zero width length conversion).render args = some (s, args'))
    (h : Room o s.length) :
    ∃ t, Carries o s ((Piece.number zero width length conversion).Faultless args) fmt args' t
      (printFmtArg o blank .flag
        ((Piece.number zero width length conversion).directive ++ fmt) args) := by
  cases args with
  | nil => cases hs
  | cons arg args =>
  rw [Piece.render] at hs
  obtain ⟨rfl, rfl⟩ := Prod.ext_iff.mp (Option.some.inj hs)
  dsimp only at h ⊢
  set value := conversion.argument length arg with hvalue
  have hlimit : intMax = 2 ^ 31 - 1 := rfl
  have hwidth : accumulate 0 width ≤ intMax := by
    have := h.le
    rw [length_justify] at this
    omega
  -- the specifier that has been read when the last character comes
  set afmt : FmtSpecifier := ⟨0, accumulate 0 width, length.value, zero, false⟩ with hafmt
  obtain ⟨state, heq⟩ : ∃ state, printFmtArg o blank .flag
      ((Piece.number zero width length conversion).directive ++ fmt) (arg :: args) =
      printFmtArg o afmt state (conversion.format :: fmt) (arg :: args) := by
    obtain ⟨state, hstate, hzero⟩ := @printFmtArg_zero o blank
      (digitsFormat width ++ (length.format ++ (conversion.format :: fmt))) (arg :: args) rfl zero
    obtain ⟨state', -, hdigits⟩ := @printFmtArg_width o { blank with zeroPad := zero } state
      (length.format ++ (conversion.format :: fmt)) (arg :: args) width.1 0 rfl
      hstate (fun _ => width.2) hwidth
    refine ⟨state', ?_⟩
    rw [Piece.directive]
    simp only [List.append_assoc, List.singleton_append]
    rw [hzero, hdigits, printFmtArg_lengthModifier rfl]
  rw [heq]
  have hwidth0 : 0 ≤ afmt.width := Int.natCast_nonneg _
  have hfaultless : (Piece.number zero width length conversion).Faultless (arg :: args) ↔
      0 ≤ value := by
    simp [Piece.Faultless, hvalue]
  -- the sign and the digits
  have hunsigned (hc : conversion = .u ∨ conversion = .x) :
      unsignedArg afmt arg = value.natAbs ∧ 0 ≤ value := by
    have := @unsignedArg_eq conversion hc afmt length rfl arg
    omega
  have hsigned (hc : conversion = .d ∨ conversion = .i) (hbase : conversion.base = 10)
      (hconvert : convert o afmt conversion.format (arg :: args) =
        some (printSigned o afmt (arg :: args))) :
      ∃ t, Carries o (justify zero (accumulate 0 width) (if value < 0 then [chr '-'] else [])
        ((numeral conversion.base value.natAbs).map digitChar)) (0 ≤ value) fmt args t
        (printFmtArg o afmt state (conversion.format :: fmt) (arg :: args)) := by
    have htoInt := @signedArg_toInt conversion hc afmt length rfl arg
    have hspec := @printSigned_converts o afmt args arg hwidth0
      (by show ((accumulate 0 width : ℕ) : ℤ) ≤ (intMax : ℕ); exact_mod_cast hwidth)
    dsimp only at hspec
    rw [htoInt] at hspec
    rw [hbase] at h ⊢
    obtain ⟨t, hlength, hiff, hconv⟩ := hspec h
    exact ⟨t, hlength, hiff, printFmtArg_convert hconvert hconv⟩
  rw [hfaultless]
  cases hc : conversion with
  | d => exact hc ▸ hsigned (Or.inl hc) (hc ▸ rfl) (hc ▸ rfl)
  | i => exact hc ▸ hsigned (Or.inr hc) (hc ▸ rfl) (hc ▸ rfl)
  | u =>
    subst hc
    obtain ⟨hnat, hpos⟩ := hunsigned (Or.inl rfl)
    rw [if_neg (by omega), show Conversion.u.base = 10 from rfl, ← hnat] at h ⊢
    exact ⟨_, rfl, by simp [hpos], printFmtArg_convert rfl (printUnsigned_converts hwidth0 h)⟩
  | x =>
    subst hc
    obtain ⟨hnat, hpos⟩ := hunsigned (Or.inr rfl)
    rw [if_neg (by omega), show Conversion.x.base = 16 from rfl, ← hnat] at h ⊢
    exact ⟨_, rfl, by simp [hpos], printFmtArg_convert rfl (printHex_converts hwidth0 h)⟩

lemma char_carries {o : Output} {args args' : List Arg} {s fmt : List Byte}
    (hs : Piece.char.render args = some (s, args')) (h : Room o s.length) :
    ∃ t, Carries o s (Piece.char.Faultless args) fmt args' t
      (printFmtArg o blank .flag (Piece.char.directive ++ fmt) args) := by
  cases args with
  | nil => cases hs
  | cons arg args =>
  rw [Piece.render] at hs
  obtain ⟨rfl, rfl⟩ := Prod.ext_iff.mp (Option.some.inj hs)
  exact ⟨_, rfl, by simp [Piece.Faultless], printFmtArg_convert rfl (printChar_converts h)⟩

/-- The precision of a string is read, and its argument with it. An `int` is needed. -/
lemma printFmtArg_limit {o : Output} {afmt : FmtSpecifier} {state : FmtState}
    {precision : Option Precision} {fmt : List Byte} {args args' : List Arg} {limit : Option ℕ}
    (hlimit : Precision.limit precision args = some (limit, args'))
    (hafmt : afmt.precision = 0 ∧ afmt.hasPrecision = false) :
    (∃ afmt' state', PrecisionOf afmt' limit ∧ afmt'.width = afmt.width ∧
      afmt'.zeroPad = afmt.zeroPad ∧
      (∀ ds, precision = some (.digits ds) → accumulate 0 ds ≤ intMax) ∧
      printFmtArg o afmt state ((precision.elim [] fun p => chr '.' :: p.format) ++ fmt) args =
        printFmtArg o afmt' state' fmt args') ∨
    (∃ ds, precision = some (.digits ds) ∧ intMax < accumulate 0 ds ∧
      printFmtArg o afmt state ((precision.elim [] fun p => chr '.' :: p.format) ++ fmt) args =
        .error .undefined) := by
  have hlarge : intMax = 2 ^ 31 - 1 := rfl
  obtain ⟨hzero, hnone⟩ := hafmt
  have hdot (fmt : List Byte) : printFmtArg o afmt state (chr '.' :: fmt) args =
      printFmtArg o { afmt with hasPrecision := true } .precision fmt args :=
    printFmtArg_modify rfl rfl
  cases precision with
  | none =>
    obtain ⟨rfl, rfl⟩ := Prod.ext_iff.mp (Option.some.inj hlimit)
    exact Or.inl ⟨afmt, state, Or.inl hnone, rfl, rfl, by simp, rfl⟩
  | some p =>
    cases p with
    | digits ds =>
      obtain ⟨rfl, rfl⟩ := Prod.ext_iff.mp (Option.some.inj hlimit)
      rcases le_or_gt (accumulate 0 ds) intMax with hds | hds
      · refine Or.inl ⟨{ afmt with hasPrecision := true, precision := accumulate 0 ds },
          .precision, ⟨rfl, rfl, by omega⟩, rfl, rfl, ?_, ?_⟩
        · rintro ds' h
          cases h
          exact hds
        · exact (hdot _).trans (printFmtArg_precision ds hzero hds)
      · exact Or.inr ⟨ds, rfl, hds, (hdot _).trans
          (printFmtArg_overflow ds hzero (Nat.zero_le _) hds)⟩
    | star =>
      cases args with
      | nil => cases hlimit
      | cons arg args =>
      obtain ⟨rfl, rfl⟩ := Prod.ext_iff.mp (Option.some.inj hlimit)
      have hstar : printFmtArg o { afmt with hasPrecision := true } .precision (chr '*' :: fmt)
          (arg :: args) = printFmtArg o
            { afmt with hasPrecision := true, precision := arg.int } .precision fmt args :=
        printFmtArg_modify rfl rfl
      have hint : -2 ^ 31 ≤ arg.int ∧ arg.int < 2 ^ 31 :=
        ⟨BitVec.le_toInt _, BitVec.toInt_lt⟩
      refine Or.inl ⟨{ afmt with hasPrecision := true, precision := arg.int }, .precision,
        ?_, rfl, rfl, (by rintro ds h; cases h), (hdot _).trans hstar⟩
      dsimp only
      split_ifs with hneg
      · exact Or.inr ⟨rfl, hint.1, hneg⟩
      · exact ⟨rfl, by dsimp only; omega, by omega⟩

/-- A string, unless its precision is no `int`. -/
lemma string_carries {o : Output} {width : Width} {precision : Option Precision}
    {args args' : List Arg} {s fmt : List Byte}
    (hs : (Piece.string width precision).render args = some (s, args')) (h : Room o s.length) :
    (∃ t, Carries o s ((Piece.string width precision).Faultless args) fmt args' t
      (printFmtArg o blank .flag ((Piece.string width precision).directive ++ fmt) args)) ∨
    (¬ (Piece.string width precision).Faultless args ∧
      printFmtArg o blank .flag ((Piece.string width precision).directive ++ fmt) args =
        .error .undefined) := by
  rw [Piece.render] at hs
  obtain ⟨⟨limit, args⟩, hlimit, hs⟩ := Option.bind_eq_some_iff.mp hs
  cases args with
  | nil => cases hs
  | cons arg args =>
  obtain ⟨array, harray, hs⟩ := Option.bind_eq_some_iff.mp hs
  obtain ⟨rfl, rfl⟩ := Prod.ext_iff.mp (Option.some.inj hs)
  dsimp only at h hlimit ⊢
  have hwidth : accumulate 0 width ≤ intMax := by
    have := h.le
    rw [length_justify] at this
    omega
  obtain ⟨state, -, hdigits⟩ := @printFmtArg_width o blank .flag
    ((precision.elim [] fun p => chr '.' :: p.format) ++ (chr 's' :: fmt)) _ width.1 0 rfl
    (by decide) (fun _ => width.2) hwidth
  rw [Piece.directive]
  simp only [List.append_assoc, List.singleton_append]
  rw [hdigits]
  rcases @printFmtArg_limit o { blank with width := accumulate 0 width } state _
    (chr 's' :: fmt) _ _ _ hlimit ⟨rfl, rfl⟩ with
    ⟨afmt', state', hprecision, hwidth', hzero, hdigits', heq⟩ | ⟨ds, hds, hlarge, heq⟩
  · refine Or.inl ⟨_, rfl, ?_, ?_⟩
    · cases precision with
      | none => simp [Piece.Faultless]
      | some p =>
        cases p with
        | digits ds => simpa [Piece.Faultless] using hdigits' ds rfl
        | star => simp [Piece.Faultless]
    · rw [heq]
      have hwidth0 : afmt'.width.toNat = accumulate 0 width := by rw [hwidth']; rfl
      rw [← hwidth0] at h ⊢
      exact printFmtArg_convert rfl (printString_converts
        (by rw [hwidth']; exact Int.natCast_nonneg _) hzero hprecision harray h)
  · refine Or.inr ⟨?_, heq⟩
    rw [hds]
    exact Nat.not_le.mpr hlarge

/-! ### The whole format -/

lemma vfprintfLoop_end {o : Output} {fmt : List Byte} {i : ℕ} {args : List Arg}
    (h : fmt[i]? = none) :
    vfprintfLoop o fmt i args = if i > 0 then _fwrite o fmt i else .ok o := by
  rw [vfprintfLoop]
  split
  · rfl
  · rename_i ch hch
    rw [h] at hch
    cases hch

lemma vfprintfLoop_text {o : Output} {fmt : List Byte} {i : ℕ} {args : List Arg} {c : Byte}
    (h : fmt[i]? = some c) (hc : c ≠ chr '%') :
    vfprintfLoop o fmt i args = vfprintfLoop o fmt (i + 1) args := by
  rw [vfprintfLoop]
  split
  · rename_i hch
    rw [h] at hch
    cases hch
  · rename_i ch hch
    rw [h] at hch
    cases hch
    rw [if_neg hc]

lemma vfprintfLoop_percent {o : Output} {fmt : List Byte} {i : ℕ} {args : List Arg}
    (h : fmt[i]? = some (chr '%')) :
    vfprintfLoop o fmt i args =
      ((if i > 0 then _fwrite o fmt i else .ok o) >>= fun o =>
        printFmtArg o blank .flag (fmt.drop (i + 1)) args >>= fun r =>
          vfprintfLoop r.1 r.2.1 0 r.2.2) := by
  rw [vfprintfLoop]
  split
  · rename_i hch
    rw [h] at hch
    cases hch
  · rename_i ch hch
    rw [h] at hch
    cases hch
    rw [if_pos rfl]
    split
    · rename_i e he
      rw [he]
      rfl
    · rename_i o' ho
      rw [ho, ok_bind]
      split
      · rename_i e he
        rw [he]
        rfl
      · rename_i o'' fmt' args' hr
        rw [hr, ok_bind]

/-- The text that is not written yet. -/
lemma pending_writes {o : Output} {text rest : List Byte} (h : Room o text.length) :
    Writes o text
      (if text.length > 0 then _fwrite o (text ++ rest) text.length else .ok o) := by
  split_ifs with hpos
  · have := @fwrite_writes o (text ++ rest) text.length h (by rw [List.length_append]; omega)
    rwa [List.take_left] at this
  · have hnil : text = [] := List.eq_nil_of_length_eq_zero (by omega)
    rw [hnil] at h ⊢
    exact Wrote.refl h

/-- More text that is not written yet. -/
lemma vfprintfLoop_append {o : Output} (text more rest : List Byte) (args : List Arg)
    (hmore : ∀ c ∈ more, c ≠ chr '%') :
    vfprintfLoop o (text ++ (more ++ rest)) text.length args =
      vfprintfLoop o (text ++ more ++ rest) (text ++ more).length args := by
  induction more generalizing text with
  | nil => simp
  | cons c more ih =>
    have hc : (text ++ (c :: more ++ rest))[text.length]? = some c := by simp
    have := ih (text ++ [c]) fun c' hc' => hmore c' (List.mem_cons_of_mem c hc')
    rw [vfprintfLoop_text hc (hmore c List.mem_cons_self)]
    simpa using this

/-- How `vfprintf` fares with a format of which `s` is the rendering, when the text `text` has not
been written yet. Unless the format is faultless, its behaviour is undefined, it counts too few
characters, or it writes something else of the same length. -/
def Fares (o : Output) (text s : List Byte) (faultless : Prop) (x : Except Exit Output) : Prop :=
  (¬ faultless ∧ (x = .error .undefined ∨
    ∃ o', x = .ok o' ∧ o'.printed < o.printed + text.length + s.length)) ∨
  ∃ t, t.length = s.length ∧ (t = s ↔ faultless) ∧ Writes o (text ++ t) x

/-- A piece that carries out and then the rest of the format. -/
lemma Fares.cons {o o' : Output} {text t s rest : List Byte} {faultless faultless' : Prop}
    {x : Except Exit Output} (hlength : t.length = s.length) (hiff : t = s ↔ faultless)
    (ho : Wrote o (text ++ t) o') (h : Fares o' [] rest faultless' x) :
    Fares o text (s ++ rest) (faultless ∧ faultless') x := by
  have hprinted := ho.printed
  rw [List.length_append] at hprinted
  rcases h with ⟨hfault, hx⟩ | ⟨u, hu, huiff, hx⟩
  · refine Or.inl ⟨fun h => hfault h.2, hx.imp_right ?_⟩
    rintro ⟨o'', rfl, hless⟩
    refine ⟨o'', rfl, ?_⟩
    rw [List.length_nil] at hless
    rw [List.length_append]
    omega
  · refine Or.inr ⟨t ++ u, by rw [List.length_append, List.length_append, hlength, hu], ?_, ?_⟩
    · rw [← hiff, ← huiff]
      exact ⟨fun h => List.append_inj h hlength, fun h => by rw [h.1, h.2]⟩
    · rw [← List.append_assoc]
      exact hx.imp fun _ h => ho.trans h

/-- What `putchar` writes is not counted. -/
lemma Fares.percent {o o' : Output} {text s rest : List Byte} {faultless faultless' : Prop}
    {x : Except Exit Output} (hfault : ¬ faultless) (hs : 0 < s.length)
    (hprinted : o'.printed = o.printed + text.length) (h : Fares o' [] rest faultless' x) :
    Fares o text (s ++ rest) (faultless ∧ faultless') x := by
  refine Or.inl ⟨fun h => hfault h.1, ?_⟩
  have hmore {o'' : Output} (h : o''.printed ≤ o'.printed + rest.length) :
      o''.printed < o.printed + text.length + (s ++ rest).length := by
    rw [List.length_append]
    omega
  rcases h with ⟨-, hx⟩ | ⟨u, hu, -, hx⟩
  · refine hx.imp_right ?_
    rintro ⟨o'', rfl, hless⟩
    exact ⟨o'', rfl, hmore (by rw [List.length_nil] at hless; omega)⟩
  · obtain ⟨o'', rfl, ho''⟩ := Ensures.exists_ok hx
    refine Or.inr ⟨o'', rfl, hmore ?_⟩
    rw [ho''.printed, List.nil_append, hu]

lemma putchar_room {o : Output} {n : ℕ} (h : Room o n) (c : Byte) : Room (putchar o c) n := by
  obtain ⟨count, used, file, heq, haccepts⟩ :=
    libcWrite_spec (o.streams.files o.streams.stdout) [c] 1
  refine ⟨?_, h.le⟩
  rw [putchar, heq]
  dsimp only
  by_cases hf : o.f = o.streams.stdout
  · rw [hf, Streams.setFile_files]
    intro hmem
    exact h.accepts (hf ▸ haccepts.writes ▸ List.mem_append_right _ hmem)
  · rw [Streams.setFile_files_of_ne _ _ hf]
    exact h.accepts

/-- Text that is not written yet, and more of it. -/
lemma Fares.text {o : Output} {text more rest : List Byte} {faultless : Prop}
    {x : Except Exit Output} (h : Fares o (text ++ more) rest faultless x) :
    Fares o text (more ++ rest) faultless x := by
  rcases h with ⟨hfault, hx⟩ | ⟨t, ht, hiff, hx⟩
  · refine Or.inl ⟨hfault, hx.imp_right ?_⟩
    rintro ⟨o', ho', hless⟩
    refine ⟨o', ho', ?_⟩
    rw [List.length_append] at hless ⊢
    omega
  · refine Or.inr ⟨more ++ t, by rw [List.length_append, List.length_append, ht], ?_, ?_⟩
    · rw [List.append_right_inj]
      exact hiff
    · rwa [← List.append_assoc]

/-- A directive that carries out, and then the rest. -/
lemma Carries.fares {o o' : Output} {text t s rest fmt : List Byte} {args : List Arg}
    {faultless faultless' : Prop} {x : Except Exit (Output × List Byte × List Arg)}
    (hx : Carries o' s faultless fmt args t x) (htext : Wrote o text o')
    (hroom : Room o' (s.length + rest.length))
    (hrest : ∀ o'', Room o'' rest.length →
      Fares o'' [] rest faultless' (vfprintfLoop o'' fmt 0 args)) :
    Fares o text (s ++ rest) (faultless ∧ faultless')
      (x >>= fun r => vfprintfLoop r.1 r.2.1 0 r.2.2) := by
  obtain ⟨hlength, hiff, hwrites⟩ := hx
  obtain ⟨⟨o'', fmt', args'⟩, rfl, ho'', heq⟩ := Ensures.exists_ok hwrites
  obtain ⟨rfl, rfl⟩ := Prod.mk.inj heq
  rw [ok_bind]
  exact Fares.cons hlength hiff (htext.trans ho'')
    (hrest o'' (hroom.after ho'' (by rw [hlength])))

/-- The run of `_vfprintf` over the pieces of a format. -/
lemma vfprintf_run {pieces : List Piece} {o : Output} {text s : List Byte} {args : List Arg}
    (hs : render pieces args = some s) (h : Room o (text.length + s.length)) :
    Fares o text s (Faultless pieces args)
      (vfprintfLoop o (text ++ format pieces) text.length args) := by
  induction pieces generalizing o text s args with
  | nil =>
    obtain rfl := Option.some.inj hs
    have hend : (text ++ format [])[text.length]? = none := by simp [format]
    rw [vfprintfLoop_end hend]
    refine Or.inr ⟨[], rfl, by simp [Faultless], ?_⟩
    rw [List.append_nil]
    exact pending_writes (h.mono (Nat.le_add_right _ _))
  | cons piece pieces ih =>
    obtain ⟨⟨s, args'⟩, hpiece, hs⟩ := Option.bind_eq_some_iff.mp hs
    obtain ⟨rest, hrest, hs⟩ := Option.bind_eq_some_iff.mp hs
    obtain rfl := Option.some.inj hs
    have hfaultless : Faultless (piece :: pieces) args ↔
        piece.Faultless args ∧ Faultless pieces args' := by
      rw [Faultless, hpiece]
      simp
    have hformat : format (piece :: pieces) = piece.format ++ format pieces := rfl
    rw [hfaultless, hformat]
    rw [List.length_append] at h
    -- the pieces that start with a percent sign
    have hdirective (hf : piece.format = chr '%' :: piece.directive)
        (hx : ∀ o', Wrote o text o' → Room o' (s.length + rest.length) →
          Fares o text (s ++ rest) (piece.Faultless args ∧ Faultless pieces args')
            (printFmtArg o' blank .flag (piece.directive ++ format pieces) args >>= fun r =>
              vfprintfLoop r.1 r.2.1 0 r.2.2)) :
        Fares o text (s ++ rest) (piece.Faultless args ∧ Faultless pieces args')
          (vfprintfLoop o (text ++ (piece.format ++ format pieces)) text.length args) := by
      have hpercent : (text ++ (piece.format ++ format pieces))[text.length]? = some (chr '%') := by
        rw [hf]
        simp
      have hdrop : (text ++ (piece.format ++ format pieces)).drop (text.length + 1) =
          piece.directive ++ format pieces := by
        rw [hf]
        simp
      obtain ⟨o', ho', hwrote⟩ := Ensures.exists_ok
        (@pending_writes o text (piece.format ++ format pieces) (h.mono (Nat.le_add_right _ _)))
      rw [vfprintfLoop_percent hpercent, ho', ok_bind, hdrop]
      exact hx o' hwrote (h.after hwrote le_rfl)
    have hgo (o' : Output) (ho' : Room o' rest.length) :
        Fares o' [] rest (Faultless pieces args')
          (vfprintfLoop o' (format pieces) 0 args') :=
      @ih o' [] rest args' hrest (by rwa [List.length_nil, Nat.zero_add])
    cases piece with
    | text more =>
      obtain ⟨rfl, rfl⟩ := Prod.ext_iff.mp (Option.some.inj hpiece)
      have hmore : ∀ c ∈ more.1, c ≠ chr '%' := fun c hc => (more.2 c hc).1
      rw [Piece.format, vfprintfLoop_append text more.1 (format pieces) args hmore,
        show (Piece.text more).Faultless args = True from rfl, true_and]
      refine Fares.text (ih hrest ?_)
      rw [List.length_append, Nat.add_assoc]
      exact h
    | percent =>
      obtain ⟨rfl, rfl⟩ := Prod.ext_iff.mp (Option.some.inj hpiece)
      refine hdirective rfl fun o' hwrote hroom => ?_
      have hput : printFmtArg o' blank .flag (Piece.percent.directive ++ format pieces) args =
          .ok (putchar o' (chr '%'), format pieces, args) := rfl
      rw [hput, ok_bind]
      have hprinted : (putchar o' (chr '%')).printed = o.printed + text.length := hwrote.printed
      exact Fares.percent id Nat.one_pos hprinted
        (hgo _ (putchar_room (hroom.mono (Nat.le_add_left _ _)) _))
    | number zero width length conversion =>
      refine hdirective rfl fun o' hwrote hroom => ?_
      obtain ⟨t, ht⟩ := @number_carries o' _ _ _ _ _ _ _ (format pieces) hpiece
        (hroom.mono (Nat.le_add_right _ _))
      exact ht.fares hwrote hroom hgo
    | char =>
      refine hdirective rfl fun o' hwrote hroom => ?_
      obtain ⟨t, ht⟩ := @char_carries o' _ _ _ (format pieces) hpiece
        (hroom.mono (Nat.le_add_right _ _))
      exact ht.fares hwrote hroom hgo
    | string width precision =>
      refine hdirective rfl fun o' hwrote hroom => ?_
      rcases @string_carries o' _ _ _ _ _ (format pieces) hpiece
        (hroom.mono (Nat.le_add_right _ _)) with ⟨t, ht⟩ | ⟨hfault, hundefined⟩
      · exact ht.fares hwrote hroom hgo
      · exact Or.inl ⟨fun h => hfault h.1, Or.inl (by rw [hundefined]; rfl)⟩

/-- A run that ends with the rendering is the run of a faultless format. -/
lemma Fares.renders_iff {streams : Streams} {f : FileId} {fmt rendering : List Byte}
    {args : List Arg} {faultless : Prop}
    (h : Fares ⟨streams, f, 0⟩ [] rendering faultless (vfprintfLoop ⟨streams, f, 0⟩ fmt 0 args)) :
    Renders streams f fmt args rendering ↔ faultless := by
  rw [Renders, vfprintf]
  rcases h with ⟨hfault, hx | ⟨o', hx, hless⟩⟩ | ⟨t, ht, hiff, hx⟩
  · rw [hx]
    constructor
    · rintro ⟨s', hs', -⟩
      cases hs'
    · exact fun h => absurd h hfault
  · rw [hx]
    constructor
    · rintro ⟨s', hs', -⟩
      have hprinted : (o'.printed : ℤ) = rendering.length :=
        (Prod.ext_iff.mp (Option.some.inj hs')).1
      rw [List.length_nil, Nat.add_zero] at hless
      dsimp only at hless
      omega
    · exact fun h => absurd h hfault
  · obtain ⟨o', hx, hwrote⟩ := Ensures.exists_ok hx
    rw [List.nil_append] at hwrote
    rw [hx]
    have hsent := hwrote.sent
    rw [hwrote.f] at hsent
    constructor
    · rintro ⟨s', hs', hsent', -⟩
      obtain rfl : o'.streams = s' := (Prod.ext_iff.mp (Option.some.inj hs')).2
      rw [hsent] at hsent'
      exact hiff.mp (List.append_cancel_left hsent')
    · intro h
      obtain rfl := hiff.mpr h
      refine ⟨o'.streams, ?_, hsent, fun g hg => by rw [hwrote.others g hg]⟩
      show some ((o'.printed : ℤ), o'.streams) = _
      rw [hwrote.printed, Nat.zero_add]

/-- `vfprintf` renders a format as the C standard says if and only if there is no `%%` in it, no
negative number is printed, and its precisions are numbers of type `int`. The stream accepts
everything, the arguments match the format, and the rendering is no longer than `INT_MAX`. -/
theorem vfprintf_renders_iff (streams : Streams) (f : FileId)
    (haccepts : none ∉ (streams.files f).writes) (pieces : List Piece) (args : List Arg)
    (rendering : List Byte) (hrender : render pieces args = some rendering)
    (hlength : rendering.length ≤ intMax) :
    Renders streams f (format pieces) args rendering ↔ Faultless pieces args := by
  have hroom : Room ⟨streams, f, 0⟩ (([] : List Byte).length + rendering.length) :=
    ⟨haccepts, by simpa using hlength⟩
  exact (vfprintf_run hrender hroom).renders_iff

/-- The streams of a program that has not written anything. -/
abbrev fresh : Streams := ⟨fun _ => ⟨false, [], []⟩, 1, 0⟩

/-- The format `%5d` -/
abbrev fiveWide : List Piece := [.number false ⟨[⟨5, by decide⟩], by decide⟩ .none .d]

/-- A positive number is printed as it should be. -/
theorem vfprintf_renders_fiveWide :
    Renders fresh 2 (format fiveWide) [⟨42, []⟩] ("   42".toList.map chr) :=
  (vfprintf_renders_iff fresh 2 (by decide) fiveWide [⟨42, []⟩] ("   42".toList.map chr) (by decide)
    (by decide)).mpr ⟨by rintro arg ⟨⟩; decide, fun _ _ => trivial⟩

/-- A negative number is not. -/
theorem vfprintf_not_renders :
    render fiveWide [⟨-3, []⟩] = some ("   -3".toList.map chr) ∧
    ¬ Renders fresh 2 (format fiveWide) [⟨-3, []⟩] ("   -3".toList.map chr) := by
  have hrender : render fiveWide [⟨-3, []⟩] = some ("   -3".toList.map chr) := by decide
  have hroom : Room ⟨fresh, 2, 0⟩ (([] : List Byte).length + ("   -3".toList.map chr).length) :=
    ⟨by decide, by decide⟩
  refine ⟨hrender, fun h => ?_⟩
  obtain ⟨hpositive, -⟩ := (vfprintf_run hrender hroom).renders_iff.mp h
  exact absurd (hpositive _ rfl) (by decide)

end Fluke.Libc
