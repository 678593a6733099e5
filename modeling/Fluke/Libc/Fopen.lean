import Fluke.Libc.Vfprintf

/-!
# Opening modes

`fopen` and `fdopen` read their mode with `parse_mode_string`: one character for the kind of
access, then options in any order. The parser looks at the first character last, and keeps in a
local whether there was a `+`.
-/

namespace Fluke.Libc

/-- Flags of `open` -/
abbrev Flags := BitVec 32

/-- `O_RDONLY` -/
def oRdonly : Flags := 1 <<< 1
/-- `O_RDWR` -/
def oRdwr : Flags := 1 <<< 2
/-- `O_WRONLY` -/
def oWronly : Flags := 1 <<< 4
/-- `O_APPEND` -/
def oAppend : Flags := 1 <<< 5
/-- `O_CLOEXEC` -/
def oCloexec : Flags := 1 <<< 6
/-- `O_CREAT` -/
def oCreat : Flags := 1 <<< 8
/-- `O_EXCL` -/
def oExcl : Flags := 1 <<< 10
/-- `O_TRUNC` -/
def oTrunc : Flags := 1 <<< 15

/-- `flags` and `plus` -/
structure ModeState where
  flags : Flags
  plus : Bool
  deriving DecidableEq

/-- One round of the loop on a character that does not end the string; nothing at `goto fail`. -/
def modeChar (st : ModeState) (c : Byte) : Option ModeState :=
  if c = chr '+' then
    if st.plus then none else some { st with plus := true }
  else if c = chr 'x' then
    if st.flags &&& oExcl ≠ 0 then none else some { st with flags := st.flags ||| oExcl }
  else if c = chr 'e' then
    if st.flags &&& oCloexec ≠ 0 then none else some { st with flags := st.flags ||| oCloexec }
  else if c = chr 'b' then some st
  else none

/-- The loop of `parse_mode_string` over the characters in memory, with the number of those it has
read. It leaves the loop at `string_end` with a state and at `fail` with none; there is no outcome
at all when it runs out of the memory. -/
def modeLoop : List Byte → ℕ → ModeState → Option (Option ModeState × ℕ)
  | [], _, _ => none
  | c :: memory, read, st =>
    if c = 0 then some (some st, read + 1)
    else
      match modeChar st c with
      | none => some (none, read + 1)
      | some st => modeLoop memory (read + 1) st

/-- What `parse_mode_string` returns, `errno` when it sets it, and how many characters it reads. -/
structure ParsedMode where
  flags : Flags
  errno : Option ℕ
  read : ℕ

/-- `parse_mode_string` on the memory from `mode` on. Nothing initialises `plus`. -/
def parseModeString (plus : Bool) : List Byte → Option ParsedMode
  | [] => none
  | first :: memory =>
    match modeLoop memory 1 ⟨0, plus⟩ with
    | none => none
    | some (none, read) => some ⟨0, some EINVAL, read⟩
    | some (some st, read) =>
      if first = chr 'r' then
        some ⟨st.flags ||| if st.plus then oRdwr else oRdonly, none, read⟩
      else if first = chr 'w' then
        some ⟨st.flags ||| ((if st.plus then oRdwr else oWronly) ||| oCreat ||| oTrunc), none, read⟩
      else if first = chr 'a' then
        some ⟨st.flags ||| ((if st.plus then oRdwr else oWronly) ||| oCreat ||| oAppend), none,
          read⟩
      else some ⟨0, some EINVAL, read⟩

/-! ### The grammar of modes -/

/-- The options behind the first character -/
structure ModeOptions (options : List Byte) : Prop where
  chars : ∀ c ∈ options, c = chr '+' ∨ c = chr 'x' ∨ c = chr 'e' ∨ c = chr 'b'
  plus : options.count (chr '+') ≤ 1
  excl : options.count (chr 'x') ≤ 1
  cloexec : options.count (chr 'e') ≤ 1

/-- The modes there are -/
def ModeGrammar : List Byte → Prop
  | [] => False
  | first :: options =>
    (first = chr 'r' ∨ first = chr 'w' ∨ first = chr 'a') ∧ ModeOptions options

/-- The flags of a mode -/
def modeFlags : List Byte → Flags
  | [] => 0
  | first :: options =>
    (if chr '+' ∈ options then oRdwr else if first = chr 'r' then oRdonly else oWronly) |||
    (if first = chr 'w' then oCreat ||| oTrunc
      else if first = chr 'a' then oCreat ||| oAppend else 0) |||
    (if chr 'x' ∈ options then oExcl else 0) |||
    (if chr 'e' ∈ options then oCloexec else 0)

/-- The parser follows the grammar on a string, which `rest` follows in memory. -/
def ParsesMode (plus : Bool) (mode rest : List Byte) : Prop :=
  ∃ p, parseModeString plus (mode ++ 0 :: rest) = some p ∧ p.read ≤ mode.length + 1 ∧
    (ModeGrammar mode → p.flags = modeFlags mode ∧ p.flags ≠ 0) ∧
    (¬ ModeGrammar mode → p.flags = 0 ∧ p.errno = some EINVAL)

/-! ### The loop -/

/-- The state that records which options there were -/
def modeSeen (plus excl cloexec : Bool) : ModeState :=
  ⟨(if excl then oExcl else 0) ||| (if cloexec then oCloexec else 0), plus⟩

/-- The options that may still follow -/
@[mk_iff remaining_def]
structure Remaining (plus excl cloexec : Bool) (options : List Byte) : Prop where
  chars : ∀ c ∈ options, c = chr '+' ∨ c = chr 'x' ∨ c = chr 'e' ∨ c = chr 'b'
  plus : options.count (chr '+') + plus.toNat ≤ 1
  excl : options.count (chr 'x') + excl.toNat ≤ 1
  cloexec : options.count (chr 'e') + cloexec.toNat ≤ 1

lemma remaining_iff (options : List Byte) :
    Remaining false false false options ↔ ModeOptions options :=
  ⟨fun h => ⟨h.chars, h.plus, h.excl, h.cloexec⟩, fun h => ⟨h.chars, h.plus, h.excl, h.cloexec⟩⟩

section

variable (plus excl cloexec : Bool) (options : List Byte)

lemma remaining_nil : Remaining plus excl cloexec [] := by
  refine ⟨fun c hc => (by cases hc), ?_, ?_, ?_⟩ <;>
  · rw [List.count_nil, Nat.zero_add]
    exact Bool.toNat_le _

lemma modeChar_plus :
    modeChar (modeSeen plus excl cloexec) (chr '+') =
      if plus then none else some (modeSeen true excl cloexec) := by
  cases plus <;> rfl

lemma modeChar_excl :
    modeChar (modeSeen plus excl cloexec) (chr 'x') =
      if excl then none else some (modeSeen plus true cloexec) := by
  cases plus <;> cases excl <;> cases cloexec <;> decide

lemma modeChar_cloexec :
    modeChar (modeSeen plus excl cloexec) (chr 'e') =
      if cloexec then none else some (modeSeen plus excl true) := by
  cases plus <;> cases excl <;> cases cloexec <;> decide

lemma modeChar_binary :
    modeChar (modeSeen plus excl cloexec) (chr 'b') = some (modeSeen plus excl cloexec) := rfl

lemma remaining_plus :
    Remaining plus excl cloexec (chr '+' :: options) ↔
      plus = false ∧ Remaining true excl cloexec options := by
  have hx : chr '+' ≠ chr 'x' := by decide
  have he : chr '+' ≠ chr 'e' := by decide
  rw [remaining_def, remaining_def]
  cases plus <;> simp [hx, he]

lemma remaining_excl :
    Remaining plus excl cloexec (chr 'x' :: options) ↔
      excl = false ∧ Remaining plus true cloexec options := by
  have hp : chr 'x' ≠ chr '+' := by decide
  have he : chr 'x' ≠ chr 'e' := by decide
  rw [remaining_def, remaining_def]
  cases excl <;> simp [hp, he]

lemma remaining_cloexec :
    Remaining plus excl cloexec (chr 'e' :: options) ↔
      cloexec = false ∧ Remaining plus excl true options := by
  have hp : chr 'e' ≠ chr '+' := by decide
  have hx : chr 'e' ≠ chr 'x' := by decide
  rw [remaining_def, remaining_def]
  cases cloexec <;> simp [hp, hx]

lemma remaining_binary :
    Remaining plus excl cloexec (chr 'b' :: options) ↔ Remaining plus excl cloexec options := by
  have hp : chr 'b' ≠ chr '+' := by decide
  have hx : chr 'b' ≠ chr 'x' := by decide
  have he : chr 'b' ≠ chr 'e' := by decide
  rw [remaining_def, remaining_def]
  simp [hp, hx, he]

end

/-- A character that is no option -/
lemma modeChar_other {c : Byte}
    (h : ¬(c = chr '+' ∨ c = chr 'x' ∨ c = chr 'e' ∨ c = chr 'b')) (st : ModeState) :
    modeChar st c = none := by
  obtain ⟨hp, hx, he, hb⟩ : c ≠ chr '+' ∧ c ≠ chr 'x' ∧ c ≠ chr 'e' ∧ c ≠ chr 'b' := by
    simpa [not_or] using h
  rw [modeChar, if_neg hp, if_neg hx, if_neg he, if_neg hb]

/-- The state behind a string of options -/
def modeSeenAfter (plus excl cloexec : Bool) (options : List Byte) : ModeState :=
  modeSeen (plus || decide (chr '+' ∈ options)) (excl || decide (chr 'x' ∈ options))
    (cloexec || decide (chr 'e' ∈ options))

/-- How the loop leaves a string that options may still follow in, or may not -/
structure LoopOutcome (plus excl cloexec : Bool) (options rest : List Byte) (read : ℕ) : Prop where
  done : Remaining plus excl cloexec options →
    modeLoop (options ++ 0 :: rest) read (modeSeen plus excl cloexec) =
      some (some (modeSeenAfter plus excl cloexec options), read + options.length + 1)
  failed : ¬ Remaining plus excl cloexec options → ∃ n ≤ read + options.length,
    modeLoop (options ++ 0 :: rest) read (modeSeen plus excl cloexec) = some (none, n)

lemma modeLoop_cons {c : Byte} (hc : c ≠ 0) (memory : List Byte) (read : ℕ) (st : ModeState) :
    modeLoop (c :: memory) read st =
      match modeChar st c with
      | none => some (none, read + 1)
      | some st => modeLoop memory (read + 1) st := by
  rw [modeLoop, if_neg hc]

/-- One option, which is refused when `blocked` -/
lemma LoopOutcome.cons {plus excl cloexec plus' excl' cloexec' : Bool} {c : Byte}
    {options rest : List Byte} {read : ℕ} (blocked : Bool) (hc : c ≠ 0)
    (hchar : modeChar (modeSeen plus excl cloexec) c =
      if blocked then none else some (modeSeen plus' excl' cloexec'))
    (hrem : Remaining plus excl cloexec (c :: options) ↔
      blocked = false ∧ Remaining plus' excl' cloexec' options)
    (hafter : modeSeenAfter plus' excl' cloexec' options =
      modeSeenAfter plus excl cloexec (c :: options))
    (ih : LoopOutcome plus' excl' cloexec' options rest (read + 1)) :
    LoopOutcome plus excl cloexec (c :: options) rest read := by
  cases blocked with
  | true =>
    refine ⟨fun h => absurd (hrem.mp h).1 (by decide), fun _ => ⟨read + 1, ?_, ?_⟩⟩
    · simp
    · rw [List.cons_append, modeLoop_cons hc, hchar]
      rfl
  | false =>
    have hstep : modeLoop (c :: options ++ 0 :: rest) read (modeSeen plus excl cloexec) =
        modeLoop (options ++ 0 :: rest) (read + 1) (modeSeen plus' excl' cloexec') := by
      rw [List.cons_append, modeLoop_cons hc, hchar]
      rfl
    have hlength : read + 1 + options.length = read + (c :: options).length := by
      rw [List.length_cons]
      omega
    refine ⟨fun h => ?_, fun h => ?_⟩
    · rw [hstep, ih.done (hrem.mp h).2, hafter, hlength]
    · obtain ⟨n, hn, heq⟩ := ih.failed fun h' => h (hrem.mpr ⟨rfl, h'⟩)
      exact ⟨n, hlength ▸ hn, hstep.trans heq⟩

/-- The string is read up to its terminator, or to the first option that may not stand there. -/
lemma modeLoop_spec (rest : List Byte) (options : List Byte) (h : 0 ∉ options) :
    ∀ plus excl cloexec read, LoopOutcome plus excl cloexec options rest read := by
  induction options with
  | nil =>
    intro plus excl cloexec read
    refine ⟨fun _ => ?_, fun hnot => absurd (remaining_nil plus excl cloexec) hnot⟩
    simp [modeLoop, modeSeenAfter]
  | cons c options ih =>
    intro plus excl cloexec read
    rw [List.mem_cons, not_or] at h
    have hc : c ≠ 0 := Ne.symm h.1
    have hpx : chr '+' ≠ chr 'x' := by decide
    have hpe : chr '+' ≠ chr 'e' := by decide
    have hxe : chr 'x' ≠ chr 'e' := by decide
    by_cases hoption : c = chr '+' ∨ c = chr 'x' ∨ c = chr 'e' ∨ c = chr 'b'
    · rcases hoption with rfl | rfl | rfl | rfl
      · refine .cons plus hc (modeChar_plus ..) (remaining_plus ..) ?_ (ih h.2 true excl cloexec _)
        simp [modeSeenAfter, hpx.symm, hpe.symm]
      · refine .cons excl hc (modeChar_excl ..) (remaining_excl ..) ?_ (ih h.2 plus true cloexec _)
        simp [modeSeenAfter, hpx, hxe.symm]
      · refine .cons cloexec hc (modeChar_cloexec ..) (remaining_cloexec ..) ?_
          (ih h.2 plus excl true _)
        simp [modeSeenAfter, hpe, hxe]
      · refine .cons false hc (modeChar_binary ..) ?_ ?_ (ih h.2 plus excl cloexec _)
        · rw [remaining_binary]
          simp
        · have hbp : chr '+' ≠ chr 'b' := by decide
          have hbx : chr 'x' ≠ chr 'b' := by decide
          have hbe : chr 'e' ≠ chr 'b' := by decide
          simp [modeSeenAfter, hbp, hbx, hbe]
    · have hfail := modeChar_other hoption (modeSeen plus excl cloexec)
      refine ⟨fun hrem => absurd (hrem.chars c List.mem_cons_self) hoption,
        fun _ => ⟨read + 1, ?_, ?_⟩⟩
      · simp
      · rw [List.cons_append, modeLoop_cons hc, hfail]

/-! ### The parser -/

/-- The end of `parse_mode_string`, in terms of what the options were -/
def modeResult (first : Byte) (plus excl cloexec : Bool) : Flags :=
  (if excl then oExcl else 0) ||| (if cloexec then oCloexec else 0) |||
    if first = chr 'r' then (if plus then oRdwr else oRdonly)
    else if first = chr 'w' then (if plus then oRdwr else oWronly) ||| oCreat ||| oTrunc
    else (if plus then oRdwr else oWronly) ||| oCreat ||| oAppend

/-- The first characters there are -/
def ModeAccess (first : Byte) : Prop := first = chr 'r' ∨ first = chr 'w' ∨ first = chr 'a'

section

variable {plus : Bool} {first : Byte} {options rest : List Byte}

lemma parseModeString_failed {n : ℕ}
    (h : modeLoop (options ++ 0 :: rest) 1 (modeSeen plus false false) = some (none, n)) :
    parseModeString plus (first :: options ++ 0 :: rest) = some ⟨0, some EINVAL, n⟩ := by
  rw [List.cons_append, parseModeString]
  rw [show (⟨0, plus⟩ : ModeState) = modeSeen plus false false from rfl, h]

lemma parseModeString_noAccess {st : ModeState} {n : ℕ}
    (h : modeLoop (options ++ 0 :: rest) 1 (modeSeen plus false false) = some (some st, n))
    (hfirst : ¬ ModeAccess first) :
    parseModeString plus (first :: options ++ 0 :: rest) = some ⟨0, some EINVAL, n⟩ := by
  obtain ⟨hr, hw, ha⟩ : first ≠ chr 'r' ∧ first ≠ chr 'w' ∧ first ≠ chr 'a' := by
    simpa [ModeAccess, not_or] using hfirst
  rw [List.cons_append, parseModeString]
  rw [show (⟨0, plus⟩ : ModeState) = modeSeen plus false false from rfl, h]
  dsimp only
  rw [if_neg hr, if_neg hw, if_neg ha]

lemma parseModeString_done {plus' excl cloexec : Bool} {n : ℕ}
    (h : modeLoop (options ++ 0 :: rest) 1 (modeSeen plus false false) =
      some (some (modeSeen plus' excl cloexec), n)) (hfirst : ModeAccess first) :
    parseModeString plus (first :: options ++ 0 :: rest) =
      some ⟨modeResult first plus' excl cloexec, none, n⟩ := by
  have hwr : chr 'w' ≠ chr 'r' := by decide
  have har : chr 'a' ≠ chr 'r' := by decide
  have haw : chr 'a' ≠ chr 'w' := by decide
  rw [List.cons_append, parseModeString]
  rw [show (⟨0, plus⟩ : ModeState) = modeSeen plus false false from rfl, h]
  dsimp only
  rcases hfirst with rfl | rfl | rfl
  · rw [if_pos rfl, modeResult, if_pos rfl]
    rfl
  · rw [if_neg hwr, if_pos rfl, modeResult, if_neg hwr, if_pos rfl]
    rfl
  · rw [if_neg har, if_neg haw, if_pos rfl, modeResult, if_neg har, if_neg haw]
    rfl

lemma modeFlags_eq (hfirst : ModeAccess first) :
    modeFlags (first :: options) = modeResult first (decide (chr '+' ∈ options))
      (decide (chr 'x' ∈ options)) (decide (chr 'e' ∈ options)) := by
  rw [modeFlags]
  by_cases hp : chr '+' ∈ options <;> by_cases hx : chr 'x' ∈ options <;>
    by_cases he : chr 'e' ∈ options <;> simp only [hp, hx, he, decide_true, decide_false] <;>
    rcases hfirst with rfl | rfl | rfl <;> decide

lemma modeResult_ne_zero (hfirst : ModeAccess first) (plus excl cloexec : Bool) :
    modeResult first plus excl cloexec ≠ 0 := by
  rcases hfirst with rfl | rfl | rfl <;> cases plus <;> cases excl <;> cases cloexec <;> decide

/-- Whether there was a `+` shows in the flags. -/
lemma modeResult_plus (hfirst : ModeAccess first) (excl cloexec : Bool) :
    modeResult first true excl cloexec ≠ modeResult first false excl cloexec := by
  rcases hfirst with rfl | rfl | rfl <;> cases excl <;> cases cloexec <;> decide

lemma Remaining.modeOptions (h : Remaining plus false false options) : ModeOptions options :=
  ⟨h.chars, (Nat.le_add_right _ _).trans h.plus, h.excl, h.cloexec⟩

/-- A mode that the grammar does not have is refused, whatever `plus` was. -/
lemma parseModeString_refuses (h : 0 ∉ options) (hmode : ¬ ModeGrammar (first :: options)) :
    ∃ p, parseModeString plus (first :: options ++ 0 :: rest) = some p ∧
      p.read ≤ (first :: options).length + 1 ∧ p.flags = 0 ∧ p.errno = some EINVAL := by
  have hloop := modeLoop_spec rest options h plus false false 1
  rw [List.length_cons]
  by_cases hrem : Remaining plus false false options
  · have hfirst : ¬ ModeAccess first := fun hfirst => hmode ⟨hfirst, hrem.modeOptions⟩
    exact ⟨_, parseModeString_noAccess (hloop.done hrem) hfirst, by dsimp only; omega, rfl, rfl⟩
  · obtain ⟨n, hn, heq⟩ := hloop.failed hrem
    exact ⟨_, parseModeString_failed heq, by dsimp only; omega, rfl, rfl⟩

/-- A mode of the grammar is read right when there is no `+` to begin with. -/
lemma parseModeString_accepts (h : 0 ∉ options) (hmode : ModeGrammar (first :: options)) :
    ∃ p, parseModeString false (first :: options ++ 0 :: rest) = some p ∧
      p.read ≤ (first :: options).length + 1 ∧ p.flags = modeFlags (first :: options) ∧
      p.flags ≠ 0 := by
  have hloop := modeLoop_spec rest options h false false false 1
  have hdone := parseModeString_done (hloop.done ((remaining_iff options).mpr hmode.2)) hmode.1
  refine ⟨_, hdone, ?_, ?_, modeResult_ne_zero hmode.1 _ _ _⟩
  · simp only [List.length_cons]
    omega
  · rw [modeFlags_eq hmode.1, Bool.false_or, Bool.false_or, Bool.false_or]

/-- With `plus` set to begin with no mode is read right. -/
lemma parseModeString_garbage (h : 0 ∉ options) (hmode : ModeGrammar (first :: options)) :
    ¬ ParsesMode true (first :: options) rest := by
  rintro ⟨p, hp, -, haccept, -⟩
  obtain ⟨hflags, hne⟩ := haccept hmode
  have hloop := modeLoop_spec rest options h true false false 1
  by_cases hrem : Remaining true false false options
  · have hplus : chr '+' ∉ options := by
      refine List.count_eq_zero.mp ?_
      have := hrem.plus
      simp only [Bool.toNat_true] at this
      omega
    rw [parseModeString_done (hloop.done hrem) hmode.1, Option.some.injEq] at hp
    rw [← hp, modeFlags_eq hmode.1, Bool.true_or, Bool.false_or, Bool.false_or,
      decide_eq_false hplus] at hflags
    exact modeResult_plus hmode.1 _ _ hflags
  · obtain ⟨n, -, heq⟩ := hloop.failed hrem
    rw [parseModeString_failed heq, Option.some.injEq] at hp
    rw [← hp] at hne
    exact hne rfl

end

/-- Behind the terminator of an empty string the loop reads on. -/
lemma modeLoop_read (memory : List Byte) :
    ∀ {read : ℕ} {st : ModeState} {r : Option ModeState × ℕ},
      modeLoop memory read st = some r → read < r.2 := by
  induction memory with
  | nil =>
    intro read st r h
    cases h
  | cons c memory ih =>
    intro read st r h
    rw [modeLoop] at h
    split_ifs at h with hc
    · cases h
      exact Nat.lt_succ_self _
    · cases hchar : modeChar st c with
      | none =>
        rw [hchar] at h
        cases h
        exact Nat.lt_succ_self _
      | some st' =>
        rw [hchar] at h
        exact (Nat.lt_succ_self _).trans (ih h)

lemma parseModeString_empty (plus : Bool) (rest : List Byte) : ¬ ParsesMode plus [] rest := by
  rintro ⟨p, hp, hread, -, -⟩
  rw [List.nil_append, parseModeString] at hp
  cases hloop : modeLoop rest 1 ⟨0, plus⟩ with
  | none =>
    rw [hloop] at hp
    cases hp
  | some r =>
    have hlt := modeLoop_read rest hloop
    have hp' : p.read = r.2 := by
      rw [hloop] at hp
      obtain ⟨_ | st, n⟩ := r
      · cases hp
        rfl
      · have hr : (0 : Byte) ≠ chr 'r' := by decide
        have hw : (0 : Byte) ≠ chr 'w' := by decide
        have ha : (0 : Byte) ≠ chr 'a' := by decide
        simp only [if_neg hr, if_neg hw, if_neg ha, Option.some.injEq] at hp
        rw [← hp]
    rw [List.length_nil] at hread
    omega

/-- The parser follows the grammar on a string if it is not empty and there is no garbage in
`plus`; only the refusal of other strings does not depend on that. -/
theorem parseModeString_iff (plus : Bool) {mode : List Byte} (h : 0 ∉ mode) (rest : List Byte) :
    ParsesMode plus mode rest ↔ mode ≠ [] ∧ (plus = false ∨ ¬ ModeGrammar mode) := by
  cases mode with
  | nil =>
    exact ⟨fun hp => absurd hp (parseModeString_empty plus rest), fun hne => absurd rfl hne.1⟩
  | cons first options =>
    have hoptions : 0 ∉ options := fun hmem => h (List.mem_cons_of_mem _ hmem)
    by_cases hmode : ModeGrammar (first :: options)
    · cases plus with
      | false =>
        refine iff_of_true ?_ ⟨List.cons_ne_nil _ _, Or.inl rfl⟩
        obtain ⟨p, hp, hread, hflags⟩ := parseModeString_accepts hoptions hmode
        exact ⟨p, hp, hread, fun _ => hflags, fun hnot => absurd hmode hnot⟩
      | true =>
        refine iff_of_false (parseModeString_garbage hoptions hmode) ?_
        rintro ⟨-, hplus | hnot⟩
        · cases hplus
        · exact hnot hmode
    · refine iff_of_true ?_ ⟨List.cons_ne_nil _ _, Or.inr hmode⟩
      obtain ⟨p, hp, hread, hflags⟩ := parseModeString_refuses hoptions hmode
      exact ⟨p, hp, hread, fun hyes => absurd hyes hmode, fun _ => hflags⟩

/-- The mode `r`, which nothing follows in memory -/
theorem parseModeString_iff_read :
    ParsesMode false [chr 'r'] [] ↔ [chr 'r'] ≠ [] ∧ (false = false ∨ ¬ ModeGrammar [chr 'r']) :=
  parseModeString_iff false (by decide) []

/-- The mode `r` opens for reading and writing when the storage of `plus` was set before. -/
theorem not_parsesMode_read : ¬ ParsesMode true [chr 'r'] [] := by
  have hmode : ModeGrammar [chr 'r'] :=
    ⟨Or.inl rfl, ⟨fun c hc => (by cases hc), by decide, by decide, by decide⟩⟩
  exact parseModeString_garbage (by decide) hmode

end Fluke.Libc
