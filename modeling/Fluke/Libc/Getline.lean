import Fluke.Libc.Stdio

/-!
# `getdelim`

`getdelim` reads a line of any length into a block that grows with the line. The block comes
from the caller and from `realloc`, which is a parameter here.

A block is known by the bytes it holds; a write past its end is an error of the model.
-/

namespace Fluke.Libc

/-- `*_lineptr` and `*_n` -/
structure LineBuffer where
  lineptr : Option (List Byte)
  n : ℕ

/-- `errno` -/
inductive Errno where
  | EINVAL | ENOMEM
  deriving DecidableEq, Repr

/-- What `getdelim` leaves; `errno` is what it set, if anything. -/
structure GetdelimOut where
  result : ℤ
  errno : Option Errno
  buffer : LineBuffer
  file : File

/-- `realloc`, on the contents of a block -/
abbrev Realloc := Option (List Byte) → ℕ → Option (List Byte)

/-- What `realloc` promises of the block it returns: it has the size asked for, fits the memory
of a process and keeps the contents. -/
def Realloc.Keeps (realloc : Realloc) : Prop :=
  ∀ line size block, realloc line size = some block →
    block.length = size ∧ size ≤ 2 ^ 47 ∧
      ∀ old, line = some old → old.take size <+: block

/-- `realloc` succeeds for the block that so many bytes of a line need. -/
def Realloc.Serves (realloc : Realloc) (count : ℕ) : Prop :=
  ∀ line size, size ≤ 16 + 2 * count → realloc line size ≠ none

/-- `realloc` succeeds for every line of the stream. -/
def Realloc.ServesLines (realloc : Realloc) (delim : Byte) (bytes : List Byte) : Prop :=
  ∀ line, line <:+: bytes → delim ∉ line → realloc.Serves line.length

/-- `cap < 16 ? 16 : (cap * 3) / 2` -/
def growCap (cap : ℕ) : ℕ := if cap < 16 then 16 else cap * 3 % 2 ^ 64 / 2

/-- `line[i] = byte` -/
def storeByte (line : List Byte) (i : ℕ) (byte : Byte) : Except Stop (List Byte) :=
  if i < line.length then .ok (line.set i byte) else .error .outOfBounds

/-- The end of `getdelim`, after the loop -/
def getdelimEnd (line : List Byte) (len cap : ℕ) (f : File) : Except Stop GetdelimOut :=
  if len < cap then do
    let line ← storeByte line len 0
    .ok ⟨if len > 0 then len else -1, none, ⟨some line, cap⟩, f⟩
  else .error .assertion

lemma fgetc_shorter {f f' : File} {ch : Byte} (h : fgetc f = (some ch, f')) :
    f'.bytes.length < f.bytes.length := by
  have hloop : ∀ f : File, (libcReadLoop f 0) = ([], f) := by
    intro f
    rw [libcReadLoop, if_pos rfl]
  unfold fgetc libcRead at h
  split_ifs at h with heof
  · cases h
  rw [libcReadLoop, if_neg one_ne_zero] at h
  have hmin : min 1 intMax = 1 := rfl
  rw [hmin] at h
  unfold File.readfn at h
  have hcount : ∀ k, min 1 (max 1 k) = 1 := fun k => by omega
  cases hreads : f.reads with
  | nil =>
    cases hbytes : f.bytes with
    | nil => simp [hreads, hbytes] at h
    | cons byte bytes =>
      simp only [hreads, hbytes, List.take_succ_cons, List.take_zero, List.length_nil, hloop] at h
      cases h
      simp
  | cons r reads =>
    cases r with
    | none => simp [hreads] at h
    | some k =>
      cases hbytes : f.bytes with
      | nil => simp [hreads, hbytes] at h
      | cons byte bytes =>
        simp only [hreads, hbytes, hcount, List.take_succ_cons, List.take_zero, List.length_nil,
          hloop] at h
        cases h
        simp

/-- The test for room and the call of `realloc`, with the local variables and the caller's
afterwards -/
def growLine (realloc : Realloc) (line : Option (List Byte)) (len cap : ℕ) (buffer : LineBuffer) :
    Option (Option (List Byte) × ℕ × LineBuffer) :=
  if len + 1 ≥ cap then
    match realloc line (growCap cap) with
    | none => none
    | some block => some (some block, growCap cap, ⟨some block, growCap cap⟩)
  else some (line, cap, buffer)

/-- The loop of `getdelim`. `line` and `cap` are its local variables; `buffer` is what the
caller's variables hold. -/
def getdelimLoop (realloc : Realloc) (delim : Byte) (line : Option (List Byte)) (len cap : ℕ)
    (buffer : LineBuffer) (f : File) : Except Stop GetdelimOut :=
  match growLine realloc line len cap buffer with
  | none => .ok ⟨-1, some .ENOMEM, buffer, f⟩
  | some (none, _, _) => .error .outOfBounds
  | some (some line, cap, buffer) =>
    match h : fgetc f with
    | (none, f') =>
      if f'.error then .ok ⟨-1, none, buffer, f'⟩ else getdelimEnd line len cap f'
    | (some ch, f') =>
      match storeByte line len ch with
      | .error stop => .error stop
      | .ok line =>
        if ch = delim then getdelimEnd line (len + 1) cap f'
        else getdelimLoop realloc delim (some line) (len + 1) cap ⟨some line, cap⟩ f'
termination_by f.bytes.length
decreasing_by exact fgetc_shorter h

/-- `getdelim`; nothing stands for pointers of which one is null. -/
def getdelim (realloc : Realloc) (buffer : Option LineBuffer) (delim : BitVec 32) (f : File) :
    Except Stop GetdelimOut :=
  match buffer with
  | none => .ok ⟨-1, some .EINVAL, ⟨none, 0⟩, f⟩
  | some buffer =>
    getdelimLoop realloc (delim.setWidth 8) buffer.lineptr 0
      (if buffer.lineptr.isSome then buffer.n else 0) buffer f

/-! ### One call -/

/-- A call has taken `line` from the front of `bytes`. -/
structure LineRead (delim : Byte) (bytes line : List Byte) (out : GetdelimOut) : Prop where
  bytes : bytes = line ++ out.file.bytes
  inner : delim ∉ line.dropLast
  last : line.getLast? = some delim ∨ out.file.bytes = []
  result : out.result = if line = [] then -1 else (line.length : ℤ)
  buffer : ∃ block, out.buffer.lineptr = some block ∧ block.length = out.buffer.n ∧
    out.buffer.n ≤ 2 ^ 47 ∧ line ++ [0] <+: block
  ready : out.file.Ready

/-- The block and its capacity in the loop, with the bytes read so far. -/
structure LoopBuffer (line : Option (List Byte)) (cap : ℕ) (buffer : LineBuffer)
    (read : List Byte) : Prop where
  block : ∀ old, line = some old → old.length = cap ∧ read <+: old ∧ buffer = ⟨line, cap⟩
  null : line = none → cap = 0 ∧ read = []
  room : read = [] ∨ read.length < cap
  bound : cap ≤ 2 ^ 47

lemma growCap_spec {cap : ℕ} (h : cap ≤ 2 ^ 47) : cap < growCap cap ∧ 16 ≤ growCap cap := by
  unfold growCap
  split_ifs with hsmall
  · omega
  · rw [Nat.mod_eq_of_lt (by omega)]
    omega

/-- The block that `realloc` returns is longer and keeps what was read. -/
lemma LoopBuffer.grow {realloc : Realloc} (hrealloc : realloc.Keeps) {line : Option (List Byte)}
    {cap : ℕ} {buffer : LineBuffer} {read block : List Byte} (h : LoopBuffer line cap buffer read)
    (hblock : realloc line (growCap cap) = some block) :
    LoopBuffer (some block) (growCap cap) ⟨some block, growCap cap⟩ read ∧
      read.length + 1 < growCap cap := by
  obtain ⟨hlength, hbound, hkeep⟩ := hrealloc _ _ _ hblock
  obtain ⟨hgrow, hmin⟩ := growCap_spec h.bound
  have hroom : read.length + 1 < growCap cap := by
    rcases h.room with rfl | hroom
    · simp only [List.length_nil]
      omega
    · omega
  refine ⟨⟨fun old hold => ?_, fun hnull => (by cases hnull), Or.inr (by omega), hbound⟩, hroom⟩
  cases hold
  refine ⟨hlength, ?_, rfl⟩
  cases hline : line with
  | none =>
    rw [(h.null hline).2]
    exact List.nil_prefix
  | some old =>
    obtain ⟨hold, hread, -⟩ := h.block old hline
    refine List.IsPrefix.trans ?_ (hkeep old hline)
    rwa [List.take_of_length_le (by omega)]

/-- A block grows only when it is full, so it stays below twice what was read. -/
lemma growCap_le {cap len : ℕ} (hfull : len + 1 ≥ cap) (hcap : cap ≤ 2 ^ 47) :
    growCap cap ≤ 16 + 2 * len := by
  unfold growCap
  split_ifs with hsmall
  · omega
  · rw [Nat.mod_eq_of_lt (by omega)]
    omega

/-- The loop has room for one more byte and the terminator. -/
lemma growLine_spec {realloc : Realloc} (hrealloc : realloc.Keeps) {line : Option (List Byte)}
    {cap : ℕ} {buffer : LineBuffer} {read : List Byte} (hserves : realloc.Serves read.length)
    (h : LoopBuffer line cap buffer read) :
    ∃ block cap' buffer',
      growLine realloc line read.length cap buffer = some (some block, cap', buffer') ∧
        LoopBuffer (some block) cap' buffer' read ∧ read.length + 1 < cap' := by
  unfold growLine
  split_ifs with hfull
  · cases hblock : realloc line (growCap cap) with
    | none => exact absurd hblock (hserves line _ (growCap_le hfull h.bound))
    | some block => exact ⟨block, _, _, rfl, h.grow hrealloc hblock⟩
  · cases hline : line with
    | none =>
      have := (h.null hline).1
      omega
    | some block =>
      subst hline
      exact ⟨block, cap, buffer, rfl, h, by omega⟩

/-- A byte that is stored behind the bytes read so far. -/
lemma storeByte_spec {read block : List Byte} (h : read <+: block)
    (hlt : read.length < block.length) (byte : Byte) :
    ∃ block', storeByte block read.length byte = .ok block' ∧ block'.length = block.length ∧
      read ++ [byte] <+: block' := by
  obtain ⟨rest, rfl⟩ := h
  refine ⟨_, if_pos hlt, List.length_set, ?_⟩
  rw [List.length_append] at hlt
  obtain ⟨old, rest, rfl⟩ := List.exists_cons_of_length_pos (l := rest) (by omega)
  rw [List.set_append_right _ _ le_rfl, tsub_self, List.set_cons_zero]
  exact ⟨rest, by simp⟩

/-- The line that ends with the loop. -/
lemma getdelimEnd_spec {delim : Byte} {line block : List Byte} {cap : ℕ} {f : File}
    (hcap : block.length = cap) (hbound : cap ≤ 2 ^ 47) (hline : line <+: block)
    (hroom : line.length < cap) (hinner : delim ∉ line.dropLast)
    (hlast : line.getLast? = some delim ∨ f.bytes = []) (hf : f.Ready) :
    ∃ out, getdelimEnd block line.length cap f = .ok out ∧ out.errno = none ∧
      LineRead delim (line ++ f.bytes) line out := by
  obtain ⟨block', hstore, hlength, hpre⟩ := storeByte_spec hline (by omega) 0
  unfold getdelimEnd
  rw [if_pos hroom, hstore]
  refine ⟨_, rfl, rfl, ⟨rfl, hinner, hlast, ?_,
    ⟨block', rfl, hlength.trans hcap, hbound, hpre⟩, hf⟩⟩
  cases line with
  | nil => rfl
  | cons b bs => simp

/-- The loop reads up to the delimiter or the end of the file. -/
lemma getdelimLoop_spec {realloc : Realloc} (hrealloc : realloc.Keeps) (delim : Byte)
    (left : List Byte) : ∀ (line : Option (List Byte)) (cap : ℕ) (buffer : LineBuffer)
    (read : List Byte) (f : File), f.bytes = left → f.Ready → LoopBuffer line cap buffer read →
    delim ∉ read → realloc.ServesLines delim (read ++ left) →
    ∃ out, getdelimLoop realloc delim line read.length cap buffer f = .ok out ∧
      out.errno = none ∧ ∃ line, LineRead delim (read ++ left) line out := by
  induction left with
  | nil =>
    intro line cap buffer read f hleft hf hbuffer hread hserves
    have hserve := hserves read (List.prefix_append _ _).isInfix hread
    obtain ⟨f', hgetc, hbytes, hf'⟩ := fgetc_spec hf
    rw [hleft] at hgetc hbytes
    rw [getdelimLoop]
    obtain ⟨block, cap', buffer', hgrow, h, hroom⟩ := growLine_spec hrealloc hserve hbuffer
    rw [hgrow]
    obtain ⟨hlength, hpre, -⟩ := h.block block rfl
    obtain ⟨out, hout, herrno, hline⟩ := getdelimEnd_spec hlength h.bound hpre
      (by omega) (fun hmem => hread (List.dropLast_subset _ hmem)) (Or.inr hbytes) hf'
    rw [hbytes] at hline
    refine ⟨out, ?_, herrno, read, hline⟩
    dsimp only
    split
    · rename_i heq
      rw [hgetc] at heq
      cases heq
      rw [hf'.sound.1]
      exact hout
    · rename_i heq
      rw [hgetc] at heq
      cases heq
  | cons byte left ih =>
    intro line cap buffer read f hleft hf hbuffer hread hserves
    have hserve := hserves read (List.prefix_append _ _).isInfix hread
    obtain ⟨f', hgetc, hbytes, hf'⟩ := fgetc_spec hf
    rw [hleft] at hgetc hbytes
    rw [getdelimLoop]
    obtain ⟨block, cap', buffer', hgrow, h, hroom⟩ := growLine_spec hrealloc hserve hbuffer
    rw [hgrow]
    obtain ⟨hlength, hpre, -⟩ := h.block block rfl
    obtain ⟨block', hstore, hlength', hpre'⟩ := storeByte_spec hpre (by omega) byte
    have hread' : (read ++ [byte]).length = read.length + 1 := by simp
    dsimp only
    split
    · rename_i heq
      rw [hgetc] at heq
      cases heq
    · rename_i heq
      rw [hgetc] at heq
      cases heq
      rw [hstore, ← hread']
      dsimp only
      split_ifs with hdelim
      · obtain ⟨out, hout, herrno, hline⟩ := getdelimEnd_spec (hlength'.trans hlength) h.bound
          hpre' (by omega) (by simpa using hread) (Or.inl (by simp [hdelim])) hf'
        refine ⟨out, hout, herrno, read ++ [byte], ?_⟩
        rw [hbytes] at hline
        simpa using hline
      · have hbuffer' : LoopBuffer (some block') cap' ⟨some block', cap'⟩ (read ++ [byte]) :=
          ⟨fun old hold => by cases hold; exact ⟨hlength'.trans hlength, hpre', rfl⟩,
            fun hnull => (by cases hnull), Or.inr (by omega), h.bound⟩
        have hnext := ih (some block') cap' _ (read ++ [byte]) f' hbytes hf' hbuffer' (by
          simp only [List.mem_append, List.mem_singleton, not_or]
          exact ⟨hread, fun heq => hdelim heq.symm⟩) (by simpa using hserves)
        simpa using hnext

/-- The buffers a caller may pass: no block, or a block of `*n` bytes. -/
def LineBuffer.Valid (buffer : LineBuffer) : Prop :=
  ∀ block, buffer.lineptr = some block → block.length = buffer.n ∧ buffer.n ≤ 2 ^ 47

lemma getdelim_spec {realloc : Realloc} (hrealloc : realloc.Keeps) (delim : BitVec 32)
    {buffer : LineBuffer} (hbuffer : buffer.Valid) {f : File} (hf : f.Ready)
    (hserves : realloc.ServesLines (delim.setWidth 8) f.bytes) :
    ∃ out, getdelim realloc (some buffer) delim f = .ok out ∧
      out.errno = none ∧ ∃ line, LineRead (delim.setWidth 8) f.bytes line out := by
  refine getdelimLoop_spec hrealloc (delim.setWidth 8) f.bytes buffer.lineptr _ buffer [] f rfl hf
    ⟨fun old hold => ?_, fun hnull => ?_, Or.inl rfl, ?_⟩ List.not_mem_nil hserves
  · have hsome : buffer.lineptr.isSome = true := by rw [hold]; rfl
    rw [if_pos hsome]
    exact ⟨(hbuffer old hold).1, List.nil_prefix, rfl⟩
  · rw [hnull]
    exact ⟨rfl, rfl⟩
  · split_ifs with hsome
    · obtain ⟨block, hblock⟩ := Option.isSome_iff_exists.mp hsome
      exact (hbuffer block hblock).2
    · exact Nat.zero_le _

/-! ### Successive calls -/

/-- Calls with the same variables until one returns -1, with what each of them leaves. -/
inductive Calls (realloc : Realloc) (delim : BitVec 32) :
    LineBuffer → File → List GetdelimOut → Prop
  | last {buffer : LineBuffer} {f : File} {out : GetdelimOut}
      (h : getdelim realloc (some buffer) delim f = .ok out) (hend : out.result = -1) :
      Calls realloc delim buffer f [out]
  | more {buffer : LineBuffer} {f : File} {out : GetdelimOut} {outs : List GetdelimOut}
      (h : getdelim realloc (some buffer) delim f = .ok out) (hmore : out.result ≠ -1)
      (hrest : Calls realloc delim out.buffer out.file outs) :
      Calls realloc delim buffer f (out :: outs)

/-- The lines that calls have taken from the front of `bytes`: each leaves the rest to the
next, and the last finds nothing. -/
inductive LinesRead (delim : Byte) :
    (bytes : List Byte) → List (List Byte) → List GetdelimOut → Prop
  | last {out : GetdelimOut} (h : LineRead delim [] [] out) : LinesRead delim [] [] [out]
  | more {line rest : List Byte} {out : GetdelimOut} {lines : List (List Byte)}
      {outs : List GetdelimOut} (h : LineRead delim (line ++ rest) line out) (hne : line ≠ [])
      (hrest : LinesRead delim rest lines outs) :
      LinesRead delim (line ++ rest) (line :: lines) (out :: outs)

variable {delim : Byte} {bytes : List Byte} {lines : List (List Byte)} {outs : List GetdelimOut}

lemma LinesRead.flatten (h : LinesRead delim bytes lines outs) : lines.flatten = bytes := by
  induction h with
  | last h => rfl
  | more h hne hrest ih => rw [List.flatten_cons, ih]

lemma LinesRead.inner (h : LinesRead delim bytes lines outs) :
    ∀ line ∈ lines, line ≠ [] ∧ delim ∉ line.dropLast := by
  induction h with
  | last h => exact fun line hline => (by cases hline)
  | more h hne hrest ih => exact List.forall_mem_cons.mpr ⟨⟨hne, h.inner⟩, ih⟩

lemma LinesRead.getLast (h : LinesRead delim bytes lines outs) :
    ∀ line ∈ lines.dropLast, line.getLast? = some delim := by
  induction h with
  | last h => exact fun line hline => (by cases hline)
  | @more line rest out lines outs h hne hrest ih =>
    cases lines with
    | nil => exact fun line hline => (by cases hline)
    | cons next lines =>
      rw [List.dropLast_cons_of_ne_nil (List.cons_ne_nil _ _)]
      refine List.forall_mem_cons.mpr ⟨?_, ih⟩
      refine h.last.resolve_right fun hnil => ?_
      have hrest' : rest = out.file.bytes := List.append_cancel_left h.bytes
      have hnext := hrest.flatten
      rw [hrest', hnil, List.flatten_cons, List.append_eq_nil_iff] at hnext
      exact (hrest.inner next List.mem_cons_self).1 hnext.1

/-- Calls read on until nothing is left. -/
lemma calls_linesRead {realloc : Realloc} (hrealloc : realloc.Keeps) (delim : BitVec 32) (n : ℕ) :
    ∀ (buffer : LineBuffer) (f : File), f.bytes.length = n → buffer.Valid → f.Ready →
      realloc.ServesLines (delim.setWidth 8) f.bytes →
      ∃ outs lines, Calls realloc delim buffer f outs ∧ (∀ out ∈ outs, out.errno = none) ∧
        LinesRead (delim.setWidth 8) f.bytes lines outs := by
  induction n using Nat.strong_induction_on with
  | _ n ih =>
    rintro buffer f rfl hbuffer hf hserves
    obtain ⟨out, hout, herrno, line, hline⟩ := getdelim_spec hrealloc delim hbuffer hf hserves
    have hbytes := hline.bytes
    by_cases hnil : line = []
    · subst hnil
      have hresult : out.result = -1 := hline.result
      refine ⟨[out], [], .last hout hresult, List.forall_mem_singleton.mpr herrno, ?_⟩
      have hend : f.bytes = [] := by
        rcases hline.last with hlast | hend
        · cases hlast
        · rw [hbytes, hend]
          rfl
      rw [hend] at hline ⊢
      exact .last hline
    · have hresult : out.result ≠ -1 := by
        rw [hline.result, if_neg hnil]
        omega
      have hlt : out.file.bytes.length < f.bytes.length := by
        rw [hbytes, List.length_append]
        have := List.length_pos_of_ne_nil hnil
        omega
      obtain ⟨block, hblock, hlength, hbound, -⟩ := hline.buffer
      have hvalid : out.buffer.Valid := by
        intro block' hblock'
        rw [hblock] at hblock'
        cases hblock'
        exact ⟨hlength, hbound⟩
      have hserves' : realloc.ServesLines (delim.setWidth 8) out.file.bytes := by
        intro piece hpiece
        refine hserves piece (hpiece.trans ?_)
        rw [hbytes]
        exact (List.suffix_append _ _).isInfix
      obtain ⟨outs, lines, hcalls, herrnos, hlines⟩ :=
        ih _ hlt out.buffer out.file rfl hvalid hline.ready hserves'
      refine ⟨out :: outs, line :: lines, .more hout hresult hcalls,
        List.forall_mem_cons.mpr ⟨herrno, herrnos⟩, ?_⟩
      rw [hbytes] at hline ⊢
      exact .more hline hnil hlines

/-- Where `realloc` succeeds for the lines of the stream, successive calls take the stream apart
into these lines and lose nothing of it. Each line but the last ends with the delimiter, which
stands nowhere else in it. -/
theorem getdelim_lossless {realloc : Realloc} (hrealloc : realloc.Keeps) (delim : BitVec 32)
    {buffer : LineBuffer} (hbuffer : buffer.Valid) {f : File} (hf : f.Ready)
    (hserves : realloc.ServesLines (delim.setWidth 8) f.bytes) :
    ∃ outs lines, Calls realloc delim buffer f outs ∧ (∀ out ∈ outs, out.errno = none) ∧
      LinesRead (delim.setWidth 8) f.bytes lines outs ∧ lines.flatten = f.bytes ∧
      (∀ line ∈ lines, line ≠ [] ∧ delim.setWidth 8 ∉ line.dropLast) ∧
      ∀ line ∈ lines.dropLast, line.getLast? = some (delim.setWidth 8) := by
  obtain ⟨outs, lines, hcalls, herrno, hlines⟩ :=
    calls_linesRead hrealloc delim _ buffer f rfl hbuffer hf hserves
  exact ⟨outs, lines, hcalls, herrno, hlines, hlines.flatten, hlines.inner, hlines.getLast⟩

/-- A `realloc` that fills the new part of a block with zeroes. -/
def zeroRealloc : Realloc := fun line size =>
  if size ≤ 2 ^ 47 then
    some ((line.getD []).take size ++ List.replicate (size - (line.getD []).length) 0)
  else none

lemma zeroRealloc_keeps : zeroRealloc.Keeps := by
  intro line size block h
  unfold zeroRealloc at h
  split_ifs at h with hsize
  cases h
  refine ⟨?_, hsize, fun old hold => ?_⟩
  · rw [List.length_append, List.length_take, List.length_replicate]
    omega
  · subst hold
    exact List.prefix_append _ _

lemma zeroRealloc_serves {count : ℕ} (h : count ≤ 2 ^ 40) : zeroRealloc.Serves count := by
  intro line size hsize
  unfold zeroRealloc
  rw [if_pos (by omega)]
  exact Option.some_ne_none _

/-- Two lines, the second without a delimiter. -/
def twoLines : File := ⟨false, false, [97, 98, 10, 99], [some 1, some 3]⟩

/-- The lines of a stream, read into a block that `realloc` provides. -/
theorem getdelim_lossless_twoLines :
    ∃ outs lines, Calls zeroRealloc 10 ⟨none, 0⟩ twoLines outs ∧
      (∀ out ∈ outs, out.errno = none) ∧ LinesRead 10 twoLines.bytes lines outs ∧
      lines.flatten = twoLines.bytes ∧ (∀ line ∈ lines, line ≠ [] ∧ 10 ∉ line.dropLast) ∧
      ∀ line ∈ lines.dropLast, line.getLast? = some 10 :=
  getdelim_lossless zeroRealloc_keeps 10 (fun _ h => (by cases h))
    ⟨⟨rfl, by decide⟩, fun h => (by cases h)⟩
    fun _ hline _ => zeroRealloc_serves (hline.length_le.trans (by decide))

end Fluke.Libc
