import Fluke.Libc.Stdio

/-!
# Blocks of items

`fread` and `fwrite` move an array of items. A read or a write of the descriptor may take less
than it is asked for, so both loop; what they deliver does not depend on how the loop is cut.
-/

namespace Fluke.Libc

/-- `EOVERFLOW` -/
abbrev EOVERFLOW : ℕ := 23

/-- `struct FILE`, as a writer uses it. `sent` is what the descriptor has accepted. `writes` says
how the coming writes go: `none` fails, `some k` accepts at most `k` bytes, but one at least. -/
structure OutFile where
  error : Bool
  sent : List Byte
  writes : List (Option ℕ)

/-- `writefn`: the number of bytes that are accepted, and nothing when the write fails. -/
def OutFile.writefn (f : OutFile) (data : List Byte) (n : ℕ) : Option ℕ × OutFile :=
  match f.writes with
  | none :: writes => (none, { f with writes := writes })
  | some k :: writes =>
    let count := min n (max 1 k)
    (some count, { f with sent := f.sent ++ data.take count, writes := writes })
  | [] => (some n, { f with sent := f.sent ++ data.take n })

/-- The loop of `__libc_write`; it returns the number of bytes that remain. -/
def libcWriteLoop (f : OutFile) (data : List Byte) (remaining : ℕ) : ℕ × OutFile :=
  if remaining = 0 then (0, f)
  else
    match f.writefn data (min remaining intMax) with
    | (none, f) | (some 0, f) => (remaining, { f with error := true })
    | (some (n + 1), f) => libcWriteLoop f (data.drop (n + 1)) (remaining - (n + 1))
termination_by remaining
decreasing_by omega

/-- `__libc_write` -/
def libcWrite (f : OutFile) (data : List Byte) (size : ℕ) : ℕ × OutFile :=
  let (remaining, f) := libcWriteLoop f data size
  (size - remaining, f)

/-- What `fread` and `fwrite` return, and `errno` when they set it. -/
structure Count (φ : Type) where
  items : ℕ
  errno : Option ℕ
  file : φ

/-- `fread`, with the bytes it stores. -/
def fread (itemSize nitems : ℕ) (f : File) : List Byte × Count File :=
  let size := itemSize * nitems
  if 2 ^ 64 ≤ size then ([], ⟨0, some EOVERFLOW, f⟩)
  else if size = 0 then ([], ⟨0, none, f⟩)
  else
    let (stored, f) := libcRead f size
    (stored, ⟨stored.length / itemSize, none, f⟩)

/-- `fwrite` -/
def fwrite (buf : List Byte) (itemSize nitems : ℕ) (f : OutFile) : Count OutFile :=
  let size := itemSize * nitems
  if 2 ^ 64 ≤ size then ⟨0, some EOVERFLOW, f⟩
  else if size = 0 then ⟨0, none, f⟩
  else
    let (delivered, f) := libcWrite f buf size
    ⟨delivered / itemSize, none, f⟩

/-! ### Reading -/

/-- Without a failing read the loop reads what there is, up to the size it is asked for. It sees
the end of the file only when it looks for more than there is. -/
lemma libcReadLoop_spec {f : File} (hf : none ∉ f.reads) (remaining : ℕ) :
    ∃ reads, libcReadLoop f remaining = (f.bytes.take remaining,
      ⟨f.eof || decide (f.bytes.length < remaining), f.error, f.bytes.drop remaining, reads⟩) := by
  induction remaining using Nat.strong_induction_on generalizing f with
  | _ remaining ih =>
    rw [libcReadLoop]
    split_ifs with hzero
    · exact ⟨f.reads, by simp [hzero]⟩
    obtain ⟨count, reads, hpos, hle, hreads, heq⟩ :=
      File.readfn_spec hf (n := min remaining intMax) (by simp; omega)
    rw [heq]
    cases hbytes : f.bytes with
    | nil => exact ⟨reads, by simp [List.length_nil]; omega⟩
    | cons byte bytes =>
      -- one turn takes `n + 1` bytes, none of them from beyond the end
      obtain ⟨n, hn, hle', htake, hdrop⟩ : ∃ n, n ≤ bytes.length ∧ n + 1 ≤ count ∧
          (byte :: bytes).take count = byte :: bytes.take n ∧
          (byte :: bytes).drop count = bytes.drop n := by
        obtain ⟨k, rfl⟩ : ∃ k, count = k + 1 := ⟨count - 1, by omega⟩
        refine ⟨min k bytes.length, min_le_right .., by omega, ?_, ?_⟩
        · rw [List.take_succ_cons, List.take_eq_take_min]
        · rcases le_total k bytes.length with h | h
          · rw [List.drop_succ_cons, min_eq_left h]
          · rw [List.drop_succ_cons, min_eq_right h, List.drop_length, List.drop_of_length_le h]
      have hlen : (bytes.take n).length = n := List.length_take_of_le hn
      have hremaining : remaining = (n + 1) + (remaining - (n + 1)) := by omega
      obtain ⟨reads', hrest⟩ := ih (remaining - (n + 1)) (by omega) (f :=
        { f with bytes := bytes.drop n, reads := reads }) hreads
      simp only [htake, hdrop, hlen, hrest]
      refine ⟨reads', Prod.ext ?_ ?_⟩
      · show byte :: bytes.take n ++ (bytes.drop n).take (remaining - (n + 1)) = _
        rw [hremaining, List.take_add, ← hremaining]
        rfl
      · show File.mk _ _ _ _ = File.mk _ _ _ _
        have hdone : (bytes.drop n).drop (remaining - (n + 1)) =
            (byte :: bytes).drop remaining := by
          rw [List.drop_drop, ← List.drop_succ_cons (a := byte)]
          congr 1
          omega
        have hend : (bytes.drop n).length < remaining - (n + 1) ↔
            (byte :: bytes).length < remaining := by
          rw [List.length_drop, List.length_cons]
          omega
        rw [hdone, decide_eq_decide.mpr hend]

/-- What a read of `size` bytes leaves behind, whichever way it is cut. -/
lemma libcRead_spec {f : File} (hf : none ∉ f.reads) (size : ℕ) :
    ∃ reads, libcRead f size = if f.eof then ([], { f with reads := reads }) else
      (f.bytes.take size,
        ⟨decide (f.bytes.length < size), f.error, f.bytes.drop size, reads⟩) := by
  rw [libcRead]
  split_ifs with heof
  · exact ⟨f.reads, rfl⟩
  · obtain ⟨reads, heq⟩ := libcReadLoop_spec hf size
    exact ⟨reads, by rw [heq, Bool.eq_false_iff.mpr heof, Bool.false_or]⟩

/-! ### Writing -/

/-- One write: it fails, or it takes a part of the data that is not empty. -/
lemma OutFile.writefn_spec (f : OutFile) (data : List Byte) {n : ℕ} (hn : 0 < n) :
    (∃ writes, f.writes = none :: writes ∧ f.writefn data n = (none, { f with writes := writes })) ∨
    ∃ count used writes, count < n ∧ f.writes = used ++ writes ∧ none ∉ used ∧
      f.writefn data n = (some (count + 1),
        { f with sent := f.sent ++ data.take (count + 1), writes := writes }) := by
  unfold OutFile.writefn
  cases hw : f.writes with
  | nil =>
    obtain ⟨count, rfl⟩ : ∃ count, n = count + 1 := ⟨n - 1, by omega⟩
    exact Or.inr ⟨count, [], [], by omega, rfl, by simp, by simp only⟩
  | cons w writes =>
    cases w with
    | none => exact Or.inl ⟨writes, rfl, rfl⟩
    | some k =>
      have hcount : min n (max 1 k) = min n (max 1 k) - 1 + 1 := by omega
      refine Or.inr ⟨min n (max 1 k) - 1, [some k], writes, by omega, rfl, by simp, ?_⟩
      rw [← hcount]

/-- What writing some of the data amounts to: a part from its front is accepted, and all of it
unless a write failed. `used` are the writes that were made. -/
structure Accepts (f : OutFile) (data : List Byte) (size count : ℕ) (used : List (Option ℕ))
    (f' : OutFile) : Prop where
  le : count ≤ size
  sent : f'.sent = f.sent ++ data.take count
  writes : f.writes = used ++ f'.writes
  whole : count = size ↔ none ∉ used
  error : f'.error = (f.error || decide (none ∈ used))

/-- Nothing is to be written. -/
lemma Accepts.nothing (f : OutFile) (data : List Byte) : Accepts f data 0 0 [] f := by
  constructor <;> simp

/-- The first write fails. -/
lemma Accepts.failed {f : OutFile} {data : List Byte} {size : ℕ} (hsize : 0 < size)
    {writes : List (Option ℕ)} (h : f.writes = none :: writes) :
    Accepts f data size 0 [none] { f with writes := writes, error := true } := by
  constructor
  · omega
  · simp
  · exact h
  · simp
    omega
  · simp

/-- A part is accepted, and the rest is written after it. -/
lemma Accepts.cons {f f' : OutFile} {data : List Byte} {size count rest : ℕ}
    {used used' writes : List (Option ℕ)} (hcount : count ≤ size)
    (hwrites : f.writes = used ++ writes) (hused : none ∉ used)
    (h : Accepts { f with sent := f.sent ++ data.take count, writes := writes } (data.drop count)
      (size - count) rest used' f') : Accepts f data size (count + rest) (used ++ used') f' := by
  obtain ⟨hle, hsent, hrest, hwhole, herror⟩ := h
  constructor
  · omega
  · rw [hsent, List.append_assoc, ← List.take_add]
  · rw [hwrites, List.append_assoc]
    exact congrArg (used ++ ·) hrest
  · rw [List.mem_append, not_or, ← hwhole]
    constructor
    · intro h
      exact ⟨hused, by omega⟩
    · rintro ⟨-, h⟩
      omega
  · rw [herror]
    congr 1
    rw [decide_eq_decide, List.mem_append]
    exact ⟨Or.inr, fun h => h.resolve_left hused⟩

lemma libcWriteLoop_spec (f : OutFile) (data : List Byte) (remaining : ℕ) :
    ∃ count used f', libcWriteLoop f data remaining = (remaining - count, f') ∧
      Accepts f data remaining count used f' := by
  induction remaining using Nat.strong_induction_on generalizing f data with
  | _ remaining ih =>
    rw [libcWriteLoop]
    split_ifs with hzero
    · subst hzero
      exact ⟨0, [], f, rfl, .nothing f data⟩
    rcases f.writefn_spec data (n := min remaining intMax) (by simp; omega) with
      ⟨writes, hwrites, heq⟩ | ⟨count, used, writes, hcount, hwrites, hused, heq⟩
    · rw [heq]
      exact ⟨0, [none], _, rfl, .failed (by omega) hwrites⟩
    · rw [heq]
      obtain ⟨rest, used', f', hrest, haccepts⟩ := ih (remaining - (count + 1)) (by omega)
        { f with sent := f.sent ++ data.take (count + 1), writes := writes }
        (data.drop (count + 1))
      refine ⟨count + 1 + rest, used ++ used', f', ?_, .cons (by omega) hwrites hused haccepts⟩
      rw [← Nat.sub_sub]
      exact hrest

lemma libcWrite_spec (f : OutFile) (data : List Byte) (size : ℕ) :
    ∃ count used f', libcWrite f data size = (count, f') ∧ Accepts f data size count used f' := by
  obtain ⟨count, used, f', heq, haccepts⟩ := libcWriteLoop_spec f data size
  refine ⟨count, used, f', ?_, haccepts⟩
  have hle := haccepts.le
  rw [libcWrite, heq]
  exact Prod.ext (by dsimp only; omega) rfl

/-! ### Items -/

/-- `fread` does not depend on how the reads are cut. -/
lemma fread_spec {f : File} (hf : none ∉ f.reads) {itemSize nitems : ℕ}
    (h : itemSize * nitems < 2 ^ 64) :
    ∃ reads, fread itemSize nitems f =
      let stored := if f.eof then [] else f.bytes.take (itemSize * nitems)
      (stored, ⟨stored.length / itemSize, none,
        ⟨f.eof || decide (f.bytes.length < itemSize * nitems), f.error,
          f.bytes.drop stored.length, reads⟩⟩) := by
  rw [fread]
  dsimp only
  rw [if_neg (by omega)]
  split_ifs with hsize heof heof
  · exact ⟨f.reads, by simp [hsize]⟩
  · exact ⟨f.reads, by simp [hsize]⟩
  · obtain ⟨reads, heq⟩ := libcRead_spec hf (itemSize * nitems)
    exact ⟨reads, by simp [heq, heof]⟩
  · obtain ⟨reads, heq⟩ := libcRead_spec hf (itemSize * nitems)
    refine ⟨reads, ?_⟩
    simp only [heq, heof, Bool.false_eq_true, if_false, Bool.false_or]
    congr 3
    rw [List.length_take]
    rcases le_total (itemSize * nitems) f.bytes.length with h | h
    · rw [min_eq_left h]
    · rw [min_eq_right h, List.drop_length, List.drop_of_length_le h]

/-- `fwrite` delivers the front of the buffer. -/
lemma fwrite_spec (f : OutFile) (buf : List Byte) {itemSize nitems : ℕ}
    (h : itemSize * nitems < 2 ^ 64) :
    ∃ count used f', fwrite buf itemSize nitems f = ⟨count / itemSize, none, f'⟩ ∧
      Accepts f buf (itemSize * nitems) count used f' := by
  rw [fwrite]
  dsimp only
  rw [if_neg (by omega)]
  split_ifs with hsize
  · exact ⟨0, [], f, by rw [Nat.zero_div], hsize ▸ .nothing f buf⟩
  · obtain ⟨count, used, f', heq, haccepts⟩ := libcWrite_spec f buf (itemSize * nitems)
    exact ⟨count, used, f', by rw [heq], haccepts⟩

/-- Reading and writing items does not depend on how the descriptor cuts the bytes. Two streams
with the same bytes and flags, whose reads do not fail, fill the buffer alike and end alike,
however many bytes each read delivers. A write delivers the front of the buffer, however many
bytes each write accepts, and the whole buffer if and only if none of the writes `used` fails. -/
theorem blocks_chunking (f g : File) (hbytes : f.bytes = g.bytes) (heof : f.eof = g.eof)
    (herror : f.error = g.error) (hf : none ∉ f.reads) (hg : none ∉ g.reads) (o : OutFile)
    (itemSize nitems : ℕ) (hsize : itemSize * nitems < 2 ^ 64) (buf : List Byte)
    (hbuf : buf.length = itemSize * nitems) :
    ((fread itemSize nitems f).1 = (fread itemSize nitems g).1 ∧
      (fread itemSize nitems f).2.items = (fread itemSize nitems g).2.items ∧
      (fread itemSize nitems f).2.items = (fread itemSize nitems f).1.length / itemSize ∧
      (fread itemSize nitems f).1 =
        (if f.eof then [] else f.bytes.take (itemSize * nitems)) ∧
      (fread itemSize nitems f).2.file.bytes = f.bytes.drop (fread itemSize nitems f).1.length ∧
      (fread itemSize nitems f).2.file.bytes = (fread itemSize nitems g).2.file.bytes ∧
      (fread itemSize nitems f).2.file.eof = (fread itemSize nitems g).2.file.eof ∧
      (fread itemSize nitems f).2.file.error = (fread itemSize nitems g).2.file.error) ∧
    ∃ delivered rest used, buf = delivered ++ rest ∧
      (fwrite buf itemSize nitems o).file.sent = o.sent ++ delivered ∧
      (fwrite buf itemSize nitems o).items = delivered.length / itemSize ∧
      o.writes = used ++ (fwrite buf itemSize nitems o).file.writes ∧
      (delivered = buf ↔ none ∉ used) ∧
      (fwrite buf itemSize nitems o).file.error = (o.error || decide (none ∈ used)) := by
  constructor
  · obtain ⟨reads, hfread⟩ := fread_spec hf hsize
    obtain ⟨reads', hgread⟩ := fread_spec hg hsize
    rw [hfread, hgread, ← hbytes, ← heof, ← herror]
    exact ⟨rfl, rfl, rfl, rfl, rfl, rfl, rfl, rfl⟩
  · obtain ⟨count, used, o', heq, haccepts⟩ := fwrite_spec o buf hsize
    have hlength : (buf.take count).length = count :=
      List.length_take_of_le (hbuf ▸ haccepts.le)
    have hwhole : buf.take count = buf ↔ count = itemSize * nitems := by
      rw [← hbuf, List.take_eq_self_iff]
      have hle := haccepts.le
      omega
    rw [heq]
    refine ⟨buf.take count, buf.drop count, used, (List.take_append_drop count buf).symm,
      haccepts.sent, ?_, haccepts.writes, ?_, haccepts.error⟩
    · rw [hlength]
    · rw [hwhole]
      exact haccepts.whole

/-- Three bytes read one at a time and all at once into two items of two bytes, and written one
byte at a time until the second write fails. -/
theorem blocks_chunking_three :
    (fread 2 2 ⟨false, false, [1, 2, 3], [some 1, some 1, some 1]⟩).1 =
      (fread 2 2 ⟨false, false, [1, 2, 3], []⟩).1 ∧
    ∃ (delivered rest : List Byte) (used : List (Option ℕ)), [1, 2, 3, 4] = delivered ++ rest ∧
      (fwrite [1, 2, 3, 4] 2 2 ⟨false, [], [some 1, none]⟩).file.sent = delivered ∧
      (delivered = [1, 2, 3, 4] ↔ none ∉ used) := by
  obtain ⟨⟨hread, -⟩, delivered, rest, used, hbuf, hsent, -, -, hwhole, -⟩ := blocks_chunking
    ⟨false, false, [1, 2, 3], [some 1, some 1, some 1]⟩ ⟨false, false, [1, 2, 3], []⟩
    rfl rfl rfl (by decide) (by decide) ⟨false, [], [some 1, none]⟩ 2 2 (by decide)
    [1, 2, 3, 4] rfl
  exact ⟨hread, delivered, rest, used, hbuf, hsent, hwhole⟩

end Fluke.Libc
