import Mathlib.Tactic

/-!
# Streams

A `FILE` reads from a descriptor through its `readfn`. What the descriptor still delivers is a
list of bytes; how many of them one read delivers, and which reads fail, is not up to the reader.
-/

namespace Fluke.Libc

/-- `unsigned char` -/
abbrev Byte := BitVec 8

scoped instance lawfulBEq_byte : LawfulBEq Byte := inferInstance

/-- `INT_MAX` -/
abbrev intMax : ℕ := 2 ^ 31 - 1

/-- Why a function of the library does not return. -/
inductive Stop where
  /-- `assert` -/
  | assertion
  /-- Not a stop of the source: memory outside of a block is written to. -/
  | outOfBounds
  deriving DecidableEq, Repr

/-- `struct FILE`, as a reader uses it. `bytes` is what the descriptor still delivers. `reads`
says how the coming reads go: `none` fails, `some k` delivers at most `k` bytes, but one at least
unless none is left. -/
structure File where
  eof : Bool
  error : Bool
  bytes : List Byte
  reads : List (Option ℕ)

/-- `readfn`: nothing when the read fails, and no bytes when there are none. -/
def File.readfn (f : File) (n : ℕ) : Option (List Byte) × File :=
  match f.reads with
  | none :: reads => (none, { f with reads := reads })
  | some k :: reads =>
    let count := min n (max 1 k)
    (some (f.bytes.take count), { f with bytes := f.bytes.drop count, reads := reads })
  | [] => (some (f.bytes.take n), { f with bytes := f.bytes.drop n })

/-- The loop of `__libc_read`, with `remaining` bytes to go. -/
def libcReadLoop (f : File) (remaining : ℕ) : List Byte × File :=
  if remaining = 0 then ([], f)
  else
    match f.readfn (min remaining intMax) with
    | (none, f) => ([], { f with error := true })
    | (some [], f) => ([], { f with eof := true })
    | (some (byte :: bytes), f) =>
      let (rest, f) := libcReadLoop f (remaining - (bytes.length + 1))
      (byte :: bytes ++ rest, f)
termination_by remaining
decreasing_by omega

/-- `__libc_read`, with the bytes it stores; it returns their number. -/
def libcRead (f : File) (size : ℕ) : List Byte × File :=
  if f.eof then ([], f) else libcReadLoop f size

/-- `fgetc`; `EOF` is nothing. -/
def fgetc (f : File) : Option Byte × File :=
  match libcRead f 1 with
  | ([], f) => (none, f)
  | (byte :: _, f) => (some byte, f)

/-- No read fails. -/
def File.Sound (f : File) : Prop := f.error = false ∧ none ∉ f.reads

/-- A stream from which everything that is left can be read: after the end of the file nothing
is left. -/
structure File.Ready (f : File) : Prop where
  sound : f.Sound
  eof : f.eof = true → f.bytes = []

/-- One read of a descriptor that does not fail: a non-empty part of what is left, unless nothing
is left. -/
lemma File.readfn_spec {f : File} (hreads : none ∉ f.reads) {n : ℕ} (hn : 0 < n) :
    ∃ count reads, 0 < count ∧ count ≤ n ∧ none ∉ reads ∧ f.readfn n =
      (some (f.bytes.take count), { f with bytes := f.bytes.drop count, reads := reads }) := by
  unfold File.readfn
  cases hr : f.reads with
  | nil => exact ⟨n, [], hn, le_rfl, by simp, by simp only⟩
  | cons r reads =>
    rw [hr, List.mem_cons, not_or] at hreads
    cases r with
    | none => exact absurd rfl hreads.1
    | some k => exact ⟨min n (max 1 k), reads, by omega, by omega, hreads.2, rfl⟩

/-- `fgetc` delivers the first byte that is left. -/
lemma fgetc_spec {f : File} (h : f.Ready) :
    ∃ f', fgetc f = (f.bytes.head?, f') ∧ f'.bytes = f.bytes.tail ∧ f'.Ready := by
  obtain ⟨hf, heof⟩ := h
  unfold fgetc libcRead
  by_cases hend : f.eof = true
  · rw [if_pos hend, heof hend]
    exact ⟨f, rfl, heof hend, ⟨hf, heof⟩⟩
  rw [if_neg hend]
  obtain ⟨count, reads, hpos, hle, hreads, heq⟩ :=
    File.readfn_spec hf.2 (n := min 1 intMax) (by decide)
  have hcount : count = 1 := by
    have : min 1 intMax = 1 := rfl
    omega
  rw [libcReadLoop, if_neg one_ne_zero, heq, hcount]
  cases hbytes : f.bytes with
  | nil => exact ⟨_, rfl, rfl, ⟨⟨hf.1, hreads⟩, fun _ => rfl⟩⟩
  | cons byte bytes =>
    simp only [List.take_succ_cons, List.take_zero, List.drop_succ_cons, List.drop_zero,
      List.length_nil, zero_add, tsub_self]
    rw [libcReadLoop, if_pos rfl]
    exact ⟨_, rfl, rfl, ⟨⟨hf.1, hreads⟩, fun h => absurd h hend⟩⟩

end Fluke.Libc
