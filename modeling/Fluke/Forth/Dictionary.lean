import Fluke.Forth.Words
import Fluke.Library.Chain

/-!
# The dictionary

The words that the interpreter knows are a list of headers, linked from the latest to the first.
The words lie apart from each other, and a search passes through their names in this order.
-/

namespace Fluke

open Outcome ByteMemory

/-! ### Lists of headers -/

/-- A word of the dictionary: where it starts and ends, and the name in its header. -/
structure DictEntry where
  header : ℕ
  stop : ℕ
  name : List (BitVec 8)
  deriving DecidableEq

/-- The memory of the words does not overlap. -/
def DictEntry.Apart (e e' : DictEntry) : Prop := e.stop ≤ e'.header ∨ e'.stop ≤ e.header

/-- The header of a word, without its link and its flag -/
structure HasHeader (m : ByteMemory) (e : DictEntry) : Prop where
  nonnull : e.header ≠ 0
  aligned : e.header % 8 = 0
  length : m (e.header + 9) = BitVec.ofNat 8 e.name.length
  name : m.bytesAt (e.header + 10) (e.name.length + 1) = e.name ++ [0]
  name_ne_nil : e.name ≠ []
  name_le : e.name.length ≤ 126
  stop_le : e.header + 11 + e.name.length ≤ e.stop
  fits : e.stop ≤ 2 ^ 64

/-- The dictionary leads through these words, the latest one first. -/
structure IsDictionary (m : ByteMemory) (dictionary : ℕ) (entries : List DictEntry) : Prop where
  chained : Chained (fun e => (m.load e).toNat) dictionary (entries.map DictEntry.header) 0
  headers : ∀ e ∈ entries, HasHeader m e
  apart : entries.Pairwise DictEntry.Apart

/-- The first word of a name, or the null pointer. -/
def firstEntry (entries : List DictEntry) (name : List (BitVec 8)) : ℕ :=
  ((entries.find? fun e => e.name = name).map DictEntry.header).getD 0

lemma firstEntry_cons (e : DictEntry) (entries : List DictEntry) (name : List (BitVec 8)) :
    firstEntry (e :: entries) name =
      if e.name = name then e.header else firstEntry entries name := by
  rw [firstEntry, List.find?_cons]
  split_ifs with h
  · rw [decide_eq_true h]
    rfl
  · rw [decide_eq_false h]
    rfl

/-- A search ends with a word or with the null pointer. -/
lemma firstEntry_mem (entries : List DictEntry) (name : List (BitVec 8)) :
    firstEntry entries name = 0 ∨ ∃ e ∈ entries, firstEntry entries name = e.header := by
  induction entries with
  | nil => exact Or.inl rfl
  | cons e entries ih =>
    rw [firstEntry_cons]
    split_ifs with h
    · exact Or.inr ⟨e, List.mem_cons_self, rfl⟩
    · refine ih.imp_right ?_
      rintro ⟨e', he', hfirst⟩
      exact ⟨e', List.mem_cons_of_mem _ he', hfirst⟩

/-- The null pointer is the answer when there is no word of the name, and only then. -/
lemma firstEntry_eq_zero {entries : List DictEntry} {name : List (BitVec 8)}
    (h : ∀ e ∈ entries, e.header ≠ 0) :
    firstEntry entries name = 0 ↔ ∀ e ∈ entries, e.name ≠ name := by
  induction entries with
  | nil => exact iff_of_true rfl fun e he => absurd he List.not_mem_nil
  | cons e entries ih =>
    obtain ⟨he, hentries⟩ := List.forall_mem_cons.mp h
    rw [firstEntry_cons, List.forall_mem_cons]
    split_ifs with hname
    · exact iff_of_false he fun hall => hall.1 hname
    · rw [ih hentries]
      exact (and_iff_right hname).symm

variable {m m' : ByteMemory} {e : DictEntry} {entries : List DictEntry} {dictionary : ℕ}

/-- The memory of a word is the same, but maybe for its flag. -/
def DictEntry.Same (e : DictEntry) (m m' : ByteMemory) : Prop :=
  ∀ x, e.header ≤ x → x < e.stop → x ≠ e.header + 8 → m' x = m x

lemma HasHeader.congr (h : HasHeader m e) (hsame : e.Same m m') : HasHeader m' e := by
  have hstop := h.stop_le
  refine { h with length := ?_, name := ?_ }
  · rw [← h.length]
    exact hsame _ (by omega) (by omega) (by omega)
  · conv_rhs => rw [← h.name]
    exact bytesAt_congr fun x hx hx' => hsame x (by omega) (by omega) (by omega)

lemma HasHeader.load_congr (h : HasHeader m e) (hsame : e.Same m m') :
    m'.load e.header = m.load e.header := by
  have hstop := h.stop_le
  exact ByteMemory.load_congr fun x hx hx' => hsame x hx (by omega) (by omega)

/-- Flags do not matter, nor does the memory outside of the words. -/
lemma IsDictionary.congr (h : IsDictionary m dictionary entries)
    (hsame : ∀ e ∈ entries, e.Same m m') : IsDictionary m' dictionary entries := by
  refine ⟨h.chained.congr ?_, fun e he => (h.headers e he).congr (hsame e he), h.apart⟩
  intro p hp
  obtain ⟨e, he, rfl⟩ := List.mem_map.mp hp
  exact congrArg BitVec.toNat ((h.headers e he).load_congr (hsame e he))

/-- A new word in front -/
lemma IsDictionary.cons (h : IsDictionary m dictionary entries) (hheader : HasHeader m e)
    (hlink : (m.load e.header).toNat = dictionary) (hapart : ∀ e' ∈ entries, e.Apart e') :
    IsDictionary m e.header (e :: entries) := by
  refine ⟨⟨rfl, ?_⟩, ?_, List.pairwise_cons.mpr ⟨hapart, h.apart⟩⟩
  · have hchained := h.chained
    rw [← hlink] at hchained
    exact hchained
  · exact List.forall_mem_cons.mpr ⟨hheader, h.headers⟩

/-- The flag of the latest word is in its header. -/
lemma IsDictionary.latest (h : IsDictionary m dictionary entries) (hne : dictionary ≠ 0) :
    ∃ e ∈ entries, e.header = dictionary ∧ ∀ e' ∈ entries, e' = e ∨ e.Apart e' := by
  cases entries with
  | nil => exact absurd h.chained hne
  | cons e entries =>
    refine ⟨e, List.mem_cons_self, h.chained.1.symm, fun e' he' => ?_⟩
    rcases List.mem_cons.mp he' with rfl | he'
    · exact Or.inl rfl
    · exact Or.inr ((List.pairwise_cons.mp h.apart).1 e' he')

/-- In the memory of the words, the flag of the latest one is nothing else. -/
lemma IsDictionary.ne_flag (h : IsDictionary m dictionary entries) (hne : dictionary ≠ 0)
    (he : e ∈ entries) {x : ℕ} (hx : e.header ≤ x) (hx' : x < e.stop)
    (hflag : x = e.header + 8 → dictionary ≠ e.header) : x ≠ dictionary + 8 := by
  obtain ⟨latest, hmem, hlatest, hapart⟩ := h.latest hne
  have hstop := (h.headers latest hmem).stop_le
  rintro rfl
  rcases hapart e he with rfl | hlow | hhigh
  · exact hflag (by rw [hlatest]) hlatest.symm
  · omega
  · omega

/-- The loop finds the first word of the name. -/
lemma lookupWord_spec {query : List (BitVec 8)} {name : ℕ}
    (hquery : m.bytesAt name query.length = query) :
    ∀ {fuel p : ℕ}, entries.length < fuel → IsDictionary m p entries →
      lookupWord m name query.length fuel p = .ok (firstEntry entries query) := by
  induction entries with
  | nil =>
    intro fuel p hfuel h
    obtain ⟨fuel, rfl⟩ := Nat.exists_eq_succ_of_ne_zero (Nat.ne_zero_of_lt hfuel)
    have hp : p = 0 := h.chained
    rw [lookupWord, if_pos hp]
    rfl
  | cons e entries ih =>
    intro fuel p hfuel h
    obtain ⟨fuel, rfl⟩ := Nat.exists_eq_succ_of_ne_zero (Nat.ne_zero_of_lt hfuel)
    obtain ⟨⟨rfl, hchained⟩, hheaders, hapart⟩ := h
    obtain ⟨hheader, hheaders⟩ := List.forall_mem_cons.mp hheaders
    have hnext : lookupWord m name query.length fuel (m.load e.header).toNat =
        .ok (firstEntry entries query) :=
      ih (Nat.lt_of_succ_lt_succ hfuel) ⟨hchained, hheaders, (List.pairwise_cons.mp hapart).2⟩
    have hcount : (m (e.header + 9)).toNat = e.name.length := by
      have hle := hheader.name_le
      rw [hheader.length, BitVec.toNat_ofNat, Nat.mod_eq_of_lt (by omega)]
    have hchars : m.bytesAt (e.header + 10) e.name.length = e.name :=
      (bytesAt_split hheader.name).1
    rw [lookupWord, if_neg hheader.nonnull, hcount, hnext, firstEntry_cons]
    split_ifs with hlen hname hname
    · obtain ⟨r, hr, hiff⟩ := @memcmp_eq m query.length (e.header + 10) name
        (hlen ▸ List.length_pos_iff.mpr hheader.name_ne_nil)
      rw [hr, ok_bind, if_pos]
      rw [hiff, hquery, ← hlen, hchars, hname]
    · obtain ⟨r, hr, hiff⟩ := @memcmp_eq m query.length (e.header + 10) name
        (hlen ▸ List.length_pos_iff.mpr hheader.name_ne_nil)
      rw [hr, ok_bind, if_neg]
      rw [hiff, hquery, ← hlen, hchars]
      exact hname
    · exact absurd (congrArg List.length hname) hlen
    · rfl

end Fluke
