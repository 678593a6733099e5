import Fluke.Libc.Compare

/-!
# Objects shared by the kernel

The kernel publishes a table of named objects, which an entry without an object ends. The search by
name looks at the first entry only: its loop never goes on to the next one.
-/

namespace Fluke.Libc

open ByteMemory

/-- `_fluke_user_share_name` on the table at `share`, with a bound on the rounds of its loop. It
gives nothing while the loop is running. -/
def flukeUserShareName (m : ByteMemory) (name share : ℕ) : ℕ → Option Word
  | 0 => none
  | fuel + 1 =>
    if m.load share ≠ 0 then
      match strcmp m name (share + 8) with
      | none => none
      | some r => if r = 0 then some (m.load share) else flukeUserShareName m name share fuel
    else some 0

/-- `struct _fluke_user_shared_object` -/
structure UserSharedObject where
  object : Word
  name : List (BitVec 8)

/-- The table stands at `share`: entries with an object and a name, and one without an object. -/
inductive ShareTable (m : ByteMemory) : ℕ → List UserSharedObject → Prop
  | nil {share : ℕ} (hnull : m.load share = 0) : ShareTable m share []
  | cons {share : ℕ} {entry : UserSharedObject} {entries : List UserSharedObject}
      (hobject : m.load share = entry.object) (hne : entry.object ≠ 0)
      (hname : IsString m (share + 8) entry.name) (hrest : ShareTable m (share + 40) entries) :
      ShareTable m share (entry :: entries)

/-- The object of the first entry with the name, and null without one -/
def firstNamed (entries : List UserSharedObject) (s : List (BitVec 8)) : Word :=
  ((entries.find? fun entry => entry.name = s).map UserSharedObject.object).getD 0

section

variable {m : ByteMemory} {name share : ℕ} {s : List (BitVec 8)} {entry : UserSharedObject}
  {entries : List UserSharedObject}

/-- Two strings compare as equal if and only if they are. -/
lemma strcmp_eq_zero {t : List (BitVec 8)} {a b : ℕ} (ha : IsString m a s) (hb : IsString m b t) :
    ∃ r, strcmp m a b = some r ∧ (r = 0 ↔ s = t) := by
  obtain ⟨r, hr, hsign⟩ := strcmp_signed ha hb
  exact ⟨r, hr, hsign.eq_zero_iff.trans signed_inj⟩

lemma flukeUserShareName_nil (h : m.load share = 0) (fuel : ℕ) :
    flukeUserShareName m name share (fuel + 1) = some 0 := by
  rw [flukeUserShareName, if_neg (not_not.mpr h)]

lemma flukeUserShareName_first (hname : IsString m name s) (hne : m.load share ≠ 0)
    (h : IsString m (share + 8) s) (fuel : ℕ) :
    flukeUserShareName m name share (fuel + 1) = some (m.load share) := by
  obtain ⟨r, hr, hzero⟩ := strcmp_eq_zero hname h
  rw [flukeUserShareName, if_pos hne, hr]
  exact if_pos (hzero.mpr rfl)

/-- With another name in the first entry, the loop runs forever. -/
lemma flukeUserShareName_running {t : List (BitVec 8)} (hname : IsString m name s)
    (hne : m.load share ≠ 0) (h : IsString m (share + 8) t) (hst : s ≠ t) (fuel : ℕ) :
    flukeUserShareName m name share fuel = none := by
  obtain ⟨r, hr, hzero⟩ := strcmp_eq_zero hname h
  induction fuel with
  | zero => rfl
  | succ fuel ih =>
    rw [flukeUserShareName, if_pos hne, hr]
    dsimp only
    rw [if_neg fun h => hst (hzero.mp h), ih]

end

/-- The search returns the first entry with the name if and only if the table is empty or its first
entry has the name. -/
theorem flukeUserShareName_iff (m : ByteMemory) (name share : ℕ) (s : List (BitVec 8))
    (entries : List UserSharedObject) (hname : IsString m name s)
    (htable : ShareTable m share entries) :
    (∃ fuel, flukeUserShareName m name share fuel = some (firstNamed entries s)) ↔
      ∀ entry ∈ entries.head?, entry.name = s := by
  cases htable with
  | nil hnull =>
    refine iff_of_true ⟨1, flukeUserShareName_nil hnull 0⟩ fun entry h => ?_
    cases h
  | @cons _ entry entries hobject hne hentry hrest =>
    have hload : m.load share ≠ 0 := by rwa [hobject]
    constructor
    · rintro ⟨fuel, hreturns⟩ e he
      obtain rfl : entry = e := Option.some.inj he
      by_contra hst
      rw [flukeUserShareName_running hname hload hentry (Ne.symm hst)] at hreturns
      cases hreturns
    · intro hfirst
      have hs : entry.name = s := hfirst entry rfl
      have hfound : firstNamed (entry :: entries) s = m.load share := by
        rw [firstNamed, List.find?_cons_of_pos (by simpa using hs), hobject]
        rfl
      rw [hs] at hentry
      rw [hfound]
      exact ⟨1, flukeUserShareName_first hname hload hentry 0⟩

/-- A table at `0x1000` with three objects, named "ab", "c" and "ab", and the names "ab" and "c" at
`0x2000` and at `0x2003` -/
def threeObjects : ByteMemory := fun x =>
  if x = 0x1000 then 7 else if x = 0x1028 then 8 else if x = 0x1050 then 9
  else if x ∈ [0x1008, 0x1058, 0x2000] then 0x61
  else if x ∈ [0x1009, 0x1059, 0x2001] then 0x62
  else if x ∈ [0x1030, 0x2003] then 0x63
  else 0

lemma threeObjects_table :
    ShareTable threeObjects 0x1000 [⟨7, [0x61, 0x62]⟩, ⟨8, [0x63]⟩, ⟨9, [0x61, 0x62]⟩] :=
  .cons (by decide) (by decide) ⟨by decide, by decide, by decide⟩ <|
  .cons (by decide) (by decide) ⟨by decide, by decide, by decide⟩ <|
  .cons (by decide) (by decide) ⟨by decide, by decide, by decide⟩ <| .nil (by decide)

/-- The name of the first object is found, that of the second one is not. -/
theorem flukeUserShareName_three :
    (∃ fuel, flukeUserShareName threeObjects 0x2000 0x1000 fuel = some 7) ∧
      ¬ ∃ fuel, flukeUserShareName threeObjects 0x2003 0x1000 fuel = some 8 := by
  have hfirst : IsString threeObjects 0x2000 [0x61, 0x62] := ⟨by decide, by decide, by decide⟩
  have hsecond : IsString threeObjects 0x2003 [0x63] := ⟨by decide, by decide, by decide⟩
  have hfound := flukeUserShareName_iff threeObjects 0x2000 0x1000 _ _ hfirst threeObjects_table
  have hmissed := flukeUserShareName_iff threeObjects 0x2003 0x1000 _ _ hsecond threeObjects_table
  exact ⟨hfound.mpr (by simp), fun h => absurd (hmissed.mp h) (by simp)⟩

/-- A table at `0x1000` with one object, named "a", and the name "b" at `0x2000` -/
def oneObject : ByteMemory := fun x =>
  if x = 0x1000 then 1 else if x = 0x1008 then 0x61 else if x = 0x2000 then 0x62 else 0

lemma oneObject_table : ShareTable oneObject 0x1000 [⟨1, [0x61]⟩] :=
  .cons (by decide) (by decide) ⟨by decide, by decide, by decide⟩ (.nil (by decide))

/-- The search for a name that is not in the table does not end. -/
theorem flukeUserShareName_counterexample :
    ShareTable oneObject 0x1000 [⟨1, [0x61]⟩] ∧ IsString oneObject 0x2000 [0x62] ∧
      ∀ fuel, flukeUserShareName oneObject 0x2000 0x1000 fuel = none := by
  have hname : IsString oneObject 0x2000 [0x62] := ⟨by decide, by decide, by decide⟩
  have hentry : IsString oneObject (0x1000 + 8) [0x61] := ⟨by decide, by decide, by decide⟩
  exact ⟨oneObject_table, hname, fun fuel =>
    flukeUserShareName_running hname (by decide) hentry (by decide) fuel⟩

end Fluke.Libc
