import Fluke.Library.Outcome

/-!
# Console

Characters of eight by eight pixels are drawn into a frame buffer. The cursor is clamped, wrapped
and advanced by the calls. Its row is clamped with the number of columns, so that it can be below
the last row; the character that is written there is drawn outside of the frame buffer.
-/

namespace Fluke

open Outcome

/-- What the compiler may take to be impossible, and the assertion of `console_write` -/
inductive ConsoleFault where
  | overflow
  | fontIndex
  | assertion
  deriving DecidableEq

/-- The result of an `int` operation -/
def checkedInt (v : ℤ) : Except ConsoleFault ℤ :=
  if -2 ^ 31 ≤ v ∧ v < 2 ^ 31 then .ok v else .error .overflow

/-- `Color` -/
abbrev Color := BitVec 32

/-- `struct Framebuffer`; pixels are addressed from its start on. -/
structure Framebuffer where
  width : ℤ
  height : ℤ
  pitch : ℤ

/-- A pixel that is written, by its offset in the frame buffer -/
structure PixelWrite where
  offset : ℤ
  color : Color
  deriving DecidableEq

/-- `struct Console` -/
structure Console where
  x : ℤ
  y : ℤ
  maxx : ℤ
  maxy : ℤ
  fg : Color
  bg : Color
  deriving DecidableEq

/-- `font_8x8` -/
abbrev Font := Fin 96 → Fin 8 → BitVec 8

/-- `COLOR_BLACK` -/
abbrev colorBlack : Color := 0x000000

/-- `COLOR_WHITE` -/
abbrev colorWhite : Color := 0xe5e5e5

namespace Console

/-- `console_init` -/
def init (fb : Framebuffer) : Console :=
  { x := 0, y := 0, maxx := fb.width.tdiv 8, maxy := fb.height.tdiv 8
    fg := colorWhite, bg := colorBlack }

/-- `font_8x8[ch - ' '][j]` -/
def fontLine (font : Font) (ch : BitVec 8) (j : Fin 8) : Except ConsoleFault (BitVec 8) :=
  if h : 0 ≤ ch.toInt - 32 ∧ ch.toInt - 32 < 96 then
    .ok (font ⟨(ch.toInt - 32).toNat, by omega⟩ j)
  else .error .fontIndex

/-- `putcharat_unchecked` -/
def putcharatUnchecked (font : Font) (fb : Framebuffer) (ch : BitVec 8) (x y : ℤ) (fg bg : Color) :
    Except ConsoleFault (List PixelWrite) := do
  let top ← checkedInt ((← checkedInt (8 * y)) * fb.pitch)
  let left ← checkedInt (32 * x)
  let rows ← collect (fun j : Fin 8 => do
    let line ← fontLine font ch j
    collect (fun i : Fin 8 => do
      let down ← checkedInt (j.val * fb.pitch)
      .ok (⟨top + left + down + 4 * i.val, if line.getLsbD i.val then fg else bg⟩ : PixelWrite))
      (List.finRange 8)) (List.finRange 8)
  .ok rows.flatten

/-- `printable`; `char` is signed. -/
def printable (ch : BitVec 8) : Bool := ch.toInt ≥ 32 && ch.toInt < 127

/-- `if (!printable(ch)) ch = ' '` -/
def shown (ch : BitVec 8) : BitVec 8 := if printable ch then ch else 32

/-- `console_putcharat` -/
def putcharat (font : Font) (fb : Framebuffer) (ch : BitVec 8) (x y : ℤ) (fg bg : Color)
    (c : Console) : Except ConsoleFault (List PixelWrite) :=
  if 0 ≤ x ∧ x < c.maxx ∧ 0 ≤ y ∧ y < c.maxy then
    putcharatUnchecked font fb (shown ch) x y fg bg
  else .ok []

/-- `CLAMP` -/
def clamp (v min max : ℤ) : ℤ := if v < min then min else if v > max then max else v

/-- `console_move`; both bounds are the one of `x`. -/
def move (x y : ℤ) (c : Console) : Console :=
  { c with x := clamp x 0 c.maxx, y := clamp y 0 c.maxx }

/-- `console_setcolor` -/
def setcolor (fg bg : Color) (c : Console) : Console := { c with fg := fg, bg := bg }

/-- A row of the frame buffer in one colour -/
def clearRow (fb : Framebuffer) (row : ℤ) (bg : Color) :
    Except ConsoleFault (List PixelWrite) :=
  collect (fun x : ℕ => do
    let down ← checkedInt (row * fb.pitch)
    let right ← checkedInt (4 * x)
    .ok (⟨down + right, bg⟩ : PixelWrite)) (List.range fb.width.toNat)

/-- `console_clear` -/
def clear (fb : Framebuffer) (c : Console) : Except ConsoleFault (List PixelWrite) := do
  let rows ← collect (fun y : ℕ => clearRow fb y c.bg) (List.range fb.height.toNat)
  .ok rows.flatten

/-- `clear_line` -/
def clearLine (fb : Framebuffer) (y : ℤ) (c : Console) :
    Except ConsoleFault (List PixelWrite) := do
  let rows ← collect (fun j : ℕ => do
    let row ← checkedInt ((← checkedInt (8 * y)) + j)
    clearRow fb row c.bg) (List.range 8)
  .ok rows.flatten

/-- `'\n'` -/
abbrev newline : BitVec 8 := 10

/-- `console_write`. It calls itself for a newline only. -/
def write (font : Font) (fb : Framebuffer) (ch : BitVec 8) (c : Console) :
    Except ConsoleFault (Console × List PixelWrite) :=
  if ¬ (c.maxx ≠ 0 ∧ c.maxy ≠ 0) then .error .assertion
  else if h : ch = newline then do
    let c := { c with x := 0, y := c.y + 1 }
    let c := if c.y ≥ c.maxy then { c with y := 0 } else c
    let cleared ← clearLine fb c.y c
    .ok (c, cleared)
  else do
    let (c, cleared) ← if c.x ≥ c.maxx then write font fb newline c else .ok (c, [])
    let drawn ← putcharatUnchecked font fb (shown ch) c.x c.y c.fg c.bg
    .ok ({ c with x := c.x + 1 }, cleared ++ drawn)
termination_by if ch = newline then 0 else 1
decreasing_by
  rw [if_pos trivial, if_neg h]
  exact Nat.one_pos

/-- The calls of the console -/
inductive Call where
  | write (ch : BitVec 8)
  | move (x y : ℤ)
  | putcharat (ch : BitVec 8) (x y : ℤ) (fg bg : Color)
  | setcolor (fg bg : Color)
  | clear

/-- A call, with the pixels that it writes -/
def step (font : Font) (fb : Framebuffer) (call : Call) (c : Console) :
    Except ConsoleFault (Console × List PixelWrite) :=
  match call with
  | .write ch => c.write font fb ch
  | .move x y => .ok (c.move x y, [])
  | .putcharat ch x y fg bg => do
    let drawn ← putcharat font fb ch x y fg bg c
    .ok (c, drawn)
  | .setcolor fg bg => .ok (c.setcolor fg bg, [])
  | .clear => do
    let cleared ← c.clear fb
    .ok (c, cleared)

/-- Calls in a row -/
def run (font : Font) (fb : Framebuffer) : List Call → Console →
    Except ConsoleFault (Console × List PixelWrite)
  | [], c => .ok (c, [])
  | call :: calls, c => do
    let (c, drawn) ← c.step font fb call
    let (c, drawn') ← run font fb calls c
    .ok (c, drawn ++ drawn')

end Console

/-! ### The screen -/

/-- A pixel of the screen stands at the offset. -/
def Framebuffer.OnScreen (fb : Framebuffer) (offset : ℤ) : Prop :=
  ∃ x y, 0 ≤ x ∧ x < fb.width ∧ 0 ≤ y ∧ y < fb.height ∧ offset = y * fb.pitch + 4 * x

/-- The frame buffer has room for a character, its rows do not overlap and it has less than
2 GiB. -/
structure Framebuffer.Fits (fb : Framebuffer) : Prop where
  width : 8 ≤ fb.width
  height : 8 ≤ fb.height
  pitch : 4 * fb.width ≤ fb.pitch
  size : (fb.height - 1) * fb.pitch < 2 ^ 31

namespace Console

/-- The cursor is in a column of the screen, or behind the last one. -/
structure CursorOk (fb : Framebuffer) (c : Console) : Prop where
  maxx_eq : c.maxx = fb.width.tdiv 8
  maxy_eq : c.maxy = fb.height.tdiv 8
  maxx_pos : 1 ≤ c.maxx
  maxx_le : 8 * c.maxx ≤ fb.width
  maxy_pos : 1 ≤ c.maxy
  maxy_le : 8 * c.maxy ≤ fb.height
  height_lt : fb.height < 8 * c.maxy + 8
  x_nonneg : 0 ≤ c.x
  x_le : c.x ≤ c.maxx
  y_nonneg : 0 ≤ c.y

/-- Only pixels of the screen are written. -/
def Inside (fb : Framebuffer) (drawn : List PixelWrite) : Prop :=
  ∀ w ∈ drawn, fb.OnScreen w.offset

/-- No character is drawn at a cursor below the last row. -/
def Drawable (call : Call) (c : Console) : Prop :=
  ∀ ch, call = .write ch → ch = newline ∨ c.maxx ≤ c.x ∨ c.y < c.maxy

section

variable {font : Font} {fb : Framebuffer} {c : Console} {x y : ℤ} {ch : BitVec 8} {fg bg : Color}

/-! ### Arithmetic -/

lemma checkedInt_eq {v : ℤ} (h0 : 0 ≤ v) (h : v < 2 ^ 31) : checkedInt v = .ok v :=
  if_pos ⟨by omega, h⟩

lemma eq_of_checkedInt {v v' : ℤ} (h : checkedInt v = .ok v') : v' = v := by
  unfold checkedInt at h
  split_ifs at h
  exact (Except.ok.inj h).symm

lemma row_bounds (hfb : fb.Fits) (h0 : 0 ≤ y) (h : y < fb.height) :
    0 ≤ y * fb.pitch ∧ y * fb.pitch < 2 ^ 31 := by
  have hwidth := hfb.width
  have hpitch := hfb.pitch
  have hpos : 0 ≤ fb.pitch := by omega
  have hle : y * fb.pitch ≤ (fb.height - 1) * fb.pitch :=
    mul_le_mul_of_nonneg_right (by omega) hpos
  exact ⟨mul_nonneg h0 hpos, lt_of_le_of_lt hle hfb.size⟩

lemma pitch_lt (hfb : fb.Fits) : fb.pitch < 2 ^ 31 := by
  have hheight := hfb.height
  have hrow := row_bounds hfb (by decide : (0 : ℤ) ≤ 1) (by omega)
  rw [one_mul] at hrow
  exact hrow.2

lemma height_lt (hfb : fb.Fits) : fb.height < 2 ^ 31 := by
  have hwidth := hfb.width
  have hpitch := hfb.pitch
  have hheight := hfb.height
  have hsize := hfb.size
  have hle : (fb.height - 1) * 32 ≤ (fb.height - 1) * fb.pitch :=
    mul_le_mul_of_nonneg_left (by omega) (by omega)
  omega

lemma init_cursorOk (hfb : fb.Fits) : (init fb).CursorOk fb := by
  have hwidth := hfb.width
  have hheight := hfb.height
  have hx : (init fb).maxx = fb.width / 8 := Int.tdiv_eq_ediv_of_nonneg (by omega)
  have hy : (init fb).maxy = fb.height / 8 := Int.tdiv_eq_ediv_of_nonneg (by omega)
  have hx0 : (init fb).x = 0 := rfl
  have hy0 : (init fb).y = 0 := rfl
  refine ⟨rfl, rfl, ?_, ?_, ?_, ?_, ?_, ?_, ?_, ?_⟩ <;> omega

/-! ### Rows and characters -/

lemma clearRow_spec (hfb : fb.Fits) (h0 : 0 ≤ y) (h : y < fb.height) (bg : Color) :
    Ensures (fun _ => False) (Inside fb) (clearRow fb y bg) := by
  have hwidth := hfb.width
  have hpitch := hfb.pitch
  have hlt := pitch_lt hfb
  obtain ⟨hrow0, hrow⟩ := row_bounds hfb h0 h
  refine ensures_collect fun x hx => ?_
  rw [List.mem_range] at hx
  rw [checkedInt_eq hrow0 hrow, ok_bind, checkedInt_eq (by omega) (by omega), ok_bind]
  exact ⟨x, y, by omega, by omega, h0, h, rfl⟩

lemma Inside.nil (fb : Framebuffer) : Inside fb [] := fun _ hw => absurd hw List.not_mem_nil

lemma Inside.append {drawn drawn' : List PixelWrite} (h : Inside fb drawn)
    (h' : Inside fb drawn') : Inside fb (drawn ++ drawn') := fun w hw =>
  (List.mem_append.mp hw).elim (h w) (h' w)

lemma Inside.flatten {rows : List (List PixelWrite)} (h : ∀ row ∈ rows, Inside fb row) :
    Inside fb rows.flatten := by
  intro w hw
  obtain ⟨row, hrow, hw⟩ := List.mem_flatten.mp hw
  exact h row hrow w hw

lemma clear_spec (hfb : fb.Fits) (c : Console) :
    Ensures (fun _ => False) (Inside fb) (c.clear fb) := by
  have hheight := hfb.height
  have hrows : Ensures (fun _ => False) (fun rows => ∀ row ∈ rows, Inside fb row)
      (collect (fun y : ℕ => clearRow fb y c.bg) (List.range fb.height.toNat)) := by
    refine ensures_collect fun y hy => ?_
    rw [List.mem_range] at hy
    exact clearRow_spec hfb (Int.natCast_nonneg y) (by omega) c.bg
  exact hrows.bind fun rows h => Inside.flatten h

lemma clearLine_spec (hfb : fb.Fits) (h0 : 0 ≤ y) (h : 8 * y + 8 ≤ fb.height) (c : Console) :
    Ensures (fun _ => False) (Inside fb) (clearLine fb y c) := by
  have hheight := height_lt hfb
  have hrows : Ensures (fun _ => False) (fun rows => ∀ row ∈ rows, Inside fb row)
      (collect (fun j : ℕ => do
        let row ← checkedInt ((← checkedInt (8 * y)) + j)
        clearRow fb row c.bg) (List.range 8)) := by
    refine ensures_collect fun j hj => ?_
    rw [List.mem_range] at hj
    rw [checkedInt_eq (by omega) (by omega), ok_bind, checkedInt_eq (by omega) (by omega), ok_bind]
    exact clearRow_spec hfb (by omega) (by omega) c.bg
  exact hrows.bind fun rows h => Inside.flatten h

lemma fontLine_spec (hch : printable ch = true) (j : Fin 8) :
    Ensures (fun _ => False) (fun _ => True) (fontLine font ch j) := by
  rw [printable, Bool.and_eq_true, decide_eq_true_eq, decide_eq_true_eq] at hch
  rw [fontLine, dif_pos ⟨by omega, by omega⟩]
  trivial

lemma printable_shown (ch : BitVec 8) : printable (shown ch) = true := by
  unfold shown
  split_ifs with h
  · exact h
  · decide

/-- A character inside of the last row and column is drawn on the screen. -/
lemma putcharatUnchecked_spec (hfb : fb.Fits) (hc : c.CursorOk fb) (hx0 : 0 ≤ x) (hx : x < c.maxx)
    (hy0 : 0 ≤ y) (hy : y < c.maxy) (hch : printable ch = true) (fg bg : Color) :
    Ensures (fun _ => False) (Inside fb) (putcharatUnchecked font fb ch x y fg bg) := by
  have hwidth := hc.maxx_le
  have hheight := hc.maxy_le
  have hpitch := hfb.pitch
  have hlt := pitch_lt hfb
  have hrow := row_bounds hfb (y := 8 * y) (by omega) (by omega)
  have hmax := height_lt hfb
  rw [putcharatUnchecked, checkedInt_eq (by omega) (by omega), ok_bind,
    checkedInt_eq hrow.1 hrow.2, ok_bind, checkedInt_eq (by omega) (by omega), ok_bind]
  have hrows : Ensures (fun _ => False) (fun rows => ∀ row ∈ rows, Inside fb row)
      (collect (fun j : Fin 8 => do
        let line ← fontLine font ch j
        collect (fun i : Fin 8 => do
          let down ← checkedInt (j.val * fb.pitch)
          .ok (⟨8 * y * fb.pitch + 32 * x + down + 4 * i.val,
            if line.getLsbD i.val then fg else bg⟩ : PixelWrite))
          (List.finRange 8)) (List.finRange 8)) := by
    refine ensures_collect fun j _ => (fontLine_spec hch j).bind fun line _ => ?_
    refine ensures_collect fun i _ => ?_
    have hdown := row_bounds hfb (y := (j.val : ℤ)) (by omega) (by omega)
    rw [checkedInt_eq hdown.1 hdown.2, ok_bind]
    refine ⟨8 * x + i.val, 8 * y + j.val, by omega, by omega, by omega, by omega, ?_⟩
    dsimp only
    ring
  exact hrows.bind fun rows h => Inside.flatten h

/-- Below the last row, a character is drawn outside of the screen. -/
lemma putcharatUnchecked_outside (hfb : fb.Fits) (hc : c.CursorOk fb) (hx0 : 0 ≤ x)
    (hy : c.maxy ≤ y) {drawn : List PixelWrite}
    (h : putcharatUnchecked font fb ch x y fg bg = .ok drawn) : ¬ Inside fb drawn := by
  obtain ⟨top', htop', hrest⟩ := bind_eq_ok.mp h
  obtain ⟨top, htop, hrest'⟩ := bind_eq_ok.mp hrest
  obtain ⟨left, hleft, hdrawn⟩ := bind_eq_ok.mp hrest'
  obtain ⟨rows, hrows, hflatten⟩ := bind_eq_ok.mp hdrawn
  obtain ⟨row, hrow, hbody⟩ := mem_collect hrows (List.mem_finRange ⟨7, by omega⟩)
  obtain ⟨line, -, hbody⟩ := bind_eq_ok.mp hbody
  obtain ⟨w, hw, hpixel⟩ := mem_collect hbody (List.mem_finRange ⟨0, by omega⟩)
  obtain ⟨down, hdown, hpixel⟩ := bind_eq_ok.mp hpixel
  obtain rfl := eq_of_checkedInt htop'
  obtain rfl := eq_of_checkedInt htop
  obtain rfl := eq_of_checkedInt hleft
  obtain rfl := eq_of_checkedInt hdown
  obtain rfl := Except.ok.inj hflatten
  obtain rfl := Except.ok.inj hpixel
  intro hinside
  obtain ⟨px, py, hpx0, hpx, hpy0, hpy, hoffset⟩ := hinside _ (List.mem_flatten_of_mem hrow hw)
  dsimp only at hoffset
  -- the lowest row of the character is not one of the screen
  have hheight := hc.height_lt
  have hpitch := hfb.pitch
  have hbelow : 1 ≤ 8 * y + 7 - py := by omega
  have hpos : 0 ≤ fb.pitch := by omega
  have hfar : 1 * fb.pitch ≤ (8 * y + 7 - py) * fb.pitch := mul_le_mul_of_nonneg_right hbelow hpos
  have hsame : (8 * y + 7 - py) * fb.pitch = 4 * px - 32 * x := by
    push_cast at hoffset
    linear_combination hoffset
  omega

/-! ### Calls -/

lemma move_cursorOk (hc : c.CursorOk fb) (x y : ℤ) : (c.move x y).CursorOk fb := by
  have hmaxx := hc.maxx_pos
  have hbounds : ∀ v, 0 ≤ clamp v 0 c.maxx ∧ clamp v 0 c.maxx ≤ c.maxx := by
    intro v
    unfold clamp
    split_ifs <;> omega
  exact { hc with
    x_nonneg := (hbounds x).1
    x_le := (hbounds x).2
    y_nonneg := (hbounds y).1 }

/-- What a newline leaves -/
def AtRowStart (fb : Framebuffer) (r : Console × List PixelWrite) : Prop :=
  r.1.CursorOk fb ∧ r.1.x < r.1.maxx ∧ r.1.y < r.1.maxy ∧ Inside fb r.2

lemma clearLine_row (hfb : fb.Fits) (hc : c.CursorOk fb) (h0 : 0 ≤ y) (h : y < c.maxy) :
    Ensures (fun _ => False) (AtRowStart fb)
      (clearLine fb y { c with x := 0, y := y } >>= fun cleared =>
        .ok ({ c with x := 0, y := y }, cleared)) := by
  have hheight := hc.maxy_le
  have hmaxx : 0 < c.maxx := lt_of_lt_of_le Int.one_pos hc.maxx_pos
  refine (clearLine_spec hfb h0 (by omega) _).bind fun cleared hinside => ?_
  exact ⟨{ hc with x_nonneg := le_rfl, x_le := hmaxx.le, y_nonneg := h0 }, hmaxx, h, hinside⟩

/-- A newline goes to the next row, or from the last one to the first. -/
lemma write_newline (hfb : fb.Fits) (hc : c.CursorOk fb) :
    Ensures (fun _ => False) (AtRowStart fb) (write font fb newline c) := by
  have hmaxx := hc.maxx_pos
  have hmaxy := hc.maxy_pos
  have hy := hc.y_nonneg
  have hassert : ¬ ¬ (c.maxx ≠ 0 ∧ c.maxy ≠ 0) := not_not.mpr ⟨by omega, by omega⟩
  rw [write, if_neg hassert, dif_pos rfl]
  dsimp only
  split_ifs with hlast
  · exact @clearLine_row fb c 0 hfb hc le_rfl (by omega)
  · exact @clearLine_row fb c (c.y + 1) hfb hc (by omega) (by omega)

/-- A character other than a newline -/
lemma write_char (hc : c.CursorOk fb) (hch : ch ≠ newline) :
    write font fb ch c =
      (if c.x ≥ c.maxx then write font fb newline c else .ok (c, [])) >>= fun r =>
      putcharatUnchecked font fb (shown ch) r.1.x r.1.y r.1.fg r.1.bg >>= fun drawn =>
        .ok ({ r.1 with x := r.1.x + 1 }, r.2 ++ drawn) := by
  have hmaxx := hc.maxx_pos
  have hmaxy := hc.maxy_pos
  have hassert : ¬ ¬ (c.maxx ≠ 0 ∧ c.maxy ≠ 0) := not_not.mpr ⟨by omega, by omega⟩
  rw [write, if_neg hassert, dif_neg hch]
  dsimp only
  split_ifs <;> rfl

lemma write_spec (hfb : fb.Fits) (hc : c.CursorOk fb) (ch : BitVec 8)
    (hdraw : Drawable (.write ch) c) :
    Ensures (fun _ => False) (fun r => r.1.CursorOk fb ∧ r.1.y < r.1.maxy ∧ Inside fb r.2)
      (write font fb ch c) := by
  by_cases hch : ch = newline
  · rw [hch]
    exact (write_newline hfb hc).imp fun r h => ⟨h.1, h.2.2⟩
  rw [write_char hc hch]
  -- the cursor at which the character is drawn
  have hcursor : Ensures (fun _ => False) (AtRowStart fb)
      (if c.x ≥ c.maxx then write font fb newline c else .ok (c, [])) := by
    split_ifs with hx
    · exact write_newline hfb hc
    · refine ⟨hc, lt_of_not_ge hx, ?_, Inside.nil fb⟩
      rcases hdraw ch rfl with h | h | h
      · exact absurd h hch
      · exact absurd h hx
      · exact h
  refine hcursor.bind fun r ⟨hok, hx, hy, hinside⟩ => ?_
  refine (putcharatUnchecked_spec hfb hok hok.x_nonneg hx hok.y_nonneg hy (printable_shown ch)
    _ _).bind fun drawn hdrawn => ?_
  have hx0 : 0 ≤ r.1.x + 1 := by
    have hnonneg := hok.x_nonneg
    omega
  exact ⟨{ hok with x_nonneg := hx0, x_le := hx }, hy, hinside.append hdrawn⟩

lemma write_outside (hfb : fb.Fits) (hc : c.CursorOk fb) (ch : BitVec 8)
    (hdraw : ¬ Drawable (.write ch) c) {r : Console × List PixelWrite}
    (h : write font fb ch c = .ok r) : ¬ Inside fb r.2 := by
  have hbad : ch ≠ newline ∧ c.x < c.maxx ∧ c.maxy ≤ c.y := by
    by_contra hgood
    refine hdraw fun ch' hch' => ?_
    cases hch'
    rw [not_and_or, not_and_or, not_not, not_lt, not_le] at hgood
    exact hgood
  rw [write_char hc hbad.1, if_neg (not_le.mpr hbad.2.1), ok_bind] at h
  obtain ⟨drawn, hdrawn, hr⟩ := bind_eq_ok.mp h
  obtain rfl := Except.ok.inj hr
  exact putcharatUnchecked_outside hfb hc hc.x_nonneg hbad.2.2 hdrawn

/-- `console_putcharat` looks at the bounds itself. -/
lemma putcharat_spec (hfb : fb.Fits) (hc : c.CursorOk fb) (ch : BitVec 8) (x y : ℤ)
    (fg bg : Color) :
    Ensures (fun _ => False) (Inside fb) (putcharat font fb ch x y fg bg c) := by
  unfold putcharat
  split_ifs with h
  · exact putcharatUnchecked_spec hfb hc h.1 h.2.1 h.2.2.1 h.2.2.2 (printable_shown ch) fg bg
  · exact Inside.nil fb

/-- `console_move` leaves the cursor above the end of the screen. -/
def MovesInside (fb : Framebuffer) (call : Call) : Prop :=
  ∀ x y, call = .move x y → clamp y 0 (fb.width.tdiv 8) < fb.height.tdiv 8

/-- A call keeps the cursor, and writes to the screen. Only a move can take the cursor below the
last row. -/
structure Stepped (fb : Framebuffer) (call : Call) (c : Console)
    (r : Console × List PixelWrite) : Prop where
  cursor : r.1.CursorOk fb
  inside : Inside fb r.2
  row : c.y < c.maxy → MovesInside fb call → r.1.y < r.1.maxy

lemma step_spec (hfb : fb.Fits) (hc : c.CursorOk fb) (call : Call) (hdraw : Drawable call c) :
    Ensures (fun _ => False) (Stepped fb call c) (c.step font fb call) := by
  cases call with
  | write ch =>
    exact (write_spec hfb hc ch hdraw).imp fun r h => ⟨h.1, h.2.2, fun _ _ => h.2.1⟩
  | move x y =>
    refine ⟨move_cursorOk hc x y, Inside.nil fb, fun _ hmove => ?_⟩
    have hrow := hmove x y rfl
    rw [← hc.maxx_eq, ← hc.maxy_eq] at hrow
    exact hrow
  | putcharat ch x y fg bg =>
    exact (putcharat_spec hfb hc ch x y fg bg).bind fun drawn hdrawn =>
      ⟨hc, hdrawn, fun hrow _ => hrow⟩
  | setcolor fg bg => exact ⟨{ hc with }, Inside.nil fb, fun hrow _ => hrow⟩
  | clear => exact (clear_spec hfb c).bind fun drawn hdrawn => ⟨hc, hdrawn, fun hrow _ => hrow⟩

lemma step_outside (hfb : fb.Fits) (hc : c.CursorOk fb) (call : Call) (hdraw : ¬ Drawable call c)
    {r : Console × List PixelWrite} (h : c.step font fb call = .ok r) : ¬ Inside fb r.2 := by
  cases call with
  | write ch => exact write_outside hfb hc ch hdraw h
  | move | putcharat | setcolor | clear => exact absurd (fun _ h => by cases h) hdraw

/-- Before every call of a run, no character is drawn at a cursor below the last row. -/
def AllDrawable (font : Font) (fb : Framebuffer) : List Call → Console → Prop
  | [], _ => True
  | call :: calls, c => Drawable call c ∧
      ∀ r, c.step font fb call = .ok r → AllDrawable font fb calls r.1

/-- The run comes to its end and writes to the screen only. -/
def StaysInside (font : Font) (fb : Framebuffer) (calls : List Call) (c : Console) : Prop :=
  ∃ r, run font fb calls c = .ok r ∧ Inside fb r.2

lemma staysInside_iff (hfb : fb.Fits) (calls : List Call) (hc : c.CursorOk fb) :
    StaysInside font fb calls c ↔ AllDrawable font fb calls c := by
  induction calls generalizing c with
  | nil => exact iff_of_true ⟨(c, []), rfl, Inside.nil fb⟩ trivial
  | cons call calls ih =>
    constructor
    · rintro ⟨r, hrun, hinside⟩
      obtain ⟨r₁, hstep, hrest⟩ := bind_eq_ok.mp hrun
      obtain ⟨r₂, hrun', hr⟩ := bind_eq_ok.mp hrest
      obtain rfl := Except.ok.inj hr
      have hfirst : Inside fb r₁.2 := fun w hw => hinside w (List.mem_append_left _ hw)
      have hsecond : Inside fb r₂.2 := fun w hw => hinside w (List.mem_append_right _ hw)
      have hdraw : Drawable call c := by
        by_contra hnot
        exact step_outside hfb hc call hnot hstep hfirst
      have hok := ((step_spec hfb hc call hdraw).of_eq_ok hstep).cursor
      refine ⟨hdraw, fun r hr => ?_⟩
      obtain rfl := Except.ok.inj (hstep.symm.trans hr)
      exact (ih hok).mp ⟨r₂, hrun', hsecond⟩
    · rintro ⟨hdraw, hall⟩
      obtain ⟨r₁, hstep, hok, hfirst, -⟩ := (@step_spec font fb c hfb hc call hdraw).exists_ok
      obtain ⟨r₂, hrun, hsecond⟩ := (ih hok).mpr (hall r₁ hstep)
      refine ⟨(r₂.1, r₁.2 ++ r₂.2), ?_, hfirst.append hsecond⟩
      rw [run, hstep, ok_bind]
      dsimp only
      rw [hrun]
      rfl

/-- A frame buffer of 2 GiB or more cannot be cleared: the offset of its last row is no `int`. -/
lemma clear_overflows (hwidth : 8 ≤ fb.width) (hheight : 8 ≤ fb.height)
    (hsize : 2 ^ 31 ≤ (fb.height - 1) * fb.pitch) (drawn : List PixelWrite) :
    c.clear fb ≠ .ok drawn := by
  intro h
  obtain ⟨rows, hrows, -⟩ := bind_eq_ok.mp h
  have hlast : (fb.height - 1).toNat ∈ List.range fb.height.toNat := by
    rw [List.mem_range]
    omega
  obtain ⟨row, -, hrow⟩ := mem_collect hrows hlast
  have hfirst : 0 ∈ List.range fb.width.toNat := by
    rw [List.mem_range]
    omega
  obtain ⟨w, -, hw⟩ := mem_collect hrow hfirst
  obtain ⟨down, hdown, -⟩ := bind_eq_ok.mp hw
  have hy : ((fb.height - 1).toNat : ℤ) = fb.height - 1 := Int.toNat_of_nonneg (by omega)
  rw [hy] at hdown
  unfold checkedInt at hdown
  rw [if_neg (fun hrange => absurd hrange.2 (not_lt.mpr hsize))] at hdown
  cases hdown

/-- Where every move leaves the cursor above the end of the screen, every run stays inside. -/
lemma allDrawable_of_moves (hfb : fb.Fits) (calls : List Call)
    (hmoves : ∀ call ∈ calls, MovesInside fb call) (hc : c.CursorOk fb) (hrow : c.y < c.maxy) :
    AllDrawable font fb calls c := by
  induction calls generalizing c with
  | nil => trivial
  | cons call calls ih =>
    have hdraw : Drawable call c := fun _ _ => Or.inr (Or.inr hrow)
    refine ⟨hdraw, fun r hr => ?_⟩
    have hstep := (step_spec hfb hc call hdraw).of_eq_ok hr
    exact ih (fun call' h => hmoves call' (List.mem_cons_of_mem call h)) hstep.cursor
      (hstep.row hrow (hmoves call List.mem_cons_self))

end

/-- A run of calls after `console_init` ends and writes pixels of the screen only, if and only if
no character is written at a cursor that `console_move` has put below the last row. -/
theorem stays_inside_iff (font : Font) (fb : Framebuffer) (hfb : fb.Fits) (calls : List Call) :
    StaysInside font fb calls (init fb) ↔ AllDrawable font fb calls (init fb) :=
  staysInside_iff hfb calls (init_cursorOk hfb)

/-- Three characters side by side in one row -/
def wideScreen : Framebuffer := ⟨24, 8, 96⟩

lemma wideScreen_fits : wideScreen.Fits := by
  constructor <;> decide

theorem stays_inside_iff_wide :
    StaysInside (fun _ _ => 0) wideScreen [.move 1 0, .write 0x41] (init wideScreen) := by
  have hmoves : ∀ call ∈ [Call.move 1 0, .write 0x41], MovesInside wideScreen call := by
    refine List.forall_mem_cons.mpr ⟨fun x y h => ?_, List.forall_mem_singleton.mpr fun x y h => ?_⟩
    · cases h
      decide
    · cases h
  exact (stays_inside_iff _ wideScreen wideScreen_fits _).mpr
    (allDrawable_of_moves wideScreen_fits _ hmoves (init_cursorOk wideScreen_fits) (by decide))

/-- A move to the row behind the last one is not clamped, and the next character is written outside
of the frame buffer. -/
theorem stays_inside_counterexample :
    ¬ StaysInside (fun _ _ => 0) wideScreen [.move 0 1, .write 0x41] (init wideScreen) := by
  rw [staysInside_iff wideScreen_fits _ (init_cursorOk wideScreen_fits)]
  intro h
  have hwrite : AllDrawable (fun _ _ => 0) wideScreen [.write 0x41]
      ((init wideScreen).move 0 1) := h.2 _ rfl
  exact absurd (hwrite.1 0x41 rfl) (by decide)

end Console

end Fluke
