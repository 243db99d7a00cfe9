import MiniKernel.Bitmap

/-! The VGA text console. `kernel.c` writes the text buffer at `0xB8000` through
`vga_putchar`, with the cursor `vga_row`, `vga_col`; `io.c` writes the same buffer through
`print_char`, with a cursor of its own, and `clear_screen` blanks it. Both scroll by
copying each row onto the one above (`vga_scroll` in `kernel.c`, the same loops inline in
`io.c`). The C indices are `size_t`; every cursor stays below 80 and 25 (the results
below), where `size_t` arithmetic and `Nat` agree.

* `vgaScroll_cell`: the copy loops move every row up by one and blank the bottom row;
* `printChar_eq_vgaPutchar`: the two writers differ only on the backspace `'\b'`;
* `foldl_vgaPutchar_plain`: bytes other than `'\n'`, `'\r'`, `'\t'` that fit in the
  cursor's row appear one per cell from the cursor on;
* `console_stays_on_screen`: over any sequence of `print`, `print_char` and
  `clear_screen` from boot, both cursors stay on the 80 by 25 screen and no call writes
  outside the 2000 cells of the buffer. -/

namespace MiniKernel.Console

def vgaWidth : Nat := 80
def vgaHeight : Nat := 25
def vgaColorWhiteOnBlack : BitVec 16 := 0x0F

/-- `(VGA_COLOR_WHITE_ON_BLACK << 8) | (uint8_t)c`, the cell that shows `c`. -/
def vgaCell (c : BitVec 8) : BitVec 16 := vgaColorWhiteOnBlack <<< 8 ||| c.setWidth 16

/-- The cell of `' '`. -/
def blank : BitVec 16 := vgaCell 0x20

/-- The text buffer, cell `i` at `vga_buffer [i]`, seen with one cursor. -/
structure Vga where
  buffer : Nat → BitVec 16
  row : Nat
  col : Nat

/-- `vga_scroll ()`: each row onto the one above, then the bottom row blank. -/
def vgaScroll (buffer : Nat → BitVec 16) : Nat → BitVec 16 :=
  let moved := (List.range (vgaHeight - 1)).foldl (fun b y =>
    (List.range vgaWidth).foldl
      (fun b x => setAt b (y * vgaWidth + x) (b ((y + 1) * vgaWidth + x))) b) buffer
  (List.range vgaWidth).foldl (fun b x => setAt b ((vgaHeight - 1) * vgaWidth + x) blank) moved

/-- `if (vga_col >= VGA_WIDTH) { vga_col = 0; vga_row++; }` -/
def wrapLine (s : Vga) : Vga :=
  if s.col ≥ vgaWidth then { s with col := 0, row := s.row + 1 } else s

/-- `if (vga_row >= VGA_HEIGHT) { vga_scroll (); vga_row = VGA_HEIGHT - 1; }` -/
def scrollUp (s : Vga) : Vga :=
  if s.row ≥ vgaHeight then { s with buffer := vgaScroll s.buffer, row := vgaHeight - 1 }
  else s

/-- The common tail of `vga_putchar` and `print_char`: wrap at the right edge, scroll
below the bottom row. -/
def wrapScroll (s : Vga) : Vga := scrollUp (wrapLine s)

/-- `~7` as a `size_t` of the i386 target. -/
def tabMask : Nat := 0xFFFFFFF8

/-- `vga_putchar (c)` of `kernel.c`; `0x0A`, `0x0D` and `0x09` are `'\n'`, `'\r'` and
`'\t'`. -/
def vgaPutchar (s : Vga) (c : BitVec 8) : Vga :=
  wrapScroll <|
    if c = 0x0A then { s with col := 0, row := s.row + 1 }
    else if c = 0x0D then { s with col := 0 }
    else if c = 0x09 then { s with col := (s.col + 8) &&& tabMask }
    else { s with buffer := setAt s.buffer (s.row * vgaWidth + s.col) (vgaCell c),
                  col := s.col + 1 }

/-- `print_char (c)` of `io.c`: the branches of `vga_putchar`, and a backspace `0x08`
that blanks the cell before the cursor. -/
def printChar (s : Vga) (c : BitVec 8) : Vga :=
  wrapScroll <|
    if c = 0x0A then { s with col := 0, row := s.row + 1 }
    else if c = 0x0D then { s with col := 0 }
    else if c = 0x09 then { s with col := (s.col + 8) &&& tabMask }
    else if c = 0x08 then
      if s.col > 0 then
        { s with col := s.col - 1, buffer := setAt s.buffer (s.row * vgaWidth + (s.col - 1)) blank }
      else s
    else { s with buffer := setAt s.buffer (s.row * vgaWidth + s.col) (vgaCell c),
                  col := s.col + 1 }

/-- `print (str)` of `kernel.c`: the bytes of `str` up to its terminator. -/
def print (s : Vga) (str : List (BitVec 8)) : Vga :=
  (str.takeWhile (· ≠ 0)).foldl vgaPutchar s

/-- `clear_screen ()` of `io.c`. -/
def clearScreen (buffer : Nat → BitVec 16) : Nat → BitVec 16 :=
  (List.range (vgaWidth * vgaHeight)).foldl (fun b i => setAt b i blank) buffer

/-! ## The loops of `vga_scroll` -/

/-- `for (x = 0; x < n; ++x) b[d + x] = b[s + x];` with `d ≤ s`: each cell is read before
the loop overwrites it. -/
theorem foldl_copy {α : Type} (b : Nat → α) {d s : Nat} (h : d ≤ s) (n j : Nat) :
    (List.range n).foldl (fun b x => setAt b (d + x) (b (s + x))) b j =
      if d ≤ j ∧ j < d + n then b (s + (j - d)) else b j := by
  induction n generalizing j with
  | zero => simp only [List.range_zero, List.foldl_nil]; split_ifs <;> first | rfl | omega
  | succ n ih =>
    rw [List.range_succ, List.foldl_append, List.foldl_cons, List.foldl_nil]
    simp only [setAt, ih]
    split_ifs <;> first | rfl | omega | (congr 1; omega)

/-- `for (x = 0; x < n; ++x) b[d + x] = v;`. -/
theorem foldl_fill {α : Type} (b : Nat → α) (d n : Nat) (v : α) (j : Nat) :
    (List.range n).foldl (fun b x => setAt b (d + x) v) b j =
      if d ≤ j ∧ j < d + n then v else b j := by
  induction n with
  | zero => simp only [List.range_zero, List.foldl_nil]; split_ifs <;> first | rfl | omega
  | succ n ih =>
    rw [List.range_succ, List.foldl_append, List.foldl_cons, List.foldl_nil]
    simp only [setAt, ih]
    split_ifs <;> first | rfl | omega

/-- After the first `k` rows of the outer loop, the cells of those rows hold the row
below. -/
theorem foldl_rows (b : Nat → BitVec 16) (k j : Nat) :
    (List.range k).foldl (fun b y => (List.range vgaWidth).foldl
      (fun b x => setAt b (y * vgaWidth + x) (b ((y + 1) * vgaWidth + x))) b) b j =
      if j < k * vgaWidth then b (j + vgaWidth) else b j := by
  induction k generalizing j with
  | zero => rfl
  | succ k ih =>
    rw [List.range_succ, List.foldl_append, List.foldl_cons, List.foldl_nil,
      foldl_copy _ (Nat.mul_le_mul_right _ (Nat.le_succ k)), ih, ih]
    simp only [vgaWidth]
    split_ifs <;> first | rfl | omega | (congr 1; omega)

theorem vgaScroll_cell (buffer : Nat → BitVec 16) (j : Nat) :
    vgaScroll buffer j =
      if j < 1920 then buffer (j + 80) else if j < 2000 then blank else buffer j := by
  simp only [vgaScroll, foldl_fill, foldl_rows]
  simp only [vgaHeight, vgaWidth]
  split_ifs <;> first | rfl | omega

/-! ## The two writers -/

/-- On every byte but the backspace, `print_char` does what `vga_putchar` does; on the
backspace, `vga_putchar` shows the byte as a glyph where `print_char` steps back. -/
theorem printChar_eq_vgaPutchar (s : Vga) {c : BitVec 8} (h : c ≠ 0x08) :
    printChar s c = vgaPutchar s c := by
  simp only [printChar, vgaPutchar, h, if_false]

/-! ## Plain text -/

/-- A byte `vga_putchar` shows as a glyph: not `'\n'`, `'\r'` or `'\t'`. -/
def Plain (c : BitVec 8) : Prop := c ≠ 0x0A ∧ c ≠ 0x0D ∧ c ≠ 0x09

theorem vgaPutchar_plain {s : Vga} {c : BitVec 8} (hc : Plain c) (hr : s.row < vgaHeight)
    (hcol : s.col + 1 < vgaWidth) :
    vgaPutchar s c =
      { s with buffer := setAt s.buffer (s.row * vgaWidth + s.col) (vgaCell c), col := s.col + 1 } := by
  obtain ⟨h1, h2, h3⟩ := hc
  rw [vgaPutchar, if_neg h1, if_neg h2, if_neg h3, wrapScroll, wrapLine]
  dsimp only
  rw [if_neg (by omega), scrollUp]
  dsimp only
  rw [if_neg (by omega)]

/-- Plain bytes that fit in the cursor's row appear one per cell from the cursor on, and
the cursor moves past them. -/
theorem foldl_vgaPutchar_plain {s : Vga} (hr : s.row < vgaHeight) {l : List (BitVec 8)}
    (hl : ∀ c ∈ l, Plain c) (hcol : s.col + l.length < vgaWidth) :
    l.foldl vgaPutchar s = { s with
      buffer := fun j => if s.row * vgaWidth + s.col ≤ j ∧ j < s.row * vgaWidth + s.col + l.length
        then vgaCell (l.getD (j - (s.row * vgaWidth + s.col)) 0) else s.buffer j
      col := s.col + l.length } := by
  induction l generalizing s with
  | nil =>
    cases s
    simp only [List.foldl_nil, List.length_nil, Nat.add_zero, Vga.mk.injEq, and_true, true_and]
    funext j
    rw [if_neg (by omega)]
  | cons c cs ih =>
    simp only [List.length_cons] at hcol ⊢
    rw [List.foldl_cons, vgaPutchar_plain (hl c (List.mem_cons_self _ _)) hr (by omega),
      @ih ⟨setAt s.buffer (s.row * vgaWidth + s.col) (vgaCell c), s.row, s.col + 1⟩ hr (fun c h => hl c (List.mem_cons_of_mem _ h)) (by dsimp only; omega)]
    dsimp only
    congr 1
    · funext j
      by_cases hj : j = s.row * vgaWidth + s.col
      · subst hj
        rw [if_neg (by omega), if_pos (by omega), setAt_same, Nat.sub_self, List.getD_cons_zero]
      · rw [setAt_ne _ _ hj]
        split_ifs <;> first
          | rfl
          | omega
          | rw [show j - (s.row * vgaWidth + s.col) = j - (s.row * vgaWidth + (s.col + 1)) + 1 by
              omega, List.getD_cons_succ]
    · omega

/-! ## Each call keeps to the screen -/

/-- The cursor is on the screen. -/
def OnScreen (s : Vga) : Prop := s.row < vgaHeight ∧ s.col < vgaWidth

/-- Every cell a call may write: the 80 by 25 cells of the screen. -/
def Frame (b b' : Nat → BitVec 16) : Prop := ∀ j, vgaWidth * vgaHeight ≤ j → b' j = b j

theorem wrapLine_col (s : Vga) : (wrapLine s).col < vgaWidth := by
  unfold wrapLine; split_ifs with h
  · exact Nat.zero_lt_succ _
  · exact Nat.lt_of_not_le h

theorem wrapLine_buffer (s : Vga) : (wrapLine s).buffer = s.buffer := by
  unfold wrapLine; split_ifs <;> rfl

theorem scrollUp_onScreen {s : Vga} (h : s.col < vgaWidth) : OnScreen (scrollUp s) := by
  unfold scrollUp OnScreen
  split_ifs with hr
  · exact ⟨Nat.sub_lt (by decide) Nat.one_pos, h⟩
  · exact ⟨Nat.lt_of_not_le hr, h⟩

theorem scrollUp_frame (s : Vga) : Frame s.buffer (scrollUp s).buffer := by
  intro j hj
  simp only [vgaWidth, vgaHeight] at hj
  unfold scrollUp
  split_ifs
  · exact (vgaScroll_cell _ j).trans (by rw [if_neg (by omega), if_neg (by omega)])
  · rfl

theorem wrapScroll_onScreen (s : Vga) : OnScreen (wrapScroll s) :=
  scrollUp_onScreen (wrapLine_col s)

theorem wrapScroll_frame (s : Vga) : Frame s.buffer (wrapScroll s).buffer := by
  intro j hj
  rw [wrapScroll, scrollUp_frame _ j hj, wrapLine_buffer]

/-- The cell at an on-screen cursor, or the one before it, is a cell of the screen. -/
theorem setAt_frame {s : Vga} (h : OnScreen s) {i : Nat} (hi : i ≤ s.row * vgaWidth + s.col)
    (v : BitVec 16) : Frame s.buffer (setAt s.buffer i v) := by
  intro j hj
  obtain ⟨hr, hc⟩ := h
  simp only [vgaWidth, vgaHeight] at hr hc hi hj
  exact setAt_ne _ _ (by omega)

theorem vgaPutchar_frame {s : Vga} (h : OnScreen s) (c : BitVec 8) :
    Frame s.buffer (vgaPutchar s c).buffer := by
  intro j hj
  rw [vgaPutchar, wrapScroll_frame _ j hj]
  split_ifs <;> first | rfl | exact setAt_frame h le_rfl _ j hj

theorem printChar_frame {s : Vga} (h : OnScreen s) (c : BitVec 8) :
    Frame s.buffer (printChar s c).buffer := by
  intro j hj
  rw [printChar, wrapScroll_frame _ j hj]
  split_ifs <;> first
    | rfl
    | exact setAt_frame h le_rfl _ j hj
    | exact setAt_frame h (by omega) _ j hj

/-- `print` keeps its cursor on the screen and writes only cells of the screen. -/
theorem print_onScreen {s : Vga} (h : OnScreen s) (str : List (BitVec 8)) :
    OnScreen (print s str) ∧ Frame s.buffer (print s str).buffer := by
  unfold print
  generalize str.takeWhile (· ≠ 0) = bytes
  induction bytes generalizing s with
  | nil => exact ⟨h, fun _ _ => rfl⟩
  | cons c cs ih =>
    obtain ⟨h', hf⟩ := ih (wrapScroll_onScreen _)
    exact ⟨h', fun j hj => (hf j hj).trans (vgaPutchar_frame h c j hj)⟩

theorem clearScreen_frame (buffer : Nat → BitVec 16) : Frame buffer (clearScreen buffer) :=
  fun j hj => (foldl_setAt_range _ _ _ j).trans (if_neg (by omega))

/-! ## The console as a whole -/

/-- The buffer and the two cursors: `vga_row`, `vga_col` of `kernel.c`, and the statics
of `print_char` in `io.c`. -/
structure Display where
  buffer : Nat → BitVec 16
  kernelRow : Nat
  kernelCol : Nat
  ioRow : Nat
  ioCol : Nat

/-- The console as `kernel.c` sees it. -/
def Display.kernel (c : Display) : Vga := ⟨c.buffer, c.kernelRow, c.kernelCol⟩

/-- The console as `io.c` sees it. -/
def Display.io (c : Display) : Vga := ⟨c.buffer, c.ioRow, c.ioCol⟩

/-- The calls that write the console. -/
inductive Op where
  | print (str : List (BitVec 8))
  | printChar (c : BitVec 8)
  | clearScreen

def runOp (c : Display) : Op → Display
  | .print str =>
    let v := print c.kernel str
    { c with buffer := v.buffer, kernelRow := v.row, kernelCol := v.col }
  | .printChar ch =>
    let v := printChar c.io ch
    { c with buffer := v.buffer, ioRow := v.row, ioCol := v.col }
  | .clearScreen => { c with buffer := clearScreen c.buffer }

def runOps (c : Display) (ops : List Op) : Display := ops.foldl runOp c

/-- Both cursors on the screen. -/
def Display.CursorsOnScreen (c : Display) : Prop :=
  (c.kernelRow < vgaHeight ∧ c.kernelCol < vgaWidth) ∧ c.ioRow < vgaHeight ∧ c.ioCol < vgaWidth

theorem runOp_onScreen {c : Display} (h : c.CursorsOnScreen) (op : Op) :
    (runOp c op).CursorsOnScreen ∧ Frame c.buffer (runOp c op).buffer := by
  obtain ⟨hk, hi⟩ := h
  cases op <;> rw [runOp] <;> dsimp only [Display.CursorsOnScreen]
  case print str =>
    obtain ⟨h1, hf⟩ := @print_onScreen c.kernel hk str
    exact ⟨⟨h1, hi⟩, hf⟩
  case printChar ch => exact ⟨⟨hk, wrapScroll_onScreen _⟩, @printChar_frame c.io hi ch⟩
  case clearScreen => exact ⟨⟨hk, hi⟩, clearScreen_frame c.buffer⟩

/-- From boot, with both cursors at the top left, over any sequence of `print`,
`print_char` and `clear_screen` calls: both cursors stay on the 80 by 25 screen, and
every byte of memory past the 2000 cells of the text buffer keeps its value. -/
theorem console_stays_on_screen (buffer : Nat → BitVec 16) (ops : List Op) :
    let c := runOps ⟨buffer, 0, 0, 0, 0⟩ ops
    c.CursorsOnScreen ∧ ∀ j, vgaWidth * vgaHeight ≤ j → c.buffer j = buffer j := by
  suffices h : ∀ c : Display, c.CursorsOnScreen →
      (runOps c ops).CursorsOnScreen ∧ Frame c.buffer (runOps c ops).buffer from
    h _ ⟨⟨Nat.zero_lt_succ _, Nat.zero_lt_succ _⟩, Nat.zero_lt_succ _, Nat.zero_lt_succ _⟩
  induction ops with
  | nil => exact fun c h => ⟨h, fun _ _ => rfl⟩
  | cons op ops ih =>
    intro c h
    obtain ⟨h1, hf1⟩ := runOp_onScreen h op
    obtain ⟨h2, hf2⟩ := ih _ h1
    exact ⟨h2, fun j hj => (hf2 j hj).trans (hf1 j hj)⟩

end MiniKernel.Console
