import MiniKernel.Console.Format

/-! The console of `kernel_optimized.c`. `optimized_vga_scroll` copies the 24 lower rows up as
one block of `copy_size` cells, eight cells a pass while `i < copy_size - 7` and then one at a
time; `optimized_vga_putchar` is `vga_putchar` written as a `switch`; `optimized_print_hex`
fills its digits from a table, right to left.

* `optimizedVgaScroll_eq`: the unrolled copy gives the buffer of `vga_scroll`;
* `optimizedPrint_eq`: so `optimized_print` writes what `print` of `kernel.c` writes, from
  every state and for every string;
* `optimizedPrintHex_eq`: the table digits are those `kernel_main_c` computes nibble by nibble,
  so `optimized_print_hex` prints what the hexadecimal loop of `kernel.c` prints. -/

namespace MiniKernel.Console

/-- The unrolled loop of `optimized_vga_scroll`: eight cells a pass, `dst[i + k] = src[i + k]`
for `k < 8` in order, while `i < copy_size - 7`. Returns the `i` it stops at, and the buffer. -/
def unrolledCopy (dst src copySize : Nat) (b : Nat → BitVec 16) (i : Nat) :
    Nat × (Nat → BitVec 16) :=
  if i < copySize - 7 then
    unrolledCopy dst src copySize
      ((List.range 8).foldl (fun b k => setAt b (dst + i + k) (b (src + i + k))) b) (i + 8)
  else (i, b)
termination_by copySize - 7 - i

/-- The remainder loop of `optimized_vga_scroll`: `dst[i] = src[i]` while `i < copy_size`. -/
def remainderCopy (dst src copySize : Nat) (b : Nat → BitVec 16) (i : Nat) : Nat → BitVec 16 :=
  if i < copySize then remainderCopy dst src copySize (setAt b (dst + i) (b (src + i))) (i + 1)
  else b
termination_by copySize - i

/-- `optimized_vga_scroll ()`: `dst` is cell 0 and `src` cell `VGA_WIDTH`; the copy covers
`copy_size = (VGA_HEIGHT - 1) * VGA_WIDTH` cells, then the bottom row gets `clear_value`, the
cell of `' '`. The prefetch loop changes no cell. -/
def optimizedVgaScroll (buffer : Nat → BitVec 16) : Nat → BitVec 16 :=
  let copySize := (vgaHeight - 1) * vgaWidth
  let unrolled := unrolledCopy 0 vgaWidth copySize buffer 0
  (List.range vgaWidth).foldl (fun b x => setAt b ((vgaHeight - 1) * vgaWidth + x) blank)
    (remainderCopy 0 vgaWidth copySize unrolled.2 unrolled.1)

/-- `optimized_vga_putchar (c)`: the `switch`, the wrap at the right edge and the scroll
below the bottom row. -/
def optimizedVgaPutchar (s : Vga) (c : BitVec 8) : Vga :=
  let s :=
    if c = 0x0A then { s with col := 0, row := s.row + 1 }
    else if c = 0x0D then { s with col := 0 }
    else if c = 0x09 then { s with col := (s.col + 8) &&& tabMask }
    else { s with buffer := setAt s.buffer (s.row * vgaWidth + s.col) (vgaCell c),
                  col := s.col + 1 }
  let s := if s.col ≥ vgaWidth then { s with col := 0, row := s.row + 1 } else s
  if s.row ≥ vgaHeight then { s with buffer := optimizedVgaScroll s.buffer, row := vgaHeight - 1 }
  else s

/-- `optimized_print (str)` on a string that is not `NULL`: the bytes up to its terminator. -/
def optimizedPrint (s : Vga) (str : List (BitVec 8)) : Vga :=
  (str.takeWhile (· ≠ 0)).foldl optimizedVgaPutchar s

/-- `hex_chars`, without its terminator. -/
def hexChars : List (BitVec 8) := "0123456789ABCDEF".toList.map fun c => BitVec.ofNat 8 c.toNat

/-- The loop `for (int i = 7; i >= 0; --i) { buffer[i] = hex_chars[value & 0xF]; value >>= 4; }`
with `i + 1` passes left. -/
def hexFill : Nat → BitVec 32 → (Nat → BitVec 8) → Nat → BitVec 8
  | 0, _, buffer => buffer
  | i + 1, value, buffer =>
    hexFill i (value >>> 4) (setAt buffer i (hexChars.getD (value &&& 0xF).toNat 0))

/-- `optimized_print_hex (value)`: `char buffer[9]` with `buffer[8] = '\0'` and the eight digits
before it, printed by `optimized_print`. The other cells of `buffer` are all written before
they are read. -/
def optimizedPrintHex (s : Vga) (value : BitVec 32) : Vga :=
  let buffer := hexFill 8 value (setAt (fun _ => 0) 8 0)
  optimizedPrint s ((List.range 9).map buffer)

/-! ## The scroll -/

/-- The first `i` cells from `dst` hold the cells from `src` of `orig`; the others are those of
`orig`. -/
def Copied (dst src : Nat) (orig b : Nat → BitVec 16) (i : Nat) : Prop :=
  ∀ j, b j = if dst ≤ j ∧ j < dst + i then orig (src + (j - dst)) else orig j

section Copy

variable {dst src : Nat} {orig : Nat → BitVec 16}

/-- A pass of `n` cells in order, reading ahead of what it writes, extends the copied prefix. -/
theorem Copied.pass (hds : dst ≤ src) {b : Nat → BitVec 16} {i : Nat}
    (h : Copied dst src orig b i) (n : Nat) :
    Copied dst src orig
      ((List.range n).foldl (fun b k => setAt b (dst + i + k) (b (src + i + k))) b) (i + n) := by
  intro j
  rw [foldl_copy _ (Nat.add_le_add_right hds i), h, h]
  split_ifs <;> first | rfl | omega | (congr 1; omega)

theorem Copied.unrolledCopy (hds : dst ≤ src) (copySize : Nat) {b : Nat → BitVec 16} {i : Nat}
    (h : Copied dst src orig b i) :
    Copied dst src orig (unrolledCopy dst src copySize b i).2
        (unrolledCopy dst src copySize b i).1 ∧
      (i ≤ copySize → (unrolledCopy dst src copySize b i).1 ≤ max i copySize) := by
  induction b, i using MiniKernel.Console.unrolledCopy.induct dst src copySize with
  | case1 b i hi ih =>
    rw [MiniKernel.Console.unrolledCopy, if_pos hi]
    exact ⟨(ih (h.pass hds 8)).1,
      fun _ => Nat.le_trans ((ih (h.pass hds 8)).2 (by omega)) (by omega)⟩
  | case2 b i hi =>
    rw [MiniKernel.Console.unrolledCopy, if_neg hi]
    exact ⟨h, fun _ => le_max_left _ _⟩

theorem Copied.remainderCopy (hds : dst ≤ src) (copySize : Nat) {b : Nat → BitVec 16} {i : Nat}
    (h : Copied dst src orig b i) (hi : i ≤ copySize) :
    Copied dst src orig (remainderCopy dst src copySize b i) copySize := by
  induction b, i using MiniKernel.Console.remainderCopy.induct dst src copySize with
  | case1 b i hlt ih =>
    rw [MiniKernel.Console.remainderCopy, if_pos hlt]
    exact ih (by simpa using h.pass hds 1) hlt
  | case2 b i hge =>
    rw [MiniKernel.Console.remainderCopy, if_neg hge, show copySize = i by omega]
    exact h

end Copy

/-- The unrolled copy moves every row up by one and blanks the bottom row, as `vga_scroll`
does. -/
theorem optimizedVgaScroll_eq (buffer : Nat → BitVec 16) :
    optimizedVgaScroll buffer = vgaScroll buffer := by
  have h0 : Copied 0 vgaWidth buffer buffer 0 := fun j => by rw [if_neg (by omega)]
  obtain ⟨h1, hle⟩ := h0.unrolledCopy (Nat.zero_le _) ((vgaHeight - 1) * vgaWidth)
  have h2 := h1.remainderCopy (Nat.zero_le _) ((vgaHeight - 1) * vgaWidth)
    (Nat.le_trans (hle (Nat.zero_le _)) (Nat.le_of_eq (Nat.zero_max _)))
  funext j
  rw [vgaScroll_cell, optimizedVgaScroll, foldl_fill, h2]
  simp only [vgaHeight, vgaWidth]
  split_ifs <;> first | rfl | omega | (congr 1; omega)

/-- `optimized_vga_putchar` is `vga_putchar`. -/
theorem optimizedVgaPutchar_eq : optimizedVgaPutchar = vgaPutchar := by
  funext s c
  simp only [optimizedVgaPutchar, optimizedVgaScroll_eq]
  rfl

/-- `optimized_print` writes what `print` of `kernel.c` writes, from every state of the console
and for every string. -/
theorem optimizedPrint_eq : optimizedPrint = print := by
  funext s str
  rw [optimizedPrint, print, optimizedVgaPutchar_eq]

/-! ## Hexadecimal -/

theorem hexFill_apply : ∀ (i : Nat) (value : BitVec 32) (buffer : Nat → BitVec 8) (j : Nat),
    hexFill i value buffer j =
      if j < i then hexChars.getD ((value >>> (4 * (i - 1 - j))) &&& 0xF).toNat 0 else buffer j
  | 0, _, _, j => by simp [hexFill]
  | i + 1, value, buffer, j => by
    rw [hexFill, hexFill_apply i]
    rcases Nat.lt_trichotomy j i with hj | rfl | hj
    · rw [if_pos hj, if_pos (by omega), ← BitVec.shiftRight_add,
        show 4 + 4 * (i - 1 - j) = 4 * (i + 1 - 1 - j) by omega]
    · rw [if_neg (Nat.lt_irrefl _), if_pos (Nat.lt_succ_self _), setAt_same, Nat.add_sub_cancel,
        Nat.sub_self, Nat.mul_zero, BitVec.ushiftRight_zero]
    · rw [if_neg (by omega), if_neg (by omega), setAt_ne _ _ (by omega)]

/-- The table entry of a nibble is the digit `kernel.c` computes for it. -/
theorem getD_hexChars (v : BitVec 32) :
    hexChars.getD (v &&& 0xF).toNat 0 = hexDigit ((v &&& 0xF).setWidth 8) := by
  have hv : (v &&& 0xF).toNat < 16 := by
    rw [BitVec.toNat_and]; exact Nat.lt_of_le_of_lt Nat.and_le_right (by decide)
  have h : ∀ n < 16, hexChars.getD n 0 = hexDigit (BitVec.ofNat 8 n) := by decide
  rw [h _ hv]
  congr 1

/-- `optimized_print_hex` prints the eight digits `kernel_main_c` prints for `value`. -/
theorem optimizedPrintHex_eq (s : Vga) (value : BitVec 32) :
    optimizedPrintHex s value = (hexDigits value).foldl vgaPutchar s := by
  have hr : hexDigits value = (List.range 8).map fun k =>
      hexDigit (((value >>> ((7 - k) * 4)) &&& 0xF).setWidth 8) := by
    rw [hexDigits, List.range_eq_range', List.reverse_range', List.map_map]
    rfl
  have hd : (List.range 9).map (hexFill 8 value (setAt (fun _ => 0) 8 0)) =
      hexDigits value ++ [0] := by
    rw [List.range_succ, List.map_append, hr]
    congr 1
    refine List.map_congr_left fun k hk => ?_
    rw [hexFill_apply, if_pos (List.mem_range.1 hk), getD_hexChars,
      show 4 * (8 - 1 - k) = (7 - k) * 4 by omega]
  have hz : ∀ c ∈ hexDigits value, c ≠ 0 := by
    rintro c hc rfl
    exact absurd ((hexDigits_value value).1 0 hc) (by unfold IsHexDigit; decide)
  rw [optimizedPrintHex, hd, optimizedPrint_eq, print,
    List.takeWhile_append_of_pos (fun c hc => by simpa using hz c hc)]
  rfl

end MiniKernel.Console
