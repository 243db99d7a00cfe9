import Mathlib.Data.Nat.Defs
import Mathlib.Algebra.Group.Nat.Basic

/-! The page-frame bitmap of `memory_management.c`: one bit per frame, frame `bit`
in byte `bit >> 3` at position `bit & 7`. Everything later reads the bitmap only through
`bitmapTest`, and `bitmapTest_set`, `bitmapTest_clear` and `bitmap_ext` say all there is
to say about the two writers. `setAt`, the write of one entry of a C array, serves every
model of the project. -/

namespace MiniKernel

/-- Replace entry `i` of a C array, modelled as a map from indices. -/
def setAt {α : Type} (a : Nat → α) (i : Nat) (x : α) : Nat → α :=
  fun j => if j = i then x else a j

@[simp] theorem setAt_same {α : Type} (a : Nat → α) (i : Nat) (x : α) : setAt a i x i = x := by
  simp [setAt]

theorem setAt_ne {α : Type} (a : Nat → α) {i j : Nat} (x : α) (h : j ≠ i) :
    setAt a i x j = a j := by
  simp [setAt, h]

@[simp] theorem setAt_eq_self {α : Type} (a : Nat → α) (i : Nat) : setAt a i (a i) = a := by
  funext j; by_cases h : j = i <;> simp [setAt, h]

/-- A C loop `for (i = 0; i < n; ++i) a[i] = g (i);`. -/
theorem foldl_setAt_range {α : Type} (g : Nat → α) (a : Nat → α) (n j : Nat) :
    (List.range n).foldl (fun a i => setAt a i (g i)) a j = if j < n then g j else a j := by
  induction n with
  | zero => rfl
  | succ n ih =>
    rw [List.range_succ, List.foldl_append, List.foldl_cons, List.foldl_nil, setAt, ih]
    by_cases h : j = n
    · simp [h]
    · rw [if_neg h]; split_ifs <;> first | rfl | omega

/-- `uint8_t page_bitmap[BITMAP_SIZE]`, as a map from byte index to byte. -/
abbrev Bytes := Nat → BitVec 8

/-- `bitmap_set`: mark a page frame as used. -/
def bitmapSet (bm : Bytes) (bit : Nat) : Bytes :=
  fun i => if i = bit >>> 3 then bm i ||| 1#8 <<< (bit &&& 7) else bm i

/-- `bitmap_clear`: mark a page frame as free. -/
def bitmapClear (bm : Bytes) (bit : Nat) : Bytes :=
  fun i => if i = bit >>> 3 then bm i &&& ~~~(1#8 <<< (bit &&& 7)) else bm i

/-- `bitmap_test`, with the C truth value of its `int` result. -/
def bitmapTest (bm : Bytes) (bit : Nat) : Bool :=
  bm (bit >>> 3) &&& 1#8 <<< (bit &&& 7) != 0#8

/-! ## Bits of one byte -/

theorem shiftRight_three (b : Nat) : b >>> 3 = b / 8 := by
  simp [Nat.shiftRight_eq_div_pow]

theorem and_seven (b : Nat) : b &&& 7 = b % 8 := by
  simpa using Nat.and_pow_two_sub_one_eq_mod b 3

theorem getLsbD_mask {k j : Nat} (hk : k < 8) :
    (1#8 <<< k).getLsbD j = decide (j = k) := by
  simp only [BitVec.getLsbD_shiftLeft, BitVec.getLsbD_one]
  by_cases h : j = k <;> simp [h, hk]
  omega

theorem and_mask_ne_zero (x : BitVec 8) {k : Nat} (hk : k < 8) :
    (x &&& 1#8 <<< k != 0#8) = x.getLsbD k := by
  cases hx : x.getLsbD k
  · have : x &&& 1#8 <<< k = 0#8 := BitVec.eq_of_getLsbD_eq fun j => by
      by_cases h : j.val = k <;> simp [getLsbD_mask hk, h, hx]
    simp [this]
  · have : x &&& 1#8 <<< k ≠ 0#8 := fun h => by
      simpa [getLsbD_mask hk, hx] using congrArg (BitVec.getLsbD · k) h
    simpa using this

/-! ## The bitmap as a set of frames -/

theorem bitmapTest_eq (bm : Bytes) (b : Nat) :
    bitmapTest bm b = (bm (b / 8)).getLsbD (b % 8) := by
  rw [bitmapTest, shiftRight_three, and_seven, and_mask_ne_zero _ (Nat.mod_lt _ (by decide))]

private theorem eq_of_div_mod {i j : Nat} (hd : j / 8 = i / 8) : (j % 8 = i % 8 ↔ j = i) := by
  omega

@[simp] theorem bitmapTest_set (bm : Bytes) (i j : Nat) :
    bitmapTest (bitmapSet bm i) j = (decide (j = i) || bitmapTest bm j) := by
  simp only [bitmapTest_eq, bitmapSet, shiftRight_three, and_seven]
  by_cases hd : j / 8 = i / 8
  · rw [if_pos hd, BitVec.getLsbD_or, getLsbD_mask (Nat.mod_lt i (by decide : 8 > 0)),
      Bool.or_comm]
    simp [eq_of_div_mod hd]
  · have hji : j ≠ i := fun h => hd (h ▸ rfl)
    simp [hd, hji]

@[simp] theorem bitmapTest_clear (bm : Bytes) (i j : Nat) :
    bitmapTest (bitmapClear bm i) j = (!decide (j = i) && bitmapTest bm j) := by
  simp only [bitmapTest_eq, bitmapClear, shiftRight_three, and_seven]
  by_cases hd : j / 8 = i / 8
  · rw [if_pos hd, BitVec.getLsbD_and, BitVec.getLsbD_not,
      getLsbD_mask (Nat.mod_lt i (by decide : 8 > 0)), Bool.and_comm]
    simp [eq_of_div_mod hd, Nat.mod_lt j (by decide : 8 > 0)]
  · have hji : j ≠ i := fun h => hd (h ▸ rfl)
    simp [hd, hji]

/-- A bitmap is determined by its bits. -/
theorem bitmap_ext {bm bm' : Bytes} (h : ∀ b, bitmapTest bm b = bitmapTest bm' b) :
    bm = bm' := by
  funext n
  refine BitVec.eq_of_getLsbD_eq fun k => ?_
  have hb := h (8 * n + k)
  rwa [bitmapTest_eq, bitmapTest_eq, show (8 * n + k) / 8 = n by omega,
    show (8 * n + k.val) % 8 = k by omega] at hb

/-- Setting a clear bit and clearing it again restores the bitmap. -/
theorem bitmapClear_set (bm : Bytes) {i : Nat} (h : bitmapTest bm i = false) :
    bitmapClear (bitmapSet bm i) i = bm :=
  bitmap_ext fun b => by by_cases hb : b = i <;> simp [hb, h]

end MiniKernel
