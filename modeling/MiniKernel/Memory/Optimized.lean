import MiniKernel.Memory.Manager

/-! The page allocator of `memory_management_optimized.c`. It keeps its own `page_bitmap`
and `next_free_page`, with the frame layout and constants of `memory_management.c`, and
neither a region registry nor an access check. `optimized_find_free_page` scans a byte at
a time from byte `next_free_page / 8` and then wraps around to byte 0; the profiler and
prefetch calls change nothing the model reads.

`optimizedFindFreePage_eq_findFreePage` shows that in every reachable state the byte scan
returns the frame the bit-by-bit `find_free_page` returns: every frame below the hint
stays used (`HintBelow`), whatever pointers are freed. The kernel frames do not stay
used: `kernel_frame_reallocated` frees any kernel frame but 0, and the next allocation
hands out a kernel frame.
`bitmapTest_setRange` gives the bits `bitmap_set_range` really sets: it drops the bits of
the last byte when that byte is the first one it would fill whole. Elsewhere, and at its one
call `(0, kernel_pages)`, it sets what the bit loop of `bitmap_set` sets
(`bitmapSetRange_eq_bitLoop`). -/

namespace MiniKernel.Optimized

open Memory

/-- `BITMAP_SIZE`, the bytes of `page_bitmap`. -/
def bitmapSize : Nat := physMemoryEnd / pageSize / 8

/-- `__builtin_ctz (x)` for `x ≠ 0`: the index of the lowest set bit. -/
def ctz (x : BitVec 32) : Nat := ((List.range 32).find? fun i => x.getLsbD i).getD 32

/-- `find_first_zero_bit (byte)`. The byte is promoted to `int` before `~`, so every bit
of the complement above bit 7 is set. -/
def findFirstZeroBit (byte : BitVec 8) : Int :=
  if byte = 0xFF then -1 else ctz (~~~(byte.setWidth 32))

/-- A byte loop of `optimized_find_free_page` over the `n` bytes from `i`: the frame of
the lowest clear bit of the first byte that is not `0xFF`, if it is below
`total_pages`. -/
def scanBytes (bm : Bytes) (i : Nat) : Nat → Option Nat
  | 0 => none
  | n + 1 =>
    if bm i ≠ 0xFF then
      let freeBit := findFirstZeroBit (bm i)
      if 0 ≤ freeBit then
        let result := (i <<< 3) + freeBit.toNat
        if result < frameCount then some result else scanBytes bm (i + 1) n
      else scanBytes bm (i + 1) n
    else scanBytes bm (i + 1) n

/-- The statics of `memory_management_optimized.c`. -/
structure OptState where
  pageBitmap : Bytes
  nextFreePage : Nat

/-- `optimized_find_free_page`: the bytes from `next_free_page >> 3` to the end, then the
bytes below it; `none` is the `(uint32_t)-1` of a full bitmap. -/
def optimizedFindFreePage (s : OptState) : Option Nat × OptState :=
  let startByte := s.nextFreePage >>> 3
  match (scanBytes s.pageBitmap startByte (bitmapSize - startByte)).or
      (scanBytes s.pageBitmap 0 startByte) with
  | some result => (some result, { s with nextFreePage := result + 1 })
  | none => (none, s)

/-- `bitmap_set_range (start_bit, count)`: a partial first byte, the whole bytes, and a
partial last byte, the last only past the first whole byte. -/
def bitmapSetRange (bm : Bytes) (startBit count : Nat) : Bytes :=
  let startByte := startBit >>> 3
  let startBitInByte := startBit &&& 7
  let endBit := (startBit + count) % 2 ^ 32
  let endByte := endBit >>> 3
  let endBitInByte := endBit &&& 7
  let headMask : BitVec 8 :=
    if startByte = endByte then
      ((0xFF : BitVec 8) <<< startBitInByte) &&& ((0xFF : BitVec 8) >>> (8 - endBitInByte))
    else (0xFF : BitVec 8) <<< startBitInByte
  let bm := if startBitInByte ≠ 0 then setAt bm startByte (bm startByte ||| headMask) else bm
  let firstWhole := if startBitInByte ≠ 0 then startByte + 1 else startByte
  let bm := (List.range' firstWhole (endByte - firstWhole)).foldl (fun bm i => setAt bm i 0xFF) bm
  if endByte > firstWhole ∧ endBitInByte ≠ 0 then
    setAt bm endByte (bm endByte ||| (0xFF : BitVec 8) >>> (8 - endBitInByte))
  else bm

/-- `optimized_init_memory_management`: clear the bitmap, mark the kernel frames, and
put the hint just past them. -/
def optimizedInitMemoryManagement : OptState :=
  ⟨bitmapSetRange (fun _ => 0) 0 kernelPages, kernelPages⟩

/-- `optimized_allocate_memory (size)`: the address of a fresh frame, `0` for `NULL`. -/
def optimizedAllocateMemory (s : OptState) (size : BitVec 32) : BitVec 32 × OptState :=
  if size.toNat ≠ pageSize then (0, s)
  else match optimizedFindFreePage s with
    | (none, s) => (0, s)
    | (some frame, s) =>
      (BitVec.ofNat 32 (frame * pageSize), { s with pageBitmap := bitmapSet s.pageBitmap frame })

/-- `optimized_free_memory (ptr)`: any pointer below `PHYS_MEMORY_END` frees its frame. -/
def optimizedFreeMemory (s : OptState) (ptr : BitVec 32) : OptState :=
  if ptr = 0 then s
  else
    let frame := ptr.toNat / pageSize
    if frame < frameCount then
      { pageBitmap := bitmapClear s.pageBitmap frame,
        nextFreePage := if frame < s.nextFreePage then frame else s.nextFreePage }
    else s

/-- The calls that change the allocator. -/
inductive Op where
  | allocate (size : BitVec 32)
  | free (ptr : BitVec 32)

def runOp (s : OptState) : Op → OptState
  | .allocate size => (optimizedAllocateMemory s size).2
  | .free ptr => optimizedFreeMemory s ptr

/-- The states after `optimized_init_memory_management` and any calls. -/
inductive Reachable : OptState → Prop
  | init : Reachable optimizedInitMemoryManagement
  | step {s : OptState} (op : Op) : Reachable s → Reachable (runOp s op)

/-! ## Bytes written by `bitmap_set_range` -/

theorem getLsbD_ff (j : Nat) : (0xFF : BitVec 8).getLsbD j = decide (j < 8) := by
  rw [show (0xFF : BitVec 8) = BitVec.ofNat 8 (2 ^ 8 - 1) from rfl, BitVec.getLsbD_ofNat,
    Nat.testBit_two_pow_sub_one, Bool.and_self]

theorem getLsbD_ff_shiftLeft (k j : Nat) :
    ((0xFF : BitVec 8) <<< k).getLsbD j = decide (k ≤ j ∧ j < 8) := by
  rw [BitVec.getLsbD_shiftLeft, getLsbD_ff, Bool.eq_iff_iff]
  simp only [Bool.and_eq_true, Bool.not_eq_true', decide_eq_true_eq, decide_eq_false_iff_not]
  omega

theorem getLsbD_ff_ushiftRight (m j : Nat) :
    ((0xFF : BitVec 8) >>> m).getLsbD j = decide (m + j < 8) := by
  rw [BitVec.getLsbD_ushiftRight, getLsbD_ff]

theorem bitmapTest_setAt_or (bm : Bytes) (i : Nat) (m : BitVec 8) (b : Nat) :
    bitmapTest (setAt bm i (bm i ||| m)) b =
      (bitmapTest bm b || decide (b / 8 = i) && m.getLsbD (b % 8)) := by
  simp only [bitmapTest_eq, setAt]
  by_cases h : b / 8 = i
  · simp [h, BitVec.getLsbD_or]
  · simp [h]

/-- The loop `for (i = a; i < a + n; i++) page_bitmap[i] = 0xFF;`. -/
theorem bitmapTest_fill (bm : Bytes) (a n b : Nat) :
    bitmapTest ((List.range' a n).foldl (fun bm i => setAt bm i 0xFF) bm) b =
      (decide (a ≤ b / 8 ∧ b / 8 < a + n) || bitmapTest bm b) := by
  induction n generalizing a bm with
  | zero =>
    rw [List.range'_zero, List.foldl_nil, decide_eq_false (by omega), Bool.false_or]
  | succ n ih =>
    rw [List.range'_succ, List.foldl_cons, ih, bitmapTest_eq, bitmapTest_eq, setAt]
    split_ifs with h
    · rw [getLsbD_ff, decide_eq_true (Nat.mod_lt b (by decide)), Bool.or_true,
        decide_eq_true (by omega), Bool.true_or]
    · congr 1
      exact decide_eq_decide.2 (by omega)

/-- The bits `bitmap_set_range (s, c)` sets: all of `[s, s + c)`, except those of the
last, partial byte when that byte is the first whole byte the loop would have filled. -/
theorem bitmapTest_setRange (bm : Bytes) (s c b : Nat) (h : s + c ≤ frameCount) :
    bitmapTest (bitmapSetRange bm s c) b = (bitmapTest bm b || decide (s ≤ b ∧ b < s + c ∧
      ¬((s + c) % 8 ≠ 0 ∧ (s + c) / 8 = (s + 7) / 8 ∧ (s + c) / 8 * 8 ≤ b))) := by
  have he : (s + c) % 2 ^ 32 = s + c :=
    Nat.mod_eq_of_lt (by simp only [frameCount, physMemoryEnd, pageSize] at h; omega)
  have hb := Nat.mod_lt b (by decide : 8 > 0)
  simp only [bitmapSetRange, he, shiftRight_three, and_seven, ne_eq]
  split_ifs <;>
    simp only [bitmapTest_setAt_or, bitmapTest_fill, BitVec.getLsbD_and, getLsbD_ff_shiftLeft,
      getLsbD_ff_ushiftRight] <;>
    cases bitmapTest bm b <;>
    simp only [Bool.or_true, Bool.true_or, Bool.or_false, Bool.false_or] <;>
    refine Bool.eq_iff_iff.2 ?_ <;>
    simp only [Bool.or_eq_true, Bool.and_eq_true, decide_eq_true_eq] <;> omega

/-- The loop `for (b = s; b < s + c; b++) bitmap_set (b);` sets exactly `[s, s + c)`. -/
theorem bitmapTest_foldl_set (bm : Bytes) (s c b : Nat) :
    bitmapTest ((List.range' s c).foldl bitmapSet bm) b =
      (bitmapTest bm b || decide (s ≤ b ∧ b < s + c)) := by
  induction c generalizing s bm with
  | zero => rw [List.range'_zero, List.foldl_nil, decide_eq_false (by omega), Bool.or_false]
  | succ c ih =>
    rw [List.range'_succ, List.foldl_cons, ih, bitmapTest_set]
    cases bitmapTest bm b <;> simp only [Bool.or_true, Bool.true_or, Bool.false_or, Bool.or_false]
    refine Bool.eq_iff_iff.2 ?_
    simp only [Bool.or_eq_true, decide_eq_true_eq]
    omega

/-- `__builtin_ctz` returns the lowest set bit. -/
theorem ctz_eq {x : BitVec 32} {j : Nat} (hj : j < 32) (hx : x.getLsbD j = true)
    (hmin : ∀ k < j, x.getLsbD k = false) : ctz x = j := by
  rw [ctz, List.find?_range_eq_some.2 ⟨hx, List.mem_range.2 hj, fun k hk => by simp [hmin k hk]⟩]
  rfl

/-- A byte other than `0xFF` has a clear bit, and `find_first_zero_bit` returns the lowest. -/
theorem findFirstZeroBit_spec {byte : BitVec 8} (h : byte ≠ 0xFF) :
    ∃ j : Nat, j < 8 ∧ findFirstZeroBit byte = j ∧ byte.getLsbD j = false ∧
      ∀ k < j, byte.getLsbD k = true := by
  obtain ⟨j, hj⟩ : ∃ j, (List.range 8).find? (fun k => !byte.getLsbD k) = some j := by
    rcases hfind : (List.range 8).find? (fun k => !byte.getLsbD k) with _ | j
    · refine absurd (BitVec.eq_of_getLsbD_eq fun k => ?_) h
      have := List.find?_range_eq_none.1 hfind k k.2
      show byte.getLsbD k = (0xFF : BitVec 8).getLsbD k
      rw [getLsbD_ff, decide_eq_true k.2]
      simpa using this
    · exact ⟨j, rfl⟩
  obtain ⟨hjf, hjm, hmin⟩ := List.find?_range_eq_some.1 hj
  have hj8 := List.mem_range.1 hjm
  refine ⟨j, hj8, ?_, by simpa using hjf, fun k hk => by simpa using hmin k hk⟩
  rw [findFirstZeroBit, if_neg h, @ctz_eq _ j (by omega)]
  · simp [hj8, show j < 32 by omega, by simpa using hjf]
  · intro k hk; simp [show k < 8 by omega, show k < 32 by omega, by simpa using hmin k hk]

example : findFirstZeroBit 0xFD = 1 := by decide

/-- Frames `i .. i + k - 1` all used: the scan from `i` skips them. -/
theorem scanFree_skip {bm : Bytes} {i k : Nat}
    (h : ∀ g, i ≤ g → g < i + k → bitmapTest bm g = true) (m : Nat) :
    scanFree bm i (k + m) = scanFree bm (i + k) m := by
  induction k generalizing i with
  | zero => rw [Nat.zero_add, Nat.add_zero]
  | succ k ih =>
    rw [show k + 1 + m = k + m + 1 by omega, scanFree, if_pos (h i le_rfl (by omega)),
      ih fun g hg hg' => h g (by omega) (by omega), show i + 1 + k = i + (k + 1) by omega]

/-- A byte loop is the bit-by-bit scan of the frames of its bytes. -/
theorem scanBytes_eq (bm : Bytes) {i n : Nat} (h : i + n ≤ bitmapSize) :
    scanBytes bm i n = scanFree bm (8 * i) (8 * n) := by
  induction n generalizing i with
  | zero => rfl
  | succ n ih =>
    have ih' := ih (show i + 1 + n ≤ bitmapSize by omega)
    have hbit : ∀ j < 8, bitmapTest bm (8 * i + j) = (bm i).getLsbD j := fun j hj => by
      rw [bitmapTest_eq, show (8 * i + j) / 8 = i by omega, show (8 * i + j) % 8 = j by omega]
    by_cases hb : bm i = 0xFF
    · rw [scanBytes, if_neg (not_not.2 hb), ih', show 8 * (n + 1) = 8 + 8 * n by omega,
        scanFree_skip fun g hg hg' => ?_, show 8 * i + 8 = 8 * (i + 1) by omega]
      rw [show g = 8 * i + (g - 8 * i) by omega, hbit _ (by omega), hb, getLsbD_ff]
      simp only [decide_eq_true_eq]; omega
    · obtain ⟨j, hj8, hf, hjc, hmin⟩ := findFirstZeroBit_spec hb
      have hi : i < bitmapSize := by omega
      simp only [bitmapSize, physMemoryEnd, pageSize] at hi
      rw [scanBytes, if_pos hb]
      simp only [hf, Int.toNat_ofNat, Int.ofNat_nonneg, if_true, Nat.shiftLeft_eq,
        frameCount, physMemoryEnd, pageSize]
      rw [if_pos (by omega), show 8 * (n + 1) = j + ((8 * n + 7 - j) + 1) by omega,
        scanFree_skip fun g hg hg' => ?_, scanFree, if_neg (by rw [hbit j hj8, hjc]; simp)]
      · congr 1; omega
      · rw [show g = 8 * i + (g - 8 * i) by omega, hbit _ (by omega)]
        exact hmin _ (by omega)

/-- Every frame below the hint is used, and the hint is at most `total_pages`. -/
structure HintBelow (s : OptState) : Prop where
  le : s.nextFreePage ≤ frameCount
  below : ∀ f < s.nextFreePage, bitmapTest s.pageBitmap f = true

/-- Below a valid hint the byte scan is the bit-by-bit `find_free_page`, and the wrap-around
finds nothing. -/
theorem HintBelow.findFreePage {s : OptState} (h : HintBelow s) :
    optimizedFindFreePage s =
      match scanFree s.pageBitmap s.nextFreePage (frameCount - s.nextFreePage) with
      | some i => (some i, { s with nextFreePage := i + 1 })
      | none => (none, s) := by
  have hle := h.le
  simp only [frameCount, physMemoryEnd, pageSize] at hle
  have first : scanBytes s.pageBitmap (s.nextFreePage / 8) (bitmapSize - s.nextFreePage / 8) =
      scanFree s.pageBitmap s.nextFreePage (frameCount - s.nextFreePage) := by
    rw [scanBytes_eq _ (by simp only [bitmapSize, physMemoryEnd, pageSize]; omega),
      show 8 * (bitmapSize - s.nextFreePage / 8) = (s.nextFreePage - 8 * (s.nextFreePage / 8)) +
        (frameCount - s.nextFreePage) by simp only [bitmapSize, frameCount, physMemoryEnd, pageSize]; omega,
      scanFree_skip fun g _ hg => h.below g (by omega)]
    congr 1; omega
  have wrap : scanBytes s.pageBitmap 0 (s.nextFreePage / 8) = none := by
    rw [scanBytes_eq _ (by simp only [bitmapSize, physMemoryEnd, pageSize]; omega),
      ← Nat.add_zero (8 * (s.nextFreePage / 8)), scanFree_skip fun g _ hg => h.below g (by omega)]
    rfl
  simp only [optimizedFindFreePage, shiftRight_three, first, wrap, Option.or_none]

/-! ## Every call keeps the hint below the free frames -/

theorem hintBelow_init : HintBelow optimizedInitMemoryManagement := by
  refine ⟨by decide, fun f (hf : f < kernelPages) => ?_⟩
  show bitmapTest (bitmapSetRange (fun _ => 0) 0 kernelPages) f = true
  rw [bitmapTest_setRange _ _ _ _ (by decide)]
  simp only [kernelPages, kernelEnd, pageSize] at hf ⊢
  simp only [Bool.or_eq_true, decide_eq_true_eq]
  omega

theorem HintBelow.allocate {s : OptState} (h : HintBelow s) (size : BitVec 32) :
    HintBelow (optimizedAllocateMemory s size).2 := by
  unfold optimizedAllocateMemory
  split_ifs
  · exact h
  rw [h.findFreePage]
  rcases hf : scanFree s.pageBitmap s.nextFreePage (frameCount - s.nextFreePage) with _ | f
  · exact h
  · obtain ⟨h1, h2, -, h4⟩ := scanFree_some hf
    refine ⟨by dsimp only; omega, fun g (hg : g < f + 1) => ?_⟩
    simp only [bitmapTest_set, Bool.or_eq_true, decide_eq_true_eq]
    rcases Nat.lt_or_ge g s.nextFreePage with hlt | hge
    · exact .inr (h.below g hlt)
    · by_cases hgf : g = f
      · exact .inl hgf
      · exact .inr (h4 g hge (by omega))

/-- A free, even of a pointer the allocator never handed out, clears one frame and moves
the hint down to it at most. -/
theorem HintBelow.free {s : OptState} (h : HintBelow s) (ptr : BitVec 32) :
    HintBelow (optimizedFreeMemory s ptr) := by
  dsimp only [optimizedFreeMemory]
  split_ifs with h0 hf hlt
  · exact h
  · refine ⟨show ptr.toNat / pageSize ≤ frameCount by omega,
      fun g (hg : g < ptr.toNat / pageSize) => ?_⟩
    show bitmapTest (bitmapClear s.pageBitmap _) g = true
    rw [bitmapTest_clear, h.below g (by omega)]
    simp only [Bool.and_true, Bool.not_eq_true', decide_eq_false_iff_not]; omega
  · refine ⟨h.le, fun g (hg : g < s.nextFreePage) => ?_⟩
    show bitmapTest (bitmapClear s.pageBitmap _) g = true
    rw [bitmapTest_clear, h.below g hg]
    simp only [Bool.and_true, Bool.not_eq_true', decide_eq_false_iff_not]; omega
  · exact h

theorem HintBelow.runOp {s : OptState} (h : HintBelow s) : ∀ op, HintBelow (runOp s op)
  | .allocate size => h.allocate size
  | .free ptr => h.free ptr

theorem Reachable.hintBelow {s : OptState} (hs : Reachable s) : HintBelow s := by
  induction hs with
  | init => exact hintBelow_init
  | step op _ ih => exact ih.runOp op

/-- In every reachable state `optimized_find_free_page` returns what `find_free_page`
returns on the same bitmap and hint, whatever the registry: the lowest clear frame at or
above `next_free_page`, which becomes `result + 1`, or none. -/
theorem optimizedFindFreePage_eq_findFreePage {s : OptState} (hs : Reachable s)
    (regions : List MemoryRegion) (protection : Bool) :
    let plain := findFreePage ⟨s.pageBitmap, s.nextFreePage, regions, protection⟩
    (optimizedFindFreePage s).1 = plain.1 ∧
      (optimizedFindFreePage s).2 = ⟨plain.2.pageBitmap, plain.2.nextFreePage⟩ ∧
      match (optimizedFindFreePage s).1 with
      | some f => s.nextFreePage ≤ f ∧ f < frameCount ∧ bitmapTest s.pageBitmap f = false ∧
          (∀ g, s.nextFreePage ≤ g → g < f → bitmapTest s.pageBitmap g = true) ∧
          (optimizedFindFreePage s).2.nextFreePage = f + 1
      | none => ∀ g, s.nextFreePage ≤ g → g < frameCount → bitmapTest s.pageBitmap g = true := by
  rw [hs.hintBelow.findFreePage]
  simp only [findFreePage]
  rcases hf : scanFree s.pageBitmap s.nextFreePage (frameCount - s.nextFreePage) with _ | f
  · have := scanFree_none hf
    exact ⟨rfl, rfl, fun g hg hg' => this g hg (by omega)⟩
  · obtain ⟨h1, h2, h3, h4⟩ := scanFree_some hf
    exact ⟨rfl, rfl, h1, by omega, h3, h4, rfl⟩

/-- Two pages allocated after boot and the first freed: the hint is back at frame 256. -/
theorem freed_page_findFreePage_agrees :
    let s := runOp (runOp (runOp optimizedInitMemoryManagement (.allocate 0x1000))
      (.allocate 0x1000)) (.free 0x100000)
    let plain := findFreePage ⟨s.pageBitmap, s.nextFreePage, [], true⟩
    Reachable s ∧ (optimizedFindFreePage s).1 = plain.1 ∧
      (optimizedFindFreePage s).2 = ⟨plain.2.pageBitmap, plain.2.nextFreePage⟩ ∧
      match (optimizedFindFreePage s).1 with
      | some f => s.nextFreePage ≤ f ∧ f < frameCount ∧ bitmapTest s.pageBitmap f = false ∧
          (∀ g, s.nextFreePage ≤ g → g < f → bitmapTest s.pageBitmap g = true) ∧
          (optimizedFindFreePage s).2.nextFreePage = f + 1
      | none => ∀ g, s.nextFreePage ≤ g → g < frameCount → bitmapTest s.pageBitmap g = true :=
  let hs := (Reachable.init.step (.allocate 0x1000)).step (.allocate 0x1000) |>.step (.free 0x100000)
  ⟨hs, optimizedFindFreePage_eq_findFreePage hs [] true⟩

/-! ## Kernel frames -/

/-- `optimized_free_memory` takes the address of any kernel frame but 0: it clears the
frame, and the next page allocation hands out a kernel frame at or below it, at an address
below `KERNEL_END`. -/
theorem kernel_frame_reallocated {s : OptState} (hs : Reachable s) {f : Nat} (hf0 : 0 < f)
    (hf : f < kernelPages) :
    let freed := optimizedFreeMemory s (BitVec.ofNat 32 (f * pageSize))
    bitmapTest freed.pageBitmap f = false ∧
      ∃ g, g ≤ f ∧ bitmapTest freed.pageBitmap g = false ∧
        (optimizedAllocateMemory freed (BitVec.ofNat 32 pageSize)).1 =
          BitVec.ofNat 32 (g * pageSize) ∧ g * pageSize < kernelEnd := by
  intro freed
  simp only [kernelPages, kernelEnd, pageSize] at hf
  have hk : f * pageSize < 2 ^ 32 := by simp only [pageSize]; omega
  have hptr : (BitVec.ofNat 32 (f * pageSize)).toNat = f * pageSize := by
    rw [BitVec.toNat_ofNat, Nat.mod_eq_of_lt hk]
  have hne : BitVec.ofNat 32 (f * pageSize) ≠ 0 := fun e => by
    have h0 : f * pageSize = 0 := hptr ▸ congrArg BitVec.toNat e
    simp only [pageSize] at h0; omega
  have e : freed = ⟨bitmapClear s.pageBitmap f, if f < s.nextFreePage then f else s.nextFreePage⟩ := by
    show optimizedFreeMemory s _ = _
    rw [optimizedFreeMemory, if_neg hne]
    dsimp only
    rw [hptr, Nat.mul_div_cancel _ (by decide : 0 < pageSize),
      if_pos (show f < frameCount by simp only [frameCount, physMemoryEnd, pageSize]; omega)]
  have hclear : bitmapTest freed.pageBitmap f = false := by rw [e]; simp [bitmapTest_clear]
  have hnext : freed.nextFreePage ≤ f := by rw [e]; dsimp only; split_ifs <;> omega
  refine ⟨hclear, ?_⟩
  rcases hsc : scanFree freed.pageBitmap freed.nextFreePage (frameCount - freed.nextFreePage)
    with _ | g
  · have := scanFree_none hsc f hnext (by simp only [frameCount, physMemoryEnd, pageSize]; omega)
    rw [hclear] at this; cases this
  · obtain ⟨-, -, h3, h4⟩ := scanFree_some hsc
    have hgf : g ≤ f := Nat.le_of_not_lt fun hlt => by
      have := h4 f hnext hlt; rw [hclear] at this; cases this
    refine ⟨g, hgf, h3, ?_, by simp only [kernelEnd, pageSize]; omega⟩
    rw [optimizedAllocateMemory, if_neg (by decide),
      (hs.hintBelow.free (BitVec.ofNat 32 (f * pageSize))).findFreePage, hsc]

theorem boot_kernel_frame_reallocated :
    let freed := optimizedFreeMemory optimizedInitMemoryManagement (BitVec.ofNat 32 (1 * pageSize))
    Reachable optimizedInitMemoryManagement ∧ 0 < 1 ∧ 1 < kernelPages ∧
      (bitmapTest freed.pageBitmap 1 = false ∧
        ∃ g, g ≤ 1 ∧ bitmapTest freed.pageBitmap g = false ∧
          (optimizedAllocateMemory freed (BitVec.ofNat 32 pageSize)).1 =
            BitVec.ofNat 32 (g * pageSize) ∧ g * pageSize < kernelEnd) ∧
      (optimizedAllocateMemory freed (BitVec.ofNat 32 pageSize)).1 = 0x1000 :=
  ⟨.init, by decide, by decide, kernel_frame_reallocated .init (by decide) (by decide), by decide⟩

end MiniKernel.Optimized
