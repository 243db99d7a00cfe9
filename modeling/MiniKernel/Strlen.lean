import Mathlib.Data.BitVec

/-! `strlen` of `string.c` and `optimized_strlen` of `kernel_optimized.c`, over a byte
memory with the 32-bit addresses of the i386 target. `optimized_strlen` reads a
word-aligned string four bytes at a time, little-endian, and tests the four byte lanes of
each word in address order; an unaligned string it scans byte by byte, as `strlen` does.
Both loops run until a `'\0'`, so the model gives them `fuel` iterations.

* `strlen_eq_byteLoop`: `strlen` is the byte loop of `optimized_strlen`, counted from the
  start of the string;
* `loadWord_lane`: a lane test of the word loop asks whether the byte of that lane is zero;
* `wordLoop_spec`: over a string whose terminator lies at or past the current word, the
  word loop returns the terminator's offset from a lane test, or stops on a zero word
  that starts at the terminator;
* `optimizedStrlen_eq_strlen`: on every non-null string, at any address and whatever
  follows its terminator, both functions return its length. -/

namespace MiniKernel.Strlen

/-- `strlen (str)`: `while (str[len]) len++;` from `len`. -/
def strlen (mem : BitVec 32 → BitVec 8) (str : BitVec 32) :
    Nat → BitVec 32 → Option (BitVec 32)
  | 0, _ => none
  | fuel + 1, len => if mem (str + len) ≠ 0 then strlen mem str fuel (len + 1) else some len

/-- `*w` for `const uint32_t *w` on the i386 target: four bytes, the lowest address in the
low byte. -/
def loadWord (mem : BitVec 32 → BitVec 8) (a : BitVec 32) : BitVec 32 :=
  mem (a + 3) ++ mem (a + 2) ++ mem (a + 1) ++ mem a

/-- The word loop of `optimized_strlen` from `w`: `.inl` the value a lane test returns,
`.inr w` when `*w == 0` ends the loop. -/
def wordLoop (mem : BitVec 32 → BitVec 8) (str : BitVec 32) :
    Nat → BitVec 32 → Option (BitVec 32 ⊕ BitVec 32)
  | 0, _ => none
  | fuel + 1, w =>
    let x := loadWord mem w
    if x = 0 then some (.inr w)
    else if x &&& 0xFF = 0 then some (.inl (w - str))
    else if x &&& 0xFF00 = 0 then some (.inl (w - str + 1))
    else if x &&& 0xFF0000 = 0 then some (.inl (w - str + 2))
    else if x &&& 0xFF000000 = 0 then some (.inl (w - str + 3))
    else wordLoop mem str fuel (w + 4)

/-- The byte loop `while (*s) s++;`: where it stops. -/
def byteLoop (mem : BitVec 32 → BitVec 8) : Nat → BitVec 32 → Option (BitVec 32)
  | 0, _ => none
  | fuel + 1, s => if mem s ≠ 0 then byteLoop mem fuel (s + 1) else some s

/-- `optimized_strlen (str)`. On `NULL`, `CHECK_NULL` returns without a value. -/
def optimizedStrlen (mem : BitVec 32 → BitVec 8) (str : BitVec 32) (fuel : Nat) :
    Option (BitVec 32) :=
  if str = 0 then none
  else if str &&& 3 = 0 then
    match wordLoop mem str fuel str with
    | some (.inl r) => some r
    | some (.inr w) => (byteLoop mem fuel w).map (· - str)
    | none => none
  else (byteLoop mem fuel str).map (· - str)

/-! ### Byte lanes of a loaded word -/

/-- Offsets from one base add up. -/
theorem add_ofNat_add (a : BitVec 32) (k j : Nat) :
    a + BitVec.ofNat 32 k + BitVec.ofNat 32 j = a + BitVec.ofNat 32 (k + j) := by
  rw [BitVec.add_assoc, BitVec.ofNat_add_ofNat]

/-- The bits of the mask of byte lane `j`. -/
theorem getLsbD_lane (j i : Nat) :
    ((0xFF : BitVec 32) <<< (8 * j)).getLsbD i =
      decide (8 * j ≤ i ∧ i < 8 * j + 8 ∧ i < 32) := by
  rw [BitVec.getLsbD_shiftLeft, show (0xFF : BitVec 32) = BitVec.ofNat 32 (2 ^ 8 - 1) from rfl,
    BitVec.getLsbD_ofNat, Nat.testBit_two_pow_sub_one, Bool.eq_iff_iff]
  simp only [Bool.and_eq_true, Bool.not_eq_true', decide_eq_true_eq, decide_eq_false_iff_not]
  omega

/-- Bit `t` of lane `j` of a loaded word is bit `t` of the byte at offset `j`. -/
theorem getLsbD_loadWord (mem : BitVec 32 → BitVec 8) (a : BitVec 32) {j t : Nat} (hj : j < 4)
    (ht : t < 8) :
    (loadWord mem a).getLsbD (8 * j + t) = (mem (a + BitVec.ofNat 32 j)).getLsbD t := by
  unfold loadWord
  rw [BitVec.getLsbD_append, BitVec.getLsbD_append, BitVec.getLsbD_append]
  simp only [cond_eq_if, decide_eq_true_eq]
  rcases (by omega : j = 0 ∨ j = 1 ∨ j = 2 ∨ j = 3) with rfl | rfl | rfl | rfl
  · rw [if_pos (by omega), Nat.mul_zero, Nat.zero_add, BitVec.add_zero]
  · rw [if_neg (by omega), if_pos (by omega), show 8 * 1 + t - 8 = t by omega]; rfl
  · rw [if_neg (by omega), if_neg (by omega), if_pos (by omega),
      show 8 * 2 + t - 8 - 8 = t by omega]; rfl
  · rw [if_neg (by omega), if_neg (by omega), if_neg (by omega),
      show 8 * 3 + t - 8 - 8 - 8 = t by omega]; rfl


/-- A lane test of the word loop asks whether the byte of that lane is zero. -/
theorem loadWord_lane (mem : BitVec 32 → BitVec 8) (a : BitVec 32) {j : Nat} (hj : j < 4) :
    loadWord mem a &&& (0xFF : BitVec 32) <<< (8 * j) = 0 ↔ mem (a + BitVec.ofNat 32 j) = 0 := by
  have hz8 : ∀ t, (0 : BitVec 8).getLsbD t = false := fun _ => BitVec.getLsbD_zero
  have hz32 : ∀ i, (0 : BitVec 32).getLsbD i = false := fun _ => BitVec.getLsbD_zero
  constructor
  · intro h
    ext ⟨t, ht⟩
    dsimp only
    have := congrArg (BitVec.getLsbD · (8 * j + t)) h
    simp only [BitVec.getLsbD_and, getLsbD_loadWord mem a hj ht, getLsbD_lane, hz32] at this
    rw [decide_eq_true (by omega), Bool.and_true] at this
    rw [this, hz8]
  · intro h
    ext ⟨i, hi⟩
    dsimp only
    rw [BitVec.getLsbD_and, getLsbD_lane, hz32]
    by_cases hm : 8 * j ≤ i ∧ i < 8 * j + 8
    · obtain ⟨t, rfl⟩ : ∃ t, i = 8 * j + t := ⟨i - 8 * j, by omega⟩
      rw [getLsbD_loadWord mem a hj (by omega), h, hz8, Bool.false_and]
    · rw [decide_eq_false (by omega), Bool.and_false]

/-- The four masks of `optimized_strlen` are the lane masks, in address order. -/
theorem lane_masks :
    (0xFF : BitVec 32) = (0xFF : BitVec 32) <<< (8 * 0) ∧
      (0xFF00 : BitVec 32) = (0xFF : BitVec 32) <<< (8 * 1) ∧
      (0xFF0000 : BitVec 32) = (0xFF : BitVec 32) <<< (8 * 2) ∧
      (0xFF000000 : BitVec 32) = (0xFF : BitVec 32) <<< (8 * 3) := by
  decide


/-! ### The loops -/

/-- `(const char*)w - str` for `w` at offset `m` from `str`. -/
theorem offset_ofNat (str : BitVec 32) (m : Nat) :
    str + BitVec.ofNat 32 m - str = BitVec.ofNat 32 m := by
  rw [BitVec.add_comm, BitVec.add_sub_cancel]

/-- `strlen` is the byte loop from the string's start, measured from the start. -/
theorem strlen_eq_byteLoop (mem : BitVec 32 → BitVec 8) (str : BitVec 32) : ∀ fuel len,
    strlen mem str fuel len = (byteLoop mem fuel (str + len)).map (· - str)
  | 0, _ => rfl
  | fuel + 1, len => by
    rw [strlen, byteLoop]
    split_ifs
    · rw [strlen_eq_byteLoop mem str fuel (len + 1), BitVec.add_assoc]
    · rw [Option.map_some', BitVec.add_comm, BitVec.add_sub_cancel]

/-! Over a string of `n` non-zero bytes at `str` followed by its terminator. -/

section Terminated

variable {mem : BitVec 32 → BitVec 8} {str : BitVec 32} {n : Nat}
  (hn : ∀ i < n, mem (str + BitVec.ofNat 32 i) ≠ 0) (h0 : mem (str + BitVec.ofNat 32 n) = 0)
include hn h0

/-- From a byte at or before the terminator the byte loop stops at the terminator. -/
theorem byteLoop_spec : ∀ fuel k, k ≤ n → n < k + fuel →
    byteLoop mem fuel (str + BitVec.ofNat 32 k) = some (str + BitVec.ofNat 32 n)
  | 0, _, _, h2 => absurd h2 (by omega)
  | fuel + 1, k, h1, h2 => by
    rw [byteLoop]
    by_cases hk : k < n
    · rw [if_pos (hn k hk), show (1 : BitVec 32) = BitVec.ofNat 32 1 from rfl, add_ofNat_add,
        byteLoop_spec fuel (k + 1) (by omega) (by omega)]
    · obtain rfl : k = n := by omega
      rw [if_neg (not_not.2 h0)]

/-- From a word at or before the terminator, the word loop returns the terminator's offset
from a lane test, or stops on a zero word that starts at the terminator. -/
theorem wordLoop_spec : ∀ fuel k, 4 * k ≤ n → n < 4 * k + 4 * fuel →
    wordLoop mem str fuel (str + BitVec.ofNat 32 (4 * k)) = some (.inl (BitVec.ofNat 32 n)) ∨
      wordLoop mem str fuel (str + BitVec.ofNat 32 (4 * k)) = some (.inr (str + BitVec.ofNat 32 n))
  | 0, _, h1, h2 => absurd h2 (by omega)
  | fuel + 1, k, h1, h2 => by
    -- lane `j` of the word at offset `4k` is zero exactly at the terminator
    have hl : ∀ j < 4, 4 * k + j ≤ n → (loadWord mem (str + BitVec.ofNat 32 (4 * k)) &&&
        (0xFF : BitVec 32) <<< (8 * j) = 0 ↔ 4 * k + j = n) := fun j hj hle => by
      rw [loadWord_lane mem _ hj, add_ofNat_add]
      exact ⟨fun h => by_contra fun hne => hn _ (by omega) h, fun h => h ▸ h0⟩
    obtain ⟨m0, m1, m2, m3⟩ := lane_masks
    rw [wordLoop]
    rw [m0, m1, m2, m3]
    by_cases hfar : 4 * k + 4 ≤ n
    · have hz : ∀ j < 4, ¬(loadWord mem (str + BitVec.ofNat 32 (4 * k)) &&&
          (0xFF : BitVec 32) <<< (8 * j) = 0) := fun j hj h => by
        have := (hl j hj (by omega)).1 h; omega
      have hx : loadWord mem (str + BitVec.ofNat 32 (4 * k)) ≠ 0 := fun h =>
        hz 0 (by decide) (by rw [h]; exact BitVec.zero_and)
      rw [if_neg hx, if_neg (hz 0 (by decide)), if_neg (hz 1 (by decide)),
        if_neg (hz 2 (by decide)), if_neg (hz 3 (by decide)),
        show (4 : BitVec 32) = BitVec.ofNat 32 4 from rfl, add_ofNat_add,
        show 4 * k + 4 = 4 * (k + 1) by omega]
      exact wordLoop_spec fuel (k + 1) (by omega) (by omega)
    · obtain ⟨j, hj, rfl⟩ : ∃ j, j < 4 ∧ n = 4 * k + j :=
        ⟨n - 4 * k, by omega, by omega⟩
      by_cases hx : loadWord mem (str + BitVec.ofNat 32 (4 * k)) = 0
      · right
        have := (hl 0 (by decide) (by omega)).1 (by rw [hx]; exact BitVec.zero_and)
        rw [if_pos hx, show 4 * k + j = 4 * k by omega]
      · left
        have hz : ∀ i < j, ¬(loadWord mem (str + BitVec.ofNat 32 (4 * k)) &&&
            (0xFF : BitVec 32) <<< (8 * i) = 0) := fun i hi h => by
          have := (hl i (by omega) (by omega)).1 h; omega
        have hj0 := (hl j hj le_rfl).2 rfl
        rw [if_neg hx, offset_ofNat]
        rcases (by omega : j = 0 ∨ j = 1 ∨ j = 2 ∨ j = 3) with rfl | rfl | rfl | rfl
        · rw [if_pos hj0, Nat.add_zero]
        · rw [if_neg (hz 0 (by decide)), if_pos hj0,
            show (1 : BitVec 32) = BitVec.ofNat 32 1 from rfl,
            BitVec.ofNat_add_ofNat]
        · rw [if_neg (hz 0 (by decide)), if_neg (hz 1 (by decide)), if_pos hj0,
            show (2 : BitVec 32) = BitVec.ofNat 32 2 from rfl, BitVec.ofNat_add_ofNat]
        · rw [if_neg (hz 0 (by decide)), if_neg (hz 1 (by decide)), if_neg (hz 2 (by decide)),
            if_pos hj0, show (3 : BitVec 32) = BitVec.ofNat 32 3 from rfl, BitVec.ofNat_add_ofNat]

end Terminated

/-- On a non-null string of `n` non-zero bytes and a terminator, at any address and
whatever lies past the terminator, `optimized_strlen` returns what `strlen` returns, and
that is `n`. -/
theorem optimizedStrlen_eq_strlen (mem : BitVec 32 → BitVec 8) {str : BitVec 32}
    (hs : str ≠ 0) {n : Nat} (hn : ∀ i < n, mem (str + BitVec.ofNat 32 i) ≠ 0)
    (h0 : mem (str + BitVec.ofNat 32 n) = 0) {fuel : Nat} (hf : n < fuel) :
    optimizedStrlen mem str fuel = strlen mem str fuel 0 ∧
      strlen mem str fuel 0 = some (BitVec.ofNat 32 n) := by
  have hb : ∀ k, k ≤ n → n < k + fuel →
      (byteLoop mem fuel (str + BitVec.ofNat 32 k)).map (· - str) = some (BitVec.ofNat 32 n) :=
    fun k h1 h2 => by rw [byteLoop_spec hn h0 fuel k h1 h2, Option.map_some', offset_ofNat]
  have hlen : strlen mem str fuel 0 = some (BitVec.ofNat 32 n) := by
    rw [strlen_eq_byteLoop]
    exact hb 0 (Nat.zero_le n) (by omega)
  refine ⟨?_, hlen⟩
  have hstr : str + BitVec.ofNat 32 (4 * 0) = str := BitVec.add_zero str
  rw [hlen, optimizedStrlen, if_neg hs]
  split_ifs
  · -- word-aligned: the word loop, then at most the byte loop from the terminator
    rcases wordLoop_spec hn h0 fuel 0 (Nat.zero_le n) (by omega) with h | h <;>
      rw [hstr] at h <;> rw [h]
    exact hb n le_rfl (by omega)
  · simpa only [BitVec.add_zero] using hb 0 (Nat.zero_le n) (by omega)

/-- Seven `'A'`s at `0x1000`, their terminator at `0x1007`, then `0x55`s. -/
def sevenAs (a : BitVec 32) : BitVec 8 :=
  if a.toNat < 0x1007 then 0x41 else if a.toNat = 0x1007 then 0 else 0x55

/-- The word-aligned string of `sevenAs`, whose terminator sits in the last lane of its
second word. -/
theorem sevenAs_optimizedStrlen :
    ((0x1000 : BitVec 32) ≠ 0 ∧ (∀ i < 7, sevenAs (0x1000 + BitVec.ofNat 32 i) ≠ 0) ∧
      sevenAs (0x1000 + BitVec.ofNat 32 7) = 0 ∧ 7 < 8) ∧
    optimizedStrlen sevenAs 0x1000 8 = strlen sevenAs 0x1000 8 0 ∧
      strlen sevenAs 0x1000 8 0 = some (BitVec.ofNat 32 7) :=
  ⟨⟨by decide, by decide, by decide, by decide⟩,
    optimizedStrlen_eq_strlen sevenAs (by decide) (by decide) (by decide) (by decide)⟩

end MiniKernel.Strlen
