import MiniKernel.Console.Vga

/-! The numbers the kernel prints. `kernel_main_c` and `handle_error` print a `uint32_t`
as eight hexadecimal digits, most significant first (`hexDigits`); `handle_error` prints
its line number in decimal, through the digits its `do`-`while` loop stores in
`char line_str[16]` (`lineStr`), read back from the last. The characters are read back
as numerals (`readNumeral`): `printHex_shows` puts the hexadecimal print on the screen of
`kernel.c` and reads `x` back from it, and `handleError_lineDigits` reads the line number
back and bounds the digits stored by 10, so `line_str` never overflows. -/

namespace MiniKernel.Console

/-- `nibble < 10 ? '0' + nibble : 'A' + nibble - 10`. -/
def hexDigit (nibble : BitVec 8) : BitVec 8 :=
  if nibble < 10 then 0x30 + nibble else 0x41 + nibble - 10

/-- The characters of `for (int i = 7; i >= 0; --i)` over
`uint8_t nibble = (x >> (i * 4)) & 0xF`. -/
def hexDigits (x : BitVec 32) : List (BitVec 8) :=
  (List.range 8).reverse.map fun i => hexDigit (((x >>> (i * 4)) &&& 0xF).setWidth 8)

/-- The digits `do { line_str[i++] = '0' + (line_num % 10); line_num /= 10; }
while (line_num > 0);` stores, first to last. -/
def lineStr (lineNum : Nat) : List (BitVec 8) :=
  BitVec.ofNat 8 (0x30 + lineNum % 10) :: if lineNum / 10 > 0 then lineStr (lineNum / 10) else []
termination_by lineNum
decreasing_by omega

/-! ## Reading numerals -/

/-- The value of a digit `'0'`..`'9'`, `'A'`..`'F'`. -/
def digitValue (c : BitVec 8) : Nat := if c.toNat < 0x3A then c.toNat - 0x30 else c.toNat - 0x37

/-- A numeral in base `b`, most significant digit first. -/
def readNumeral (b : Nat) (cs : List (BitVec 8)) : Nat :=
  cs.foldl (fun n c => n * b + digitValue c) 0

/-- `'0'`..`'9'` or `'A'`..`'F'`. -/
def IsHexDigit (c : BitVec 8) : Prop :=
  (0x30 ≤ c.toNat ∧ c.toNat ≤ 0x39) ∨ (0x41 ≤ c.toNat ∧ c.toNat ≤ 0x46)

theorem foldl_numeral (b : Nat) (cs : List (BitVec 8)) (n : Nat) :
    cs.foldl (fun n c => n * b + digitValue c) n = n * b ^ cs.length + readNumeral b cs := by
  induction cs generalizing n with
  | nil => simp [readNumeral]
  | cons c cs ih =>
    simp only [List.foldl_cons, readNumeral, List.length_cons, ih (n * b + digitValue c),
      ih (0 * b + digitValue c)]
    rw [Nat.pow_succ, Nat.zero_mul, Nat.zero_add, Nat.add_mul]
    ac_rfl

theorem readNumeral_cons (b : Nat) (c : BitVec 8) (cs : List (BitVec 8)) :
    readNumeral b (c :: cs) = digitValue c * b ^ cs.length + readNumeral b cs := by
  rw [readNumeral, List.foldl_cons, foldl_numeral, Nat.zero_mul, Nat.zero_add]

theorem readNumeral_concat (b : Nat) (cs : List (BitVec 8)) (c : BitVec 8) :
    readNumeral b (cs ++ [c]) = readNumeral b cs * b + digitValue c := by
  rw [readNumeral, List.foldl_append]; rfl

/-! ## Hexadecimal -/

theorem toNat_nibble (x : BitVec 32) (i : Nat) :
    (((x >>> (i * 4)) &&& 0xF).setWidth 8).toNat = x.toNat / 16 ^ i % 16 := by
  have h16 : (2 : Nat) ^ (i * 4) = 16 ^ i := by rw [Nat.mul_comm, Nat.pow_mul]
  have h : x.toNat >>> (i * 4) &&& 15 = x.toNat >>> (i * 4) % 16 :=
    Nat.and_pow_two_sub_one_eq_mod _ 4
  simp only [BitVec.toNat_setWidth, BitVec.toNat_and, BitVec.toNat_ushiftRight]
  rw [show (0xF : BitVec 32).toNat = 15 from rfl, h, Nat.shiftRight_eq_div_pow, h16]
  omega

theorem hexDigit_spec {n : BitVec 8} (h : n.toNat < 16) :
    IsHexDigit (hexDigit n) ∧ digitValue (hexDigit n) = n.toNat := by
  unfold hexDigit IsHexDigit digitValue
  split_ifs with h10 h1 h2
  all_goals simp only [bv_toNat] at *
  all_goals omega

/-- The last `k` of the eight digits: hexadecimal, and the numeral of `x % 16 ^ k`. -/
theorem lowDigits_value (x : BitVec 32) (k : Nat) :
    let ds := (List.range k).reverse.map
      fun i => hexDigit (((x >>> (i * 4)) &&& 0xF).setWidth 8)
    (∀ c ∈ ds, IsHexDigit c) ∧ readNumeral 16 ds = x.toNat % 16 ^ k := by
  induction k with
  | zero => exact ⟨fun c h => by simp at h, (Nat.mod_one _).symm⟩
  | succ k ih =>
    obtain ⟨hd, hv⟩ := @hexDigit_spec (((x >>> (k * 4)) &&& 0xF).setWidth 8)
      (by rw [toNat_nibble]; omega)
    simp only [List.range_succ, List.reverse_append, List.reverse_cons, List.reverse_nil,
      List.nil_append, List.cons_append, List.map_cons, List.forall_mem_cons]
    refine ⟨⟨hd, ih.1⟩, ?_⟩
    rw [readNumeral_cons, ih.2, hv, toNat_nibble, List.length_map, List.length_reverse,
      List.length_range, Nat.mod_pow_succ]
    ac_rfl

/-- The eight digits are hexadecimal, and read as a numeral they give `x`. -/
theorem hexDigits_value (x : BitVec 32) :
    (∀ c ∈ hexDigits x, IsHexDigit c) ∧ readNumeral 16 (hexDigits x) = x.toNat := by
  obtain ⟨hd, hv⟩ := lowDigits_value x 8
  exact ⟨hd, hv.trans (Nat.mod_eq_of_lt x.isLt)⟩

theorem length_hexDigits (x : BitVec 32) : (hexDigits x).length = 8 := by
  simp [hexDigits]

theorem plain_of_isHexDigit {c : BitVec 8} (h : IsHexDigit c) : Plain c := by
  unfold IsHexDigit at h
  refine ⟨fun e => ?_, fun e => ?_, fun e => ?_⟩ <;> (subst e; revert h; decide)

/-- The hexadecimal print of `kernel_main_c`, at a cursor of `kernel.c` with room for the
eight digits on its row: the eight cells from the cursor show the digits, which read as
a hexadecimal numeral give `x`; the cursor moves on by eight and no other cell changes. -/
theorem printHex_shows (x : BitVec 32) {s : Vga} (hr : s.row < vgaHeight)
    (hc : s.col + 8 < vgaWidth) :
    let s' := (hexDigits x).foldl vgaPutchar s
    s'.row = s.row ∧ s'.col = s.col + 8 ∧
      (∀ k < 8, s'.buffer (s.row * vgaWidth + s.col + k) = vgaCell ((hexDigits x).getD k 0)) ∧
      (∀ j, ¬(s.row * vgaWidth + s.col ≤ j ∧ j < s.row * vgaWidth + s.col + 8) →
        s'.buffer j = s.buffer j) ∧
      (∀ c ∈ hexDigits x, IsHexDigit c) ∧ readNumeral 16 (hexDigits x) = x.toNat := by
  obtain ⟨hd, hv⟩ := hexDigits_value x
  have h := foldl_vgaPutchar_plain hr (fun c hc => plain_of_isHexDigit (hd c hc))
    (by rw [length_hexDigits]; exact hc)
  rw [length_hexDigits] at h
  rw [h]
  refine ⟨rfl, rfl, fun k hk => ?_, fun j hj => if_neg hj, hd, hv⟩
  dsimp only
  rw [if_pos (by omega), Nat.add_sub_cancel_left]

/-- Eight digits printed at column 70 of row 12 of a screen already full of text. -/
theorem printHex_on_full_screen :
    let s : Vga := ⟨fun j => vgaCell (BitVec.ofNat 8 (0x61 + j % 26)), 12, 70⟩
    s.row < vgaHeight ∧ s.col + 8 < vgaWidth ∧
      (let s' := (hexDigits 0xC0FFEE42).foldl vgaPutchar s
      s'.row = s.row ∧ s'.col = s.col + 8 ∧
        (∀ k < 8, s'.buffer (s.row * vgaWidth + s.col + k) =
          vgaCell ((hexDigits 0xC0FFEE42).getD k 0)) ∧
        (∀ j, ¬(s.row * vgaWidth + s.col ≤ j ∧ j < s.row * vgaWidth + s.col + 8) →
          s'.buffer j = s.buffer j) ∧
        (∀ c ∈ hexDigits 0xC0FFEE42, IsHexDigit c) ∧
        readNumeral 16 (hexDigits 0xC0FFEE42) = (0xC0FFEE42 : BitVec 32).toNat) :=
  ⟨by decide, by decide, printHex_shows 0xC0FFEE42 (by decide) (by decide)⟩

/-! ## The line number of `handle_error` -/

/-- A decimal digit `'0'`..`'9'`. -/
def IsDecDigit (c : BitVec 8) : Prop := 0x30 ≤ c.toNat ∧ c.toNat ≤ 0x39

theorem decDigit_spec (n : Nat) :
    IsDecDigit (BitVec.ofNat 8 (0x30 + n % 10)) ∧
      digitValue (BitVec.ofNat 8 (0x30 + n % 10)) = n % 10 := by
  have h : (BitVec.ofNat 8 (0x30 + n % 10)).toNat = 0x30 + n % 10 := by
    rw [BitVec.toNat_ofNat]; omega
  unfold IsDecDigit digitValue
  rw [h, if_pos (by omega)]
  omega

/-- `handle_error` prints `line_str` from its last digit to its first: the digits are
decimal, the first printed is not `'0'` unless the number is, and read as a numeral they
give the line number. -/
theorem lineStr_value (lineNum : Nat) :
    (∀ c ∈ lineStr lineNum, IsDecDigit c) ∧
      ((lineStr lineNum).reverse.head? = some 0x30 → lineNum = 0) ∧
      readNumeral 10 (lineStr lineNum).reverse = lineNum := by
  induction lineNum using Nat.strong_induction_on with
  | _ n ih =>
    obtain ⟨hd, hv⟩ := decDigit_spec n
    rw [lineStr]
    split_ifs with hq
    · obtain ⟨ihd, ihz, ihv⟩ := ih (n / 10) (by omega)
      refine ⟨List.forall_mem_cons.2 ⟨hd, ihd⟩, fun h => ?_, ?_⟩
      · rw [List.reverse_cons, List.head?_append] at h
        cases hr : (lineStr (n / 10)).reverse with
        | nil => rw [lineStr, List.reverse_eq_nil_iff] at hr; cases hr
        | cons a l =>
          rw [hr, List.head?_cons] at h
          rw [hr, List.head?_cons, Option.some.inj h] at ihz
          exact absurd (ihz rfl) (by omega)
      · rw [List.reverse_cons, readNumeral_concat, ihv, hv]
        omega
    · refine ⟨List.forall_mem_singleton.2 hd, fun h => ?_, ?_⟩
      · simp only [List.reverse_cons, List.reverse_nil, List.nil_append, List.head?_cons,
          Option.some.injEq] at h
        have h48 : (0x30 + n % 10) % 2 ^ 8 = 0x30 := by
          rw [← BitVec.toNat_ofNat, h]; rfl
        omega
      · rw [List.reverse_cons, readNumeral_concat, hv]
        simp only [List.reverse_nil, readNumeral, List.foldl_nil]
        omega

/-- A number below `10 ^ (k + 1)` stores at most `k + 1` digits. -/
theorem lineStr_length {lineNum k : Nat} (h : lineNum < 10 ^ (k + 1)) :
    (lineStr lineNum).length ≤ k + 1 := by
  induction k generalizing lineNum with
  | zero =>
    rw [lineStr, if_neg (by omega)]
    rfl
  | succ k ih =>
    rw [lineStr]
    split_ifs
    · have := @ih (lineNum / 10) (by rw [Nat.pow_succ] at h; omega)
      simp only [List.length_cons]
      omega
    · simp

/-- The decimal print of `handle_error`'s `uint32_t` line number: `line_str`, of 16
characters, receives at most 10; they are decimal digits, the first printed is not `'0'`
unless the number is, and read as a numeral they give the line number. -/
theorem handleError_lineDigits (line : BitVec 32) :
    (lineStr line.toNat).length ≤ 10 ∧ (∀ c ∈ lineStr line.toNat, IsDecDigit c) ∧
      ((lineStr line.toNat).reverse.head? = some 0x30 → line = 0) ∧
      readNumeral 10 (lineStr line.toNat).reverse = line.toNat := by
  obtain ⟨hd, hz, hv⟩ := lineStr_value line.toNat
  refine ⟨lineStr_length (lt_of_lt_of_le line.isLt (by decide)), hd, fun h => ?_, hv⟩
  exact BitVec.eq_of_toNat_eq (hz h)

end MiniKernel.Console
