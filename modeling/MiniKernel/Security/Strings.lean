import MiniKernel.Bitmap
import MiniKernel.Shell.Command
import Mathlib.Data.Nat.Bitwise

/-! The string and buffer routines of `security.c`: the djb2 password hash, the
constant-time comparison, the bounded copies `security_safe_strcpy` and
`security_safe_strcat`, the input validators and the address checks. A `const char *` is the
list of cells from the pointer on, as in the model of `shell.c`: the string ends at the first
`'\x00'` cell or at the end of the list. A destination buffer is a C array `Nat → Char`, and
`NULL` is `none`. A cell holds one byte, which `int c = *str` reads as a signed `char`.

* `securityConstantTimeCompare_iff`: the comparison accepts exactly equal prefixes;
* `validateString_iff`: each validator accepts exactly a terminated string within its bound
  whose characters all lie in its class, non-empty where the validator asks for it;
* `securitySafeStrcpy_spec`, `securitySafeStrcat_spec`: the copies write only up to the
  terminator they place below `dest_size`, and keep as much of the source as fits. -/

namespace MiniKernel.Security

open MiniKernel.Shell (cStr cStr_cons)

def maxUsernameLength : Nat := 32
def maxPasswordLength : Nat := 64
def maxInputLength : Nat := 256
def maxPathLength : Nat := 256
def maxCommandLength : Nat := 128
def maxFileNameLength : Nat := 64

/-- `int c = *str` of a `char` cell: `char` is signed on the i386 target. -/
def signedChar (c : Char) : Int := if c.toNat < 128 then c.toNat else c.toNat - 256

/-- The loop of `simple_hash`: `hash = ((hash << 5) + hash) + c` until the terminator. -/
def hashLoop (hash : BitVec 32) : List Char → BitVec 32
  | [] => hash
  | c :: cs =>
    if c = '\x00' then hash else hashLoop ((hash <<< 5) + hash + BitVec.ofInt 32 (signedChar c)) cs

/-- `simple_hash (str)`: djb2 from 5381 in `uint32_t`. -/
def simpleHash (str : List Char) : BitVec 32 := hashLoop 5381 str

/-- `security_hash_password (password)`. -/
def securityHashPassword : Option (List Char) → BitVec 32
  | none => 0
  | some password => simpleHash password

/-- `security_constant_time_compare (a, b, length)`: `result |= a[i] ^ b[i]` over the first
`length` bytes, whatever they hold. -/
def securityConstantTimeCompare (a b : Option (Nat → BitVec 8)) (length : Nat) : Bool :=
  match a, b with
  | some a, some b => decide ((List.range length).foldl (fun r i => r ||| (a i ^^^ b i)) 0 = 0)
  | _, _ => false

theorem or_eq_zero_iff {w : Nat} (x y : BitVec w) : x ||| y = 0 ↔ x = 0 ∧ y = 0 := by
  have hz : ∀ i, (0 : BitVec w).getLsbD i = false := fun _ => BitVec.getLsbD_zero
  constructor
  · intro h
    have hb := fun i => congrArg (BitVec.getLsbD · i) h
    simp only [BitVec.getLsbD_or, hz, Bool.or_eq_false_iff] at hb
    exact ⟨BitVec.eq_of_getLsbD_eq fun i => by rw [(hb i).1, hz],
      BitVec.eq_of_getLsbD_eq fun i => by rw [(hb i).2, hz]⟩
  · rintro ⟨rfl, rfl⟩
    exact BitVec.or_self

theorem xor_eq_zero_iff {w : Nat} (x y : BitVec w) : x ^^^ y = 0 ↔ x = y := by
  have h0 : (0 : BitVec w).toNat = 0 := rfl
  simp only [BitVec.toNat_eq, BitVec.toNat_xor, h0, Nat.xor_eq_zero]

/-- The accumulated `result` is zero exactly when no byte pair so far differs. -/
theorem foldl_or_xor_eq_zero (a b : Nat → BitVec 8) (n : Nat) :
    (List.range n).foldl (fun r i => r ||| (a i ^^^ b i)) 0 = 0 ↔ ∀ i < n, a i = b i := by
  induction n with
  | zero => simp
  | succ n ih =>
    rw [List.range_succ, List.foldl_append, List.foldl_cons, List.foldl_nil, or_eq_zero_iff, ih,
      xor_eq_zero_iff]
    constructor
    · rintro ⟨h, hn⟩ i hi
      rcases Nat.lt_succ_iff_lt_or_eq.1 hi with hi | rfl
      · exact h i hi
      · exact hn
    · intro h
      exact ⟨fun i hi => h i (Nat.lt_succ_of_lt hi), h n (Nat.lt_succ_self n)⟩

theorem securityConstantTimeCompare_iff (a b : Nat → BitVec 8) (length : Nat) :
    securityConstantTimeCompare (some a) (some b) length = true ↔ ∀ i < length, a i = b i := by
  rw [securityConstantTimeCompare, decide_eq_true_iff, foldl_or_xor_eq_zero]

/-- `security_zero_memory (ptr, size)` on the byte memory `mem`; `ptr = 0` is `NULL`. -/
def securityZeroMemory (mem : Nat → BitVec 8) (ptr size : Nat) : Nat → BitVec 8 :=
  if ptr = 0 ∨ size = 0 then mem
  else (List.range size).foldl (fun m i => setAt m (ptr + i) 0) mem

/-! ## Bounded copies -/

@[simp] theorem cStr_nil : cStr [] = [] := rfl

theorem cStr_cStr (l : List Char) : cStr (cStr l) = cStr l := by
  simp [cStr, List.takeWhile_takeWhile]

@[simp] theorem cStr_cons_zero (cs : List Char) : cStr ('\x00' :: cs) = [] := by
  simp [cStr]


/-- The copy loop of `security_safe_strcpy` and `security_safe_strcat`: `dest[base + i] =
src[i]` while `src[i]` is not the terminator, for at most `n` more characters. Returns the
final `i`. -/
def copyLoop (src : List Char) (base : Nat) : Nat → Nat → (Nat → Char) → Nat × (Nat → Char)
  | 0, i, dest => (i, dest)
  | n + 1, i, dest =>
    if src.getD i '\x00' ≠ '\x00' then copyLoop src base n (i + 1) (setAt dest (base + i) (src.getD i '\x00'))
    else (i, dest)

/-- `security_safe_strcpy (dest, src, dest_size)`: the count copied and the buffer after. -/
def securitySafeStrcpy (dest : Option (Nat → Char)) (src : Option (List Char)) (destSize : Nat) :
    Nat × Option (Nat → Char) :=
  match dest, src with
  | some d, some s =>
    if destSize = 0 then (0, dest)
    else
      let (i, d) := copyLoop s 0 (destSize - 1) 0 d
      (i, some (setAt d i '\x00'))
  | _, _ => (0, dest)

/-- `while (dest_len < dest_size && dest[dest_len] != '\0') dest_len++;` from `len`, for at
most `n` more cells. -/
def scanLen (dest : Nat → Char) (len : Nat) : Nat → Nat
  | 0 => len
  | n + 1 => if dest len ≠ '\x00' then scanLen dest (len + 1) n else len

/-- `security_safe_strcat (dest, src, dest_size)`: the new length, `0` when `dest` holds no
terminator within `dest_size`, and the buffer after. -/
def securitySafeStrcat (dest : Option (Nat → Char)) (src : Option (List Char)) (destSize : Nat) :
    Nat × Option (Nat → Char) :=
  match dest, src with
  | some d, some s =>
    if destSize = 0 then (0, dest)
    else
      let destLen := scanLen d 0 destSize
      if destLen ≥ destSize then (0, dest)
      else
        let (i, d) := copyLoop s destLen (destSize - 1 - destLen) 0 d
        (destLen + i, some (setAt d (destLen + i) '\x00'))
  | _, _ => (0, dest)

/-- The C string a buffer of `n` cells holds: its cells before the first terminator. -/
def bufStr (dest : Nat → Char) (n : Nat) : List Char := cStr ((List.range n).map dest)

theorem mem_cStr_ne : ∀ {s : List Char} {c : Char}, c ∈ cStr s → c ≠ '\x00'
  | [], _, h => absurd h (List.not_mem_nil _)
  | c :: cs, d, h => by
    by_cases h0 : c = '\x00'
    · subst h0; rw [cStr_cons_zero] at h; exact absurd h (List.not_mem_nil _)
    · rw [cStr_cons h0, List.mem_cons] at h
      rcases h with rfl | h
      · exact h0
      · exact mem_cStr_ne h

/-- Below its length a string reads as its own characters, none of them the terminator. -/
theorem getD_of_lt_cStr : ∀ {s : List Char} {i : Nat}, i < (cStr s).length →
    s.getD i '\x00' = (cStr s).getD i '\x00' ∧ (cStr s).getD i '\x00' ≠ '\x00'
  | [], _, h => absurd h (Nat.not_lt_zero _)
  | c :: cs, i, h => by
    by_cases h0 : c = '\x00'
    · subst h0; rw [cStr_cons_zero] at h; exact absurd h (Nat.not_lt_zero _)
    · rw [cStr_cons h0] at h ⊢
      cases i with
      | zero => exact ⟨rfl, h0⟩
      | succ i => exact getD_of_lt_cStr (s := cs) (Nat.lt_of_succ_lt_succ h)

/-- At its length a string reads the terminator. -/
theorem getD_length_cStr : ∀ s : List Char, s.getD (cStr s).length '\x00' = '\x00'
  | [] => rfl
  | c :: cs => by
    by_cases h0 : c = '\x00'
    · subst h0; rfl
    · rw [cStr_cons h0, List.length_cons]
      exact getD_length_cStr cs

/-- The copy loop writes the characters of `src` from `i` on at `base + i` on, as many as
the string has left and at most `n`, and leaves every other cell. -/
theorem copyLoop_spec (src : List Char) (base : Nat) : ∀ (n i : Nat) (dest : Nat → Char),
    i ≤ (cStr src).length →
    copyLoop src base n i dest =
      (i + min n ((cStr src).length - i), fun j =>
        if base + i ≤ j ∧ j < base + i + min n ((cStr src).length - i) then
          (cStr src).getD (j - base) '\x00' else dest j)
  | 0, i, dest, _ => by
    simp only [copyLoop, Nat.zero_min, Nat.add_zero]
    congr 1
    funext j
    rw [if_neg (by omega)]
  | n + 1, i, dest, hi => by
    rw [copyLoop]
    rcases Nat.lt_or_ge i (cStr src).length with hlt | hge
    · obtain ⟨hget, hne⟩ := getD_of_lt_cStr hlt
      rw [if_pos (by rw [hget]; exact hne), copyLoop_spec src base n (i + 1) _ hlt]
      refine Prod.ext (by dsimp only; omega) (funext fun j => ?_)
      dsimp only
      rw [setAt]
      by_cases hj : j = base + i
      · subst hj
        rw [if_neg (by omega), if_pos rfl, if_pos (by omega), hget, Nat.add_sub_cancel_left]
      · rw [if_neg hj]
        split_ifs <;> first | rfl | omega
    · obtain rfl : i = (cStr src).length := by omega
      rw [if_neg (by rw [getD_length_cStr]; exact not_not.2 rfl)]
      simp only [Nat.sub_self, Nat.min_zero, Nat.add_zero]
      congr 1
      funext j
      rw [if_neg (by omega)]

theorem getD_map_range (d : Nat → Char) {n j : Nat} (h : j < n) :
    ((List.range n).map d).getD j '\x00' = d j := by
  rw [List.getD_eq_getElem?_getD, List.getElem?_map, List.getElem?_range h]
  rfl

theorem bufStr_succ (d : Nat → Char) (n : Nat) :
    bufStr d (n + 1) = cStr (d 0 :: (List.range n).map fun j => d (j + 1)) := by
  rw [bufStr, List.range_succ_eq_map, List.map_cons, List.map_map]
  rfl

/-- A buffer whose first cells spell `w`, none of them the terminator, with a terminator
right after and within `n` cells, holds `w`. -/
theorem bufStr_eq : ∀ (w : List Char) (d : Nat → Char) (n : Nat), w.length < n →
    (∀ j < w.length, d j = w.getD j '\x00') → d w.length = '\x00' →
      (∀ c ∈ w, c ≠ '\x00') → bufStr d n = w
  | _, _, 0, hl, _, _, _ => absurd hl (Nat.not_lt_zero _)
  | [], d, n + 1, _, _, hz, _ => by rw [bufStr_succ, show d 0 = '\x00' from hz, cStr_cons_zero]
  | c :: w, d, n + 1, hl, hd, hz, hc => by
    rw [bufStr_succ, hd 0 (Nat.succ_pos _), List.getD_cons_zero,
      cStr_cons (hc c (List.mem_cons_self _ _))]
    exact congrArg _ (bufStr_eq w (fun j => d (j + 1)) n (Nat.lt_of_succ_lt_succ hl)
      (fun j hj => hd (j + 1) (Nat.succ_lt_succ hj)) hz
      (fun c' h => hc c' (List.mem_cons_of_mem _ h)))

theorem length_bufStr_le (d : Nat → Char) (n : Nat) : (bufStr d n).length ≤ n := by
  have :=
    (List.takeWhile_prefix (fun c => decide (c ≠ '\x00')) (l := (List.range n).map d)).length_le
  rwa [List.length_map, List.length_range] at this

/-- Below its length a buffer's string reads as the buffer's own cells. -/
theorem getD_bufStr {d : Nat → Char} {n j : Nat} (h : j < (bufStr d n).length) :
    (bufStr d n).getD j '\x00' = d j ∧ d j ≠ '\x00' := by
  have hn := Nat.lt_of_lt_of_le h (length_bufStr_le d n)
  obtain ⟨hget, hne⟩ := getD_of_lt_cStr (s := (List.range n).map d) h
  rw [getD_map_range d hn] at hget
  exact ⟨hget.symm, hget ▸ hne⟩

/-- A buffer's string that stops short of `n` cells stops at a terminator. -/
theorem bufStr_terminated {d : Nat → Char} {n : Nat} (h : (bufStr d n).length < n) :
    d (bufStr d n).length = '\x00' := by
  have := getD_length_cStr ((List.range n).map d)
  rwa [show cStr ((List.range n).map d) = bufStr d n from rfl, getD_map_range d h] at this

/-- `dest_len` of `security_safe_strcat` is the length of the string the buffer holds. -/
theorem scanLen_eq (d : Nat → Char) : ∀ (m i : Nat),
    scanLen d i m = i + (cStr ((List.range m).map fun j => d (i + j))).length
  | 0, i => rfl
  | m + 1, i => by
    have hsh : ((List.range m).map Nat.succ).map (fun j => d (i + j)) =
        (List.range m).map fun j => d (i + 1 + j) := by
      rw [List.map_map]
      exact List.map_congr_left fun j _ => congrArg d (by omega)
    rw [scanLen, List.range_succ_eq_map, List.map_cons, hsh]
    simp only [Nat.add_zero]
    by_cases h0 : d i = '\x00'
    · rw [if_neg (not_not.2 h0), h0, cStr_cons_zero]
      rfl
    · rw [if_pos h0, cStr_cons h0, List.length_cons, scanLen_eq d m (i + 1)]
      omega

theorem scanLen_bufStr (d : Nat → Char) (n : Nat) : scanLen d 0 n = (bufStr d n).length := by
  rw [scanLen_eq, Nat.zero_add]
  simp only [Nat.zero_add]
  rfl



theorem getD_take_of_lt (l : List Char) {k j : Nat} (h : j < k) :
    (l.take k).getD j '\x00' = l.getD j '\x00' := by
  rw [List.getD_eq_getElem?_getD, List.getElem?_take_of_lt h, ← List.getD_eq_getElem?_getD]

/-- What `security_safe_strcpy` leaves in a buffer of `dest_size > 0` cells: the source cut to
`dest_size - 1` characters and terminated, with every cell after the terminator untouched; it
returns the number of characters copied. -/
theorem securitySafeStrcpy_spec (d : Nat → Char) (s : List Char) {n : Nat} (hn : 0 < n) :
    ∃ d', securitySafeStrcpy (some d) (some s) n = (min (cStr s).length (n - 1), some d') ∧
      bufStr d' n = (cStr s).take (n - 1) ∧
        ∀ j, min (cStr s).length (n - 1) < j → d' j = d j := by
  have hc := copyLoop_spec s 0 (n - 1) 0 d (Nat.zero_le _)
  simp only [Nat.zero_add, Nat.sub_zero] at hc
  refine ⟨_, by rw [securitySafeStrcpy, if_neg (by omega), hc, Nat.min_comm], ?_,
    fun j hj => ?_⟩
  · apply bufStr_eq
    · rw [List.length_take]; omega
    · intro j hj
      rw [List.length_take] at hj
      rw [setAt_ne _ _ (by omega), if_pos ⟨Nat.zero_le _, by omega⟩,
        getD_take_of_lt _ (by omega)]
    · rw [List.length_take, Nat.min_comm, setAt_same]
    · exact fun c hc => mem_cStr_ne (List.mem_of_mem_take hc)
  · rw [setAt_ne _ _ (by omega), if_neg (by omega)]


theorem securitySafeStrcpy_hello :
    ∃ d', securitySafeStrcpy (some fun _ => 'x') (some "hello".toList) 4 = (3, some d') ∧
      bufStr d' 4 = "hel".toList ∧ ∀ j, 3 < j → d' j = 'x' :=
  securitySafeStrcpy_spec (fun _ => 'x') "hello".toList (by decide)

/-- What `security_safe_strcat` does to a buffer of `dest_size` cells that holds a terminated
string: it appends the source, cut so that the whole keeps `dest_size - 1` characters, and
terminates it; it returns the new length and leaves every cell after the terminator. -/
theorem securitySafeStrcat_spec (d : Nat → Char) (s : List Char) {n : Nat}
    (hw : (bufStr d n).length < n) :
    ∃ d', securitySafeStrcat (some d) (some s) n =
        (min ((bufStr d n).length + (cStr s).length) (n - 1), some d') ∧
      bufStr d' n = (bufStr d n ++ cStr s).take (n - 1) ∧
        ∀ j, min ((bufStr d n).length + (cStr s).length) (n - 1) < j → d' j = d j := by
  have hc := copyLoop_spec s (bufStr d n).length (n - 1 - (bufStr d n).length) 0 d (Nat.zero_le _)
  simp only [Nat.zero_add, Nat.add_zero, Nat.sub_zero] at hc
  have hm : (bufStr d n).length + min (n - 1 - (bufStr d n).length) (cStr s).length =
      min ((bufStr d n).length + (cStr s).length) (n - 1) := by omega
  rw [securitySafeStrcat, if_neg (by omega), scanLen_bufStr, if_neg (by omega), hc]
  refine ⟨_, Prod.ext hm rfl, ?_, fun j hj => ?_⟩
  · apply bufStr_eq
    · rw [List.length_take, List.length_append]; omega
    · intro j hj
      rw [List.length_take, List.length_append] at hj
      rw [setAt_ne _ _ (by omega), getD_take_of_lt _ (by omega)]
      by_cases hjw : j < (bufStr d n).length
      · rw [if_neg (by omega), List.getD_append _ _ _ _ hjw, (getD_bufStr hjw).1]
      · rw [if_pos ⟨by omega, by omega⟩, List.getD_append_right _ _ _ _ (by omega)]
    · rw [List.length_take, List.length_append, show min (n - 1) ((bufStr d n).length +
        (cStr s).length) = _ from (Nat.min_comm _ _).trans hm.symm, setAt_same]
    · intro c hc
      rcases List.mem_append.1 (List.mem_of_mem_take hc) with hc | hc <;> exact mem_cStr_ne hc
  · rw [setAt_ne _ _ (by omega), if_neg (by omega)]

theorem securitySafeStrcat_ab :
    ∃ d', securitySafeStrcat (some fun j => "ab".toList.getD j '\x00') (some "cdef".toList) 6 =
        (5, some d') ∧ bufStr d' 6 = "abcde".toList ∧
      ∀ j, 5 < j → d' j = "ab".toList.getD j '\x00' :=
  securitySafeStrcat_spec (fun j => "ab".toList.getD j '\x00') "cdef".toList (by decide)

/-- On a buffer with no terminator in its `dest_size` cells `security_safe_strcat` writes
nothing and returns `0`. -/
theorem securitySafeStrcat_unterminated (d : Nat → Char) (s : List Char) {n : Nat}
    (hw : (bufStr d n).length = n) : securitySafeStrcat (some d) (some s) n = (0, some d) := by
  rw [securitySafeStrcat, scanLen_bufStr, hw]
  simp only [ge_iff_le, le_refl, if_true, ite_self]

/-! ## Validators -/

/-- The scan the validators share: `while (*ptr && length < max_length)` each character must
pass `allowed`, then `if (*ptr != '\0') return false;`. Returns the length on success. -/
def validateScan (allowed : Char → Bool) (maxLength : Nat) : Nat → List Char → Option Nat
  | length, [] => some length
  | length, c :: cs =>
    if c = '\x00' then some length
    else if length < maxLength then
      if allowed c then validateScan allowed maxLength (length + 1) cs else none
    else none

/-- A validator of `security.c` on a possibly `NULL` string; `nonEmpty` is the final
`return length > 0` of the filename, path and command validators. -/
def validateString (allowed : Char → Bool) (maxLength : Nat) (nonEmpty : Bool) :
    Option (List Char) → Bool
  | none => false
  | some s =>
    match validateScan allowed maxLength 0 s with
    | none => false
    | some length => !nonEmpty || decide (0 < length)

/-- `c < 32 || c > 126`, except newline, carriage return and tab, is rejected. -/
def isPrintable (c : Char) : Bool :=
  !(decide (signedChar c < 32 ∨ 126 < signedChar c) && c ≠ '\n' && c ≠ '\r' && c ≠ '\t')

/-- Letters, digits, `.`, `_` and `-`. -/
def isFilenameChar (c : Char) : Bool :=
  ('a' ≤ c && c ≤ 'z') || ('A' ≤ c && c ≤ 'Z') || ('0' ≤ c && c ≤ '9') ||
    c = '.' || c = '_' || c = '-'

/-- Letters, digits, `.`, `_`, `-` and `/`. -/
def isPathChar (c : Char) : Bool :=
  ('a' ≤ c && c ≤ 'z') || ('A' ≤ c && c ≤ 'Z') || ('0' ≤ c && c ≤ '9') ||
    c = '.' || c = '_' || c = '-' || c = '/'

/-- Letters, digits, space, `-` and `_`. -/
def isCommandChar (c : Char) : Bool :=
  ('a' ≤ c && c ≤ 'z') || ('A' ≤ c && c ≤ 'Z') || ('0' ≤ c && c ≤ '9') ||
    c = ' ' || c = '-' || c = '_'

/-- `security_validate_input (input, max_length)`. -/
def securityValidateInput (input : Option (List Char)) (maxLength : Nat) : Bool :=
  validateString isPrintable maxLength false input

/-- `security_validate_filename (filename)`. -/
def securityValidateFilename (filename : Option (List Char)) : Bool :=
  validateString isFilenameChar maxFileNameLength true filename

/-- `security_validate_path (path)`. -/
def securityValidatePath (path : Option (List Char)) : Bool :=
  validateString isPathChar maxPathLength true path

/-- `security_validate_command (command)`. -/
def securityValidateCommand (command : Option (List Char)) : Bool :=
  validateString isCommandChar maxCommandLength true command

/-- `security_is_printable_string (str, max_length)`: the loop of `security_validate_input`,
ending in `return *ptr == '\0'`. -/
def securityIsPrintableString (str : Option (List Char)) (maxLength : Nat) : Bool :=
  validateString isPrintable maxLength false str

theorem validateScan_eq_some_iff (allowed : Char → Bool) (maxLength : Nat) :
    ∀ (s : List Char) (length m : Nat), length ≤ maxLength →
      (validateScan allowed maxLength length s = some m ↔
        m = length + (cStr s).length ∧ length + (cStr s).length ≤ maxLength ∧
          ∀ c ∈ cStr s, allowed c = true)
  | [], length, m, hl => by
    simp only [validateScan, cStr_nil, List.length_nil, Nat.add_zero, Option.some.injEq,
      List.not_mem_nil, false_imp_iff, implies_true, and_true, hl, eq_comm]
  | c :: cs, length, m, hl => by
    by_cases h0 : c = '\x00'
    · subst h0
      simp only [validateScan, if_true, cStr_cons_zero, List.length_nil, Nat.add_zero,
        Option.some.injEq, List.not_mem_nil, false_imp_iff, implies_true, and_true, hl, eq_comm]
    rw [validateScan, if_neg h0, cStr_cons h0]
    by_cases hlt : length < maxLength
    · rw [if_pos hlt]
      by_cases ha : allowed c = true
      · rw [if_pos ha, validateScan_eq_some_iff allowed maxLength cs (length + 1) m hlt]
        simp only [List.length_cons, List.mem_cons, forall_eq_or_imp, ha, true_and]
        constructor <;> rintro ⟨h1, h2, h3⟩ <;> exact ⟨by omega, by omega, h3⟩
      · simp only [ha, if_false, List.mem_cons, forall_eq_or_imp, false_and, and_false,
          reduceCtorEq]
    · rw [if_neg hlt]
      simp only [List.length_cons, reduceCtorEq, false_iff]
      omega

/-- What every validator of `security.c` accepts: a string whose terminator comes within
`max_length` characters, whose characters all pass the class, and, for the validators that
ask it, that is not empty. -/
theorem validateString_iff (allowed : Char → Bool) (maxLength : Nat) (nonEmpty : Bool)
    (s : List Char) :
    validateString allowed maxLength nonEmpty (some s) = true ↔
      (cStr s).length ≤ maxLength ∧ (∀ c ∈ cStr s, allowed c = true) ∧
        (nonEmpty = true → cStr s ≠ []) := by
  rw [validateString]
  rcases h : validateScan allowed maxLength 0 s with _ | m
  · have := fun m => (validateScan_eq_some_iff allowed maxLength s 0 m (Nat.zero_le _)).not.1
      (by rw [h]; exact Option.noConfusion)
    simp only [Bool.false_eq_true, false_iff, not_and]
    intro hl ha
    exact absurd ⟨rfl, by omega, ha⟩ (this _)
  · obtain ⟨rfl, hl, ha⟩ :=
      (validateScan_eq_some_iff allowed maxLength s 0 m (Nat.zero_le _)).1 h
    rw [Nat.zero_add] at hl
    cases nonEmpty
    · exact iff_of_true rfl ⟨hl, ha, nofun⟩
    · simp only [Bool.not_true, Bool.false_or, decide_eq_true_eq, Nat.zero_add, List.length_pos]
      exact ⟨fun h => ⟨hl, ha, fun _ => h⟩, fun h => h.2.2 trivial⟩

/-! ## Address checks -/

/-- `security_check_buffer_bounds (buffer, size, ptr)` on 32-bit addresses. -/
def securityCheckBufferBounds (buffer size ptr : BitVec 32) : Bool :=
  if buffer = 0 ∨ ptr = 0 then false else buffer ≤ ptr && ptr < buffer + size

/-- `security_check_memory_access (address, size, access_type)`; `access_type` is never read. -/
def securityCheckMemoryAccess (address size : BitVec 32) : Bool :=
  if address = 0 ∨ size = 0 then false
  else if address + size < address then false
  else if address < 0x100000 then false
  else true

/-- `security_validate_kernel_pointer (ptr)`. -/
def securityValidateKernelPointer (ptr : BitVec 32) : Bool :=
  if ptr = 0 then false
  else if ptr < 0x100000 ∨ ptr ≥ 0x1000000 then false
  else true

end MiniKernel.Security
