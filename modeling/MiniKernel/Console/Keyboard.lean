import MiniKernel.Shell.Loop

/-! The polled keyboard driver of `io.c`. The 8042 controller is the sequence of bytes its
ports answer to the driver's `inb` calls, in order: the status byte on port `0x64`, then the
data byte on port `0x60` when bit 0 of the status says a key is waiting.

* `readChar_eq`: `read_char ()` is `read_char_timeout (0, NULL)`, whose poll counter starts
  at `0 * 1000 = 0`; it returns `0` at once and never reads the keyboard;
* `readCharTimeout_spec`: on a controller that reports a key after some idle polls,
  `read_char_timeout` returns that key when it comes within `timeout_ms * 1000` polls in
  `uint32_t`, and otherwise times out after exactly that many polls. -/

namespace MiniKernel.Console

open MiniKernel.Shell (errSuccess errIoTimeout isSuspiciousKey ShellUser ReadResult Pass shellPass
  shellPass_clean lineOutcome typedLine)

/-- `ERR_IO_DEVICE_ERROR` of `error_codes.h`. -/
def errIoDeviceError : Int := -11

/-- `read_keyboard_data (&scancode)`: the status byte, then the data byte when a key is waiting;
`none` when the controller's answers run out. -/
def readKeyboardData : List (BitVec 8) → Option (Int × Option (BitVec 8) × List (BitVec 8))
  | [] => none
  | status :: ports =>
    if status &&& 0x01 = 0 then some (errIoDeviceError, none, ports)
    else
      match ports with
      | [] => none
      | data :: ports => some (errSuccess, some data, ports)

/-- How the wait loop of `read_char_timeout` ends. -/
inductive Wait
  | key (scancode : BitVec 8)
  | error (code : Int)
  | timeout

/-- The wait loop of `read_char_timeout`: poll while `timeout_counter > 0`, stop on a key or
on an error other than `ERR_IO_DEVICE_ERROR`. -/
def waitLoop : Nat → List (BitVec 8) → Option (Wait × List (BitVec 8))
  | 0, ports => some (.timeout, ports)
  | n + 1, ports =>
    match readKeyboardData ports with
    | none => none
    | some (result, scancode, ports) =>
      if result = errSuccess then some (.key (scancode.getD 0), ports)
      else if result ≠ errIoDeviceError then some (.error result, ports)
      else waitLoop n ports

/-- Polls that find no key waiting cost one status byte each. -/
theorem waitLoop_idle : ∀ (n : Nat) (idle rest : List (BitVec 8)),
    (∀ s ∈ idle, s &&& 0x01 = 0) →
    waitLoop n (idle ++ rest) =
      if n ≤ idle.length then some (.timeout, idle.drop n ++ rest)
      else waitLoop (n - idle.length) rest
  | 0, idle, rest, _ => by simp [waitLoop]
  | n + 1, [], rest, _ => by simp
  | n + 1, s :: idle, rest, h => by
    rw [List.cons_append, waitLoop, readKeyboardData.eq_def]
    dsimp only
    rw [if_pos (h s (List.mem_cons_self _ _))]
    dsimp only
    rw [if_neg (by decide), if_neg (by decide),
      waitLoop_idle n idle rest fun x hx => h x (List.mem_cons_of_mem _ hx)]
    simp only [List.length_cons, Nat.add_le_add_iff_right, List.drop_succ_cons,
      Nat.add_sub_add_right]

/-- A key of the table: `(scancode & 0x80) ? 0 : c`. -/
def pressed (scancode : BitVec 8) (c : Char) : Char :=
  if scancode &&& 0x80 = 0 then c else '\x00'

/-- The `switch (scancode & 0x7F)` of `read_char_timeout`. -/
def scancodeToAscii (scancode : BitVec 8) : Char :=
  match (scancode &&& 0x7F).toNat with
  | 0x1C => '\n'
  | 0x0E => '\x08'
  | 0x0F => '\t'
  | 0x29 => ' '
  | 0x02 => pressed scancode '1'
  | 0x03 => pressed scancode '2'
  | 0x04 => pressed scancode '3'
  | 0x05 => pressed scancode '4'
  | 0x06 => pressed scancode '5'
  | 0x07 => pressed scancode '6'
  | 0x08 => pressed scancode '7'
  | 0x09 => pressed scancode '8'
  | 0x0A => pressed scancode '9'
  | 0x0B => pressed scancode '0'
  | 0x10 => pressed scancode 'q'
  | 0x11 => pressed scancode 'w'
  | 0x12 => pressed scancode 'e'
  | 0x13 => pressed scancode 'r'
  | 0x14 => pressed scancode 't'
  | 0x15 => pressed scancode 'y'
  | 0x16 => pressed scancode 'u'
  | 0x17 => pressed scancode 'i'
  | 0x18 => pressed scancode 'o'
  | 0x19 => pressed scancode 'p'
  | 0x1E => pressed scancode 'a'
  | 0x1F => pressed scancode 's'
  | 0x20 => pressed scancode 'd'
  | 0x21 => pressed scancode 'f'
  | 0x22 => pressed scancode 'g'
  | 0x23 => pressed scancode 'h'
  | 0x24 => pressed scancode 'j'
  | 0x25 => pressed scancode 'k'
  | 0x26 => pressed scancode 'l'
  | 0x2C => pressed scancode 'z'
  | 0x2D => pressed scancode 'x'
  | 0x2E => pressed scancode 'c'
  | 0x2F => pressed scancode 'v'
  | 0x30 => pressed scancode 'b'
  | 0x31 => pressed scancode 'n'
  | 0x32 => pressed scancode 'm'
  | _ => '\x00'

/-- `read_char_timeout (timeout_ms, &error_code)`: the character and the error code stored,
with what is left of the controller's answers. The counter is `timeout_ms * 1000` in
`uint32_t`. -/
def readCharTimeout (timeoutMs : BitVec 32) (ports : List (BitVec 8)) :
    Option (Char × Int × List (BitVec 8)) :=
  (waitLoop (timeoutMs * 1000).toNat ports).map fun
    | (.key scancode, ports) => (scancodeToAscii scancode, errSuccess, ports)
    | (.error code, ports) => ('\x00', code, ports)
    | (.timeout, ports) => ('\x00', errIoTimeout, ports)

/-- `read_char_timeout (timeout_ms, …)` on a controller that reports no key for `idle` polls and
then a key: the key, when it comes within `timeout_ms * 1000` polls in `uint32_t`; otherwise
`0` and `ERR_IO_TIMEOUT`, after exactly that many polls. -/
theorem readCharTimeout_spec (t : BitVec 32) {idle : List (BitVec 8)}
    (hidle : ∀ s ∈ idle, s &&& 0x01 = 0) {status : BitVec 8} (hs : status &&& 0x01 ≠ 0)
    (data : BitVec 8) (rest : List (BitVec 8)) :
    readCharTimeout t (idle ++ status :: data :: rest) =
      if idle.length < (t * 1000).toNat then some (scancodeToAscii data, errSuccess, rest)
      else some ('\x00', errIoTimeout, idle.drop (t * 1000).toNat ++ status :: data :: rest) := by
  rw [readCharTimeout, waitLoop_idle _ _ _ hidle]
  split_ifs with h1 h2 h2
  · omega
  · rfl
  · obtain ⟨m, hm⟩ : ∃ m, (t * 1000).toNat - idle.length = m + 1 :=
      ⟨_, (Nat.succ_pred_eq_of_pos (by omega)).symm⟩
    rw [hm, waitLoop, readKeyboardData.eq_def]
    dsimp only
    rw [if_neg hs]
    rfl
  · omega

theorem readCharTimeout_second_poll :
    readCharTimeout 1 ([0] ++ 1 :: 0x1E :: []) =
      if [(0 : BitVec 8)].length < ((1 : BitVec 32) * 1000).toNat then
        some (scancodeToAscii 0x1E, errSuccess, [])
      else some ('\x00', errIoTimeout,
        [(0 : BitVec 8)].drop ((1 : BitVec 32) * 1000).toNat ++ 1 :: 0x1E :: []) :=
  readCharTimeout_spec 1 (by decide) (by decide) 0x1E []

/-! ## What the table can return -/

/-- No entry of the table is a key `run_shell` rejects a line for. -/
theorem scancodeToAscii_not_suspicious :
    ∀ b : BitVec 8, isSuspiciousKey (scancodeToAscii b) = false := by
  intro b
  unfold scancodeToAscii pressed
  split <;> (try split) <;> rfl

/-- Setting bit 7 keeps the key number the table is indexed by, and marks a release. -/
theorem setHighBit_bits :
    ∀ b : BitVec 8, (b ||| 0x80) &&& 0x7F = b &&& 0x7F ∧ (b ||| 0x80) &&& 0x80 ≠ 0 := by
  decide

/-- A letter or a digit is returned for its press only: its release, with bit 7 set, gives
`0`. -/
theorem scancodeToAscii_release :
    ∀ b : BitVec 8, (scancodeToAscii b).isAlphanum = true → scancodeToAscii (b ||| 0x80) = '\x00' := by
  intro b
  obtain ⟨hlow, hhigh⟩ := setHighBit_bits b
  unfold scancodeToAscii
  rw [hlow]
  split <;> first | decide | simp only [pressed, if_neg hhigh, implies_true]

/-- `read_char_timeout` on the release of a letter or a digit key returns `0`, whenever its
counter `timeout_ms * 1000` does not wrap to `0`. -/
theorem readCharTimeout_release {t : BitVec 32} (ht : (t * 1000).toNat ≠ 0) {b : BitVec 8}
    (hb : (scancodeToAscii b).isAlphanum = true) (ports : List (BitVec 8)) :
    readCharTimeout t (0x01 :: (b ||| 0x80) :: ports) = some ('\x00', errSuccess, ports) := by
  have h := @readCharTimeout_spec t [] (by simp) 0x01 (by decide) (b ||| 0x80) ports
  rwa [if_pos (by simp only [List.length_nil]; omega), scancodeToAscii_release b hb] at h

/-- Every character `read_char_timeout` returns, for a key, an error or a timeout, is no
suspicious key. -/
theorem readCharTimeout_not_suspicious {t : BitVec 32} {ports rest : List (BitVec 8)} {c : Char}
    {code : Int} (h : readCharTimeout t ports = some (c, code, rest)) :
    isSuspiciousKey c = false := by
  obtain ⟨⟨w, ports'⟩, -, hw⟩ := Option.map_eq_some'.1 h
  rcases w with sc | e | _ <;> simp only [Prod.mk.injEq] at hw <;> obtain ⟨rfl, -⟩ := hw
  exacts [scancodeToAscii_not_suspicious sc, rfl, rfl]

/-- `read_char ()`: `read_char_timeout (0, NULL)`. -/
def readChar (ports : List (BitVec 8)) : Option (Char × List (BitVec 8)) :=
  (readCharTimeout 0 ports).map fun r => (r.1, r.2.2)

theorem readChar_eq (ports : List (BitVec 8)) : readChar ports = some ('\x00', ports) := rfl

/-- What `n` successive calls of `read_char ()` return. -/
def readChars : Nat → List (BitVec 8) → List Char
  | 0, _ => []
  | n + 1, ports =>
    match readChar ports with
    | none => []
    | some (c, ports) => c :: readChars n ports

theorem readChars_eq : ∀ (n : Nat) (ports : List (BitVec 8)),
    readChars n ports = List.replicate n '\x00'
  | 0, _ => rfl
  | n + 1, ports => by simp only [readChars, readChar_eq, readChars_eq n ports, List.replicate_succ]

end MiniKernel.Console
