import MiniKernel.Console.Keyboard

/-! The buffered keyboard driver of `io_optimized.c`. `process_keyboard_buffer` moves at most
16 scancodes a call from the controller into a ring of `KEYBOARD_BUFFER_SIZE` cells, and
`optimized_read_char_timeout` takes them out, oldest first, through the table
`scancode_to_ascii`, passing over those the table maps to `0`. As for `io.c`, the controller is
the sequence of bytes its ports answer.

* `queue_store`, `queue_take`: the ring is a queue of at most 255 scancodes, read from `tail`
  up to `head`;
* `processKeyboardBuffer_queue`: a call appends the keys the controller holds, in order, as
  many as fit in 16 and in the free cells;
* `processKeyboardBuffer_lost`: when the ring fills before 16, the next key is still read from
  the controller, and dropped;
* `optimizedReadCharTimeout_queued`: on a quiet controller, a read returns the oldest queued
  key that the table maps to a character, and drops the keys before it;
* `optimizedReadChars_queue`: successive reads return the characters of the queued keys, in
  order;
* `optimizedReadChars_press_release`: the table ignores the release bit, so a key pressed and
  released is read twice, where `read_char_timeout` of `io.c` returns `0` for the release of
  a letter or a digit. -/

namespace MiniKernel.Console.Optimized

open MiniKernel.Shell (errSuccess errIoTimeout)

/-- `KEYBOARD_BUFFER_SIZE`. -/
def keyboardBufferSize : Nat := 256

/-- `keyboard_buffer` with `keyboard_buffer_initialized`. `head` and `tail` are `uint32_t`; as
256 divides `2 ^ 32`, `(head + 1) % KEYBOARD_BUFFER_SIZE` is the same in `Nat`. -/
structure KeyboardBuffer where
  buffer : Nat → BitVec 8
  head : Nat
  tail : Nat
  full : Bool
  initialized : Bool

/-- The static `keyboard_buffer = {0}`, before `init_keyboard_buffer`. -/
def staticKeyboardBuffer : KeyboardBuffer := ⟨fun _ => 0, 0, 0, false, false⟩

/-- `init_keyboard_buffer ()`. -/
def initKeyboardBuffer (kb : KeyboardBuffer) : KeyboardBuffer :=
  if kb.initialized then kb
  else ⟨(List.range keyboardBufferSize).foldl (fun b i => setAt b i 0) kb.buffer,
    0, 0, false, true⟩

/-- `optimized_read_keyboard_data (&scancode)`: the reads of `read_keyboard_data` of `io.c`. -/
def optimizedReadKeyboardData (ports : List (BitVec 8)) :
    Option (Int × Option (BitVec 8) × List (BitVec 8)) :=
  readKeyboardData ports

/-- The store of `process_keyboard_buffer`: the scancode goes to cell `head`, which moves on. -/
def KeyboardBuffer.store (kb : KeyboardBuffer) (scancode : BitVec 8) : KeyboardBuffer :=
  { kb with buffer := setAt kb.buffer kb.head scancode, head := (kb.head + 1) % keyboardBufferSize }

/-- The loop of `process_keyboard_buffer` with `left` of its 16 scancodes to go. Its condition
reads the status byte (`optimized_keyboard_data_available ()`) before it tests
`processed < 16`, so that byte is read even when 16 are stored. -/
def batchLoop : Nat → KeyboardBuffer → List (BitVec 8) →
    Option (KeyboardBuffer × List (BitVec 8))
  | _, _, [] => none
  | 0, kb, _ :: ports => some (kb, ports)
  | left + 1, kb, status :: ports =>
    if status &&& 0x01 = 0 then some (kb, ports)
    else
      match optimizedReadKeyboardData ports with
      | none => none
      | some (result, scancode, ports) =>
        if result = errSuccess then
          if (kb.head + 1) % keyboardBufferSize ≠ kb.tail then
            batchLoop left (kb.store (scancode.getD 0)) ports
          else some ({ kb with full := true }, ports)
        else some (kb, ports)

/-- `process_keyboard_buffer ()`. -/
def processKeyboardBuffer (kb : KeyboardBuffer) (ports : List (BitVec 8)) :
    Option (KeyboardBuffer × List (BitVec 8)) :=
  batchLoop 16 (initKeyboardBuffer kb) ports

/-- `scancode_to_ascii[128]`, sixteen entries a row. -/
def scancodeToAscii : List Char :=
  ['\x00', '\x00', '1', '2', '3', '4', '5', '6', '7', '8', '9', '0', '\x00', '\x00', '\x08', '\t',
   'q', 'w', 'e', 'r', 't', 'y', 'u', 'i', 'o', 'p', '\x00', '\x00', '\n', '\x00', 'a', 's',
   'd', 'f', 'g', 'h', 'j', 'k', 'l', '\x00', '\x00', '\x00', '\x00', 'z', 'x', 'c', 'v', 'b',
   'n', 'm', '\x00', '\x00', ' '] ++ List.replicate 75 '\x00'

/-- `scancode_to_ascii[scancode & 0x7F]`. -/
def convert (scancode : BitVec 8) : Char :=
  scancodeToAscii.getD (scancode &&& 0x7F).toNat '\x00'

/-- The check of the ring in `optimized_read_char_timeout`, made once before its wait loop and
once in each pass: when the ring is not empty, take the oldest scancode and convert it. `0`
when the ring is empty or the table has `0` for the scancode. -/
def KeyboardBuffer.take (kb : KeyboardBuffer) : Char × KeyboardBuffer :=
  if kb.head ≠ kb.tail then
    (convert (kb.buffer kb.tail),
      { kb with tail := (kb.tail + 1) % keyboardBufferSize, full := false })
  else ('\x00', kb)

/-- The wait loop of `optimized_read_char_timeout`: while `timeout_counter > 0`, process the
controller and check the ring. -/
def waitLoop : Nat → KeyboardBuffer → List (BitVec 8) →
    Option (Char × Int × KeyboardBuffer × List (BitVec 8))
  | 0, kb, ports => some ('\x00', errIoTimeout, kb, ports)
  | n + 1, kb, ports =>
    match processKeyboardBuffer kb ports with
    | none => none
    | some (kb, ports) =>
      let (c, kb) := kb.take
      if c ≠ '\x00' then some (c, errSuccess, kb, ports) else waitLoop n kb ports

/-- `optimized_read_char_timeout (timeout_ms, &error_code)`: the character, the error code
stored, the ring and what is left of the controller's answers. The counter is
`timeout_ms * 100` in `uint32_t`. -/
def optimizedReadCharTimeout (timeoutMs : BitVec 32) (kb : KeyboardBuffer)
    (ports : List (BitVec 8)) : Option (Char × Int × KeyboardBuffer × List (BitVec 8)) :=
  match processKeyboardBuffer kb ports with
  | none => none
  | some (kb, ports) =>
    let (c, kb) := kb.take
    if c ≠ '\x00' then some (c, errSuccess, kb, ports)
    else waitLoop (timeoutMs * 100).toNat kb ports

/-- The check before the wait loop is one more pass of it. -/
theorem optimizedReadCharTimeout_eq (t : BitVec 32) (kb : KeyboardBuffer)
    (ports : List (BitVec 8)) :
    optimizedReadCharTimeout t kb ports = waitLoop ((t * 100).toNat + 1) kb ports := rfl

/-- What `n` successive calls of `optimized_read_char_timeout (timeout_ms, …)` return. -/
def optimizedReadChars (t : BitVec 32) : Nat → KeyboardBuffer → List (BitVec 8) → List Char
  | 0, _, _ => []
  | n + 1, kb, ports =>
    match optimizedReadCharTimeout t kb ports with
    | none => []
    | some (c, _, kb, ports) => c :: optimizedReadChars t n kb ports

/-! ## The ring as a queue -/

namespace KeyboardBuffer

/-- How many scancodes wait in the ring. -/
def count (kb : KeyboardBuffer) : Nat :=
  (kb.head + keyboardBufferSize - kb.tail) % keyboardBufferSize

/-- The scancodes waiting in the ring, oldest first: the cells from `tail` up to `head`. -/
def queue (kb : KeyboardBuffer) : List (BitVec 8) :=
  (List.range kb.count).map fun k => kb.buffer ((kb.tail + k) % keyboardBufferSize)

/-- The indices stay within the ring, and an uninitialized ring is empty. -/
structure Ring (kb : KeyboardBuffer) : Prop where
  head_lt : kb.head < keyboardBufferSize
  tail_lt : kb.tail < keyboardBufferSize
  uninitialized : kb.initialized = false → kb.tail = kb.head

variable {kb : KeyboardBuffer}

@[simp] theorem length_queue (kb : KeyboardBuffer) : kb.queue.length = kb.count := by
  simp [queue]

theorem count_lt (kb : KeyboardBuffer) : kb.count < keyboardBufferSize :=
  Nat.mod_lt _ (by decide)

theorem queue_eq_nil_iff (hkb : kb.Ring) : kb.queue = [] ↔ kb.head = kb.tail := by
  have := hkb.head_lt; have := hkb.tail_lt
  simp only [← List.length_eq_zero, length_queue, count, keyboardBufferSize] at *
  omega

/-- The free cell `head` can take a scancode exactly while fewer than 255 wait. -/
theorem store_ok_iff (hkb : kb.Ring) :
    (kb.head + 1) % keyboardBufferSize ≠ kb.tail ↔
      kb.queue.length < keyboardBufferSize - 1 := by
  have := hkb.head_lt; have := hkb.tail_lt
  simp only [length_queue, count, keyboardBufferSize] at *
  omega

theorem Ring.store (hkb : kb.Ring) (hi : kb.initialized = true) (scancode : BitVec 8) :
    (kb.store scancode).Ring :=
  ⟨Nat.mod_lt _ (by decide), hkb.tail_lt, fun h => by simp [KeyboardBuffer.store, hi] at h⟩

/-- A store at the free cell appends the scancode to the queue. -/
theorem queue_store (hkb : kb.Ring) (h : (kb.head + 1) % keyboardBufferSize ≠ kb.tail)
    (scancode : BitVec 8) : (kb.store scancode).queue = kb.queue ++ [scancode] := by
  have := hkb.head_lt; have := hkb.tail_lt
  have hc : (kb.store scancode).count = kb.count + 1 := by
    simp only [KeyboardBuffer.store, count, keyboardBufferSize] at *; omega
  rw [queue, hc, List.range_succ, List.map_append, queue]
  simp only [KeyboardBuffer.store, List.map_cons, List.map_nil]
  congr 1
  · refine List.map_congr_left fun k hk => setAt_ne _ _ ?_
    simp only [List.mem_range, count, keyboardBufferSize] at hk ⊢; omega
  · simp only [count, keyboardBufferSize] at *
    rw [show (kb.tail + (kb.head + 256 - kb.tail) % 256) % 256 = kb.head by omega, setAt_same]

theorem Ring.take (hkb : kb.Ring) : kb.take.2.Ring := by
  unfold KeyboardBuffer.take
  split_ifs with h
  · exact ⟨hkb.head_lt, Nat.mod_lt _ (by decide),
      fun hi => absurd (hkb.uninitialized hi) h.symm⟩
  · exact hkb

/-- Taking from a ring that is not empty takes the first scancode of the queue. -/
theorem queue_take (hkb : kb.Ring) (h : kb.head ≠ kb.tail) :
    kb.queue = kb.buffer kb.tail :: kb.take.2.queue ∧
      kb.take.1 = convert (kb.buffer kb.tail) := by
  have := hkb.head_lt; have := hkb.tail_lt
  simp only [KeyboardBuffer.take, if_pos h, and_true]
  obtain ⟨c, hc⟩ : ∃ c, kb.count = c + 1 := ⟨kb.count - 1, by
    simp only [count, keyboardBufferSize] at *; omega⟩
  have hc' : ({ kb with tail := (kb.tail + 1) % keyboardBufferSize, full := false } :
      KeyboardBuffer).count = c := by
    simp only [count, keyboardBufferSize] at *; omega
  rw [queue, queue, hc, hc', List.range_succ_eq_map, List.map_cons, List.map_map]
  simp only [Nat.add_zero, keyboardBufferSize] at *
  rw [Nat.mod_eq_of_lt ‹kb.tail < 256›]
  refine congrArg _ (List.map_congr_left fun k _ => congrArg kb.buffer ?_)
  omega

theorem Ring.initKeyboardBuffer (hkb : kb.Ring) : (initKeyboardBuffer kb).Ring := by
  unfold Optimized.initKeyboardBuffer
  split_ifs
  · exact hkb
  · exact ⟨by simp [keyboardBufferSize], by simp [keyboardBufferSize], fun _ => rfl⟩

@[simp] theorem initialized_initKeyboardBuffer (kb : KeyboardBuffer) :
    (initKeyboardBuffer kb).initialized = true := by
  unfold Optimized.initKeyboardBuffer; split_ifs with h <;> simp [h]

/-- `init_keyboard_buffer` clears only a ring that holds nothing. -/
@[simp] theorem queue_initKeyboardBuffer (hkb : kb.Ring) :
    (initKeyboardBuffer kb).queue = kb.queue := by
  unfold Optimized.initKeyboardBuffer
  split_ifs with h
  · rfl
  · simp [queue, count, hkb.uninitialized (Bool.not_eq_true _ ▸ h)]

theorem ring_staticKeyboardBuffer : staticKeyboardBuffer.Ring :=
  ⟨by decide, by decide, fun _ => rfl⟩

end KeyboardBuffer

open KeyboardBuffer

/-! ## A batch -/

/-- What the controller answers `process_keyboard_buffer` while it holds the keys `ks`: for
each, the status byte read by `optimized_keyboard_data_available`, the one read by
`optimized_read_keyboard_data`, both with bit 0 set, and the scancode. -/
def announce : List (BitVec 8) → List (BitVec 8)
  | [] => []
  | k :: ks => 0x01 :: 0x01 :: k :: announce ks

@[simp] theorem announce_append (ks ks' : List (BitVec 8)) :
    announce (ks ++ ks') = announce ks ++ announce ks' := by
  induction ks with
  | nil => rfl
  | cons k ks ih => simp [announce, ih]

variable {kb : KeyboardBuffer}

/-- A status byte with bit 0 clear ends the batch. -/
theorem batchLoop_quiet (left : Nat) (kb : KeyboardBuffer) (ports : List (BitVec 8)) :
    batchLoop left kb (0x00 :: ports) = some (kb, ports) := by
  cases left <;> rfl

theorem batchLoop_announce_zero (k : BitVec 8) (ks ports : List (BitVec 8)) :
    batchLoop 0 kb (announce (k :: ks) ++ ports) =
      some (kb, 0x01 :: k :: (announce ks ++ ports)) := rfl

theorem batchLoop_announce_succ (left : Nat) (k : BitVec 8) (ks ports : List (BitVec 8)) :
    batchLoop (left + 1) kb (announce (k :: ks) ++ ports) =
      if (kb.head + 1) % keyboardBufferSize ≠ kb.tail then
        batchLoop left (kb.store k) (announce ks ++ ports)
      else some ({ kb with full := true }, announce ks ++ ports) := rfl

/-- Keys that fit in the batch and in the ring are all stored, in order. -/
theorem batchLoop_append (ports : List (BitVec 8)) : ∀ (ks : List (BitVec 8)) (left : Nat)
    (kb : KeyboardBuffer), kb.Ring → kb.initialized = true → ks.length ≤ left →
    kb.queue.length + ks.length < keyboardBufferSize →
    ∃ kb', batchLoop left kb (announce ks ++ ports) = batchLoop (left - ks.length) kb' ports ∧
      kb'.Ring ∧ kb'.initialized = true ∧ kb'.queue = kb.queue ++ ks
  | [], left, kb, hkb, hi, _, _ => ⟨kb, rfl, hkb, hi, by simp⟩
  | k :: ks, left + 1, kb, hkb, hi, hl, hq => by
    have hs : (kb.head + 1) % keyboardBufferSize ≠ kb.tail :=
      (store_ok_iff hkb).2 (by simp only [List.length_cons, keyboardBufferSize] at hq ⊢; omega)
    obtain ⟨kb', h1, h2, h3, h4⟩ :=
      batchLoop_append ports ks left (kb.store k) (hkb.store hi k) hi
      (by simp only [List.length_cons] at hl; omega)
      (by
        rw [queue_store hkb hs]
        simp only [List.length_append, List.length_cons, List.length_nil] at hq ⊢
        omega)
    refine ⟨kb', ?_, h2, h3,
      by rw [h4, queue_store hkb hs, List.append_assoc, List.singleton_append]⟩
    rw [batchLoop_announce_succ, if_pos hs, h1, List.length_cons, Nat.add_sub_add_right]

/-- A full ring stops the batch, after the key was read. -/
theorem batchLoop_full (hkb : kb.Ring) (hf : kb.queue.length = keyboardBufferSize - 1) (left : Nat)
    (k : BitVec 8) (ks ports : List (BitVec 8)) :
    batchLoop (left + 1) kb (announce (k :: ks) ++ ports) =
      some ({ kb with full := true }, announce ks ++ ports) := by
  rw [batchLoop_announce_succ, if_neg (not_not.2 ?_)]
  by_contra h
  exact absurd ((store_ok_iff hkb).1 h) (by omega)

/-- From any ring, `process_keyboard_buffer` appends the keys the controller holds to the
queue, in the order they come, as many as fit both in the batch of 16 and in the 255 cells
left free. -/
theorem processKeyboardBuffer_queue (hkb : kb.Ring) (ks rest : List (BitVec 8)) :
    ∃ kb' ports', processKeyboardBuffer kb (announce ks ++ 0x00 :: rest) = some (kb', ports') ∧
      kb'.Ring ∧
        kb'.queue = kb.queue ++ ks.take (min 16 (keyboardBufferSize - 1 - kb.queue.length)) := by
  set m := min 16 (keyboardBufferSize - 1 - kb.queue.length) with hm_def
  have hlen : kb.queue.length < keyboardBufferSize := by rw [length_queue]; exact count_lt kb
  have hq := queue_initKeyboardBuffer hkb
  have hm : (initKeyboardBuffer kb).queue.length + (ks.take m).length < keyboardBufferSize := by
    rw [hq, List.length_take]; omega
  obtain ⟨kb', h1, h2, -, h4⟩ := batchLoop_append _ (ks.take m) 16 _ hkb.initKeyboardBuffer
    (initialized_initKeyboardBuffer kb) (by rw [List.length_take]; omega) hm
  rw [hq] at h4
  have hsplit : announce ks ++ 0x00 :: rest =
      announce (ks.take m) ++ (announce (ks.drop m) ++ 0x00 :: rest) := by
    rw [← List.append_assoc, ← announce_append, List.take_append_drop]
  rw [processKeyboardBuffer, hsplit, h1]
  rcases hd : ks.drop m with _ | ⟨k, more⟩
  · exact ⟨kb', rest, batchLoop_quiet _ _ _, h2, h4⟩
  · have hlt : m < ks.length := by
      by_contra h; rw [List.drop_eq_nil_of_le (by omega)] at hd; cases hd
    rw [List.length_take, min_eq_left hlt.le]
    rcases Nat.lt_or_ge m 16 with h16 | h16
    · obtain ⟨l, hl⟩ : ∃ l, 16 - m = l + 1 := ⟨15 - m, by omega⟩
      rw [hl, batchLoop_full h2 (by rw [h4, List.length_append, List.length_take]; omega)]
      exact ⟨_, _, rfl, ⟨h2.head_lt, h2.tail_lt, h2.uninitialized⟩, h4⟩
    · rw [show 16 - m = 0 by omega, batchLoop_announce_zero]
      exact ⟨kb', _, rfl, h2, h4⟩

theorem processKeyboardBuffer_queue_a :
    staticKeyboardBuffer.Ring ∧ ∃ kb' ports',
      processKeyboardBuffer staticKeyboardBuffer (announce [0x1E] ++ 0x00 :: []) =
        some (kb', ports') ∧
        kb'.Ring ∧ kb'.queue = staticKeyboardBuffer.queue ++
          [0x1E].take (min 16 (keyboardBufferSize - 1 - staticKeyboardBuffer.queue.length)) :=
  ⟨ring_staticKeyboardBuffer, processKeyboardBuffer_queue ring_staticKeyboardBuffer _ _⟩

/-- When the ring fills before the batch of 16 is done, the key after the last one stored is
still read from the controller, and is never stored: it is lost. -/
theorem processKeyboardBuffer_lost (hkb : kb.Ring) {ks : List (BitVec 8)} (hks : ks.length < 16)
    (hfull : kb.queue.length + ks.length = keyboardBufferSize - 1) (k : BitVec 8)
    (more rest : List (BitVec 8)) :
    ∃ kb', processKeyboardBuffer kb (announce (ks ++ k :: more) ++ rest) =
      some (kb', announce more ++ rest) ∧ kb'.Ring ∧ kb'.queue = kb.queue ++ ks := by
  have hsize : keyboardBufferSize = 256 := rfl
  have hq := queue_initKeyboardBuffer hkb
  obtain ⟨kb', h1, h2, -, h4⟩ := batchLoop_append (announce (k :: more) ++ rest) ks 16 _
    hkb.initKeyboardBuffer (initialized_initKeyboardBuffer kb) hks.le (by rw [hq]; omega)
  rw [hq] at h4
  obtain ⟨l, hl⟩ : ∃ l, 16 - ks.length = l + 1 := ⟨15 - ks.length, by omega⟩
  rw [processKeyboardBuffer, announce_append, List.append_assoc, h1, hl,
    batchLoop_full h2 (by rw [h4, List.length_append]; omega)]
  exact ⟨_, rfl, ⟨h2.head_lt, h2.tail_lt, h2.uninitialized⟩, h4⟩

theorem processKeyboardBuffer_lost_full :
    ∃ kb', processKeyboardBuffer ⟨fun _ => 0x1E, 255, 0, false, true⟩
        (announce ([] ++ 0x1F :: []) ++ []) = some (kb', announce [] ++ []) ∧ kb'.Ring ∧
      kb'.queue = KeyboardBuffer.queue ⟨fun _ => 0x1E, 255, 0, false, true⟩ ++ [] :=
  processKeyboardBuffer_lost ⟨by decide, by decide, fun h => Bool.noConfusion h⟩ (by decide)
    (by rw [length_queue]; rfl) _ _ _

/-! ## Reading -/

/-- The table is indexed by `scancode & 0x7F`: a key's release code converts as its press code. -/
theorem convert_release (k : BitVec 8) : convert (k ||| 0x80) = convert k := by
  have : ∀ k : BitVec 8, (k ||| 0x80) &&& 0x7F = k &&& 0x7F := by decide
  rw [convert, convert, this]

theorem processKeyboardBuffer_quiet (kb : KeyboardBuffer) (ports : List (BitVec 8)) :
    processKeyboardBuffer kb (0x00 :: ports) = some (initKeyboardBuffer kb, ports) :=
  batchLoop_quiet _ _ _

/-- A pass of the wait loop after a batch that leaves `x` first in the ring: it returns the
character of `x`, or goes on when the table maps `x` to `0`. -/
theorem waitLoop_pass {kb kb1 : KeyboardBuffer} {ports ports1 : List (BitVec 8)}
    (hp : processKeyboardBuffer kb ports = some (kb1, ports1)) (hkb1 : kb1.Ring) {x : BitVec 8}
    {q : List (BitVec 8)} (hq : kb1.queue = x :: q) (n : Nat) :
    ∃ kb2, kb2.Ring ∧ kb2.queue = q ∧ waitLoop (n + 1) kb ports =
      if convert x ≠ '\x00' then some (convert x, errSuccess, kb2, ports1)
      else waitLoop n kb2 ports1 := by
  have hne : kb1.head ≠ kb1.tail :=
    fun h => List.cons_ne_nil x q (hq ▸ (queue_eq_nil_iff hkb1).2 h)
  obtain ⟨hq2, hc⟩ := queue_take hkb1 hne
  rw [hq, List.cons.injEq] at hq2
  refine ⟨_, hkb1.take, hq2.2.symm, ?_⟩
  rw [hq2.1, ← hc, waitLoop, hp]

/-- On a quiet controller, the wait loop takes the keys the table maps to `0` and returns the
first one it maps to a character, if it comes within the passes left. -/
theorem waitLoop_queued {k : BitVec 8} {q : List (BitVec 8)} (hk : convert k ≠ '\x00')
    (rest : List (BitVec 8)) (z : List (BitVec 8)) :
    ∀ (n : Nat) (kb : KeyboardBuffer), kb.Ring →
    kb.queue = z ++ k :: q → (∀ x ∈ z, convert x = '\x00') → z.length < n →
    ∃ kb', waitLoop n kb (List.replicate (z.length + 1) 0x00 ++ rest) =
      some (convert k, errSuccess, kb', rest) ∧ kb'.Ring ∧ kb'.queue = q := by
  induction z with
  | nil =>
    rintro (_ | n) kb hkb hq - hn
    · exact absurd hn (Nat.lt_irrefl 0)
    obtain ⟨kb', h1, h2, h3⟩ := waitLoop_pass (processKeyboardBuffer_quiet kb rest)
      hkb.initKeyboardBuffer ((queue_initKeyboardBuffer hkb).trans hq) n
    exact ⟨kb', by rw [List.length_nil, List.replicate_one, List.singleton_append, h3, if_pos hk],
      h1, h2⟩
  | cons x z ih =>
    rintro (_ | n) kb hkb hq hz hn
    · exact absurd hn (Nat.not_lt_zero _)
    obtain ⟨kb', h1, h2, h3⟩ := waitLoop_pass (processKeyboardBuffer_quiet kb _)
      hkb.initKeyboardBuffer ((queue_initKeyboardBuffer hkb).trans hq) n
    rw [List.length_cons, List.replicate_succ, List.cons_append, h3,
      if_neg (not_not.2 (hz x (List.mem_cons_self _ _)))]
    exact ih n kb' h1 h2 (fun y hy => hz y (List.mem_cons_of_mem _ hy))
      (by simp only [List.length_cons] at hn; omega)

/-- On a quiet controller, `optimized_read_char_timeout` returns the character of the oldest
queued key that the table maps to one, and takes it and the keys before it from the ring,
as long as those keys are no more than `timeout_ms * 100` in `uint32_t`. -/
theorem optimizedReadCharTimeout_queued (hkb : kb.Ring) {z q : List (BitVec 8)} {k : BitVec 8}
    (hq : kb.queue = z ++ k :: q) (hz : ∀ x ∈ z, convert x = '\x00') (hk : convert k ≠ '\x00')
    {t : BitVec 32} (ht : z.length ≤ (t * 100).toNat) (rest : List (BitVec 8)) :
    ∃ kb', optimizedReadCharTimeout t kb (List.replicate (z.length + 1) 0x00 ++ rest) =
      some (convert k, errSuccess, kb', rest) ∧ kb'.Ring ∧ kb'.queue = q := by
  rw [optimizedReadCharTimeout_eq]
  exact waitLoop_queued hk rest z _ kb hkb hq hz (by omega)

/-- Successive reads on a quiet controller, from a ring whose queue is `z ++ q` where the table
maps every key of `z` to `0`. -/
theorem optimizedReadChars_append {t : BitVec 32} (rest : List (BitVec 8)) :
    ∀ (q z : List (BitVec 8)) (kb : KeyboardBuffer), kb.Ring → kb.queue = z ++ q →
    (∀ x ∈ z, convert x = '\x00') → (z ++ q).length ≤ (t * 100).toNat + 1 →
    optimizedReadChars t ((q.map convert).filter (· ≠ '\x00')).length kb
      (List.replicate (z ++ q).length 0x00 ++ rest) = (q.map convert).filter (· ≠ '\x00')
  | [], _, _, _, _, _, _ => rfl
  | k :: q, z, kb, hkb, hq, hz, hl => by
    have hzq : z ++ k :: q = (z ++ [k]) ++ q := by rw [List.append_assoc, List.singleton_append]
    by_cases hk : convert k = '\x00'
    · rw [hzq] at hq hl ⊢
      have h := optimizedReadChars_append rest q (z ++ [k]) kb hkb hq
        (fun x hx => (List.mem_append.1 hx).elim (hz x) fun h => List.mem_singleton.1 h ▸ hk) hl
      simpa [hk] using h
    · have hf : ((k :: q).map convert).filter (· ≠ '\x00') =
          convert k :: (q.map convert).filter (· ≠ '\x00') := by simp [hk]
      have hlen : (z ++ k :: q).length = (z.length + 1) + q.length := by simp; omega
      obtain ⟨kb', h1, h2, h3⟩ := waitLoop_queued hk (List.replicate q.length 0x00 ++ rest) z
        ((t * 100).toNat + 1) kb hkb hq hz (by rw [hlen] at hl; omega)
      rw [hf, List.length_cons, optimizedReadChars, hlen, List.replicate_add, List.append_assoc,
        optimizedReadCharTimeout_eq, h1]
      exact congrArg _ (optimizedReadChars_append rest q [] kb' h2 h3
        (fun _ h => absurd h (List.not_mem_nil _)) (by rw [List.nil_append]; omega))

/-- On a quiet controller, successive calls of `optimized_read_char_timeout` return the
characters of the queued keys in the order they were queued, passing over the keys the table
maps to `0`, as long as the ring holds no more than `timeout_ms * 100 + 1` keys in `uint32_t`. -/
theorem optimizedReadChars_queue (hkb : kb.Ring) {t : BitVec 32}
    (ht : kb.queue.length ≤ (t * 100).toNat + 1) (rest : List (BitVec 8)) :
    optimizedReadChars t ((kb.queue.map convert).filter (· ≠ '\x00')).length kb
      (List.replicate kb.queue.length 0x00 ++ rest) =
        (kb.queue.map convert).filter (· ≠ '\x00') :=
  optimizedReadChars_append rest kb.queue [] kb hkb rfl (fun _ h => absurd h (List.not_mem_nil _))
    ht

theorem optimizedReadChars_queue_a :
    optimizedReadChars 1
        (List.filter (· ≠ '\x00')
          (List.map convert (KeyboardBuffer.queue ⟨fun _ => 0x1E, 1, 0, false, true⟩))).length
        ⟨fun _ => 0x1E, 1, 0, false, true⟩
        (List.replicate (KeyboardBuffer.queue ⟨fun _ => 0x1E, 1, 0, false, true⟩).length 0x00 ++
          []) =
      List.filter (· ≠ '\x00')
        (List.map convert (KeyboardBuffer.queue ⟨fun _ => 0x1E, 1, 0, false, true⟩)) :=
  @optimizedReadChars_queue ⟨fun _ => 0x1E, 1, 0, false, true⟩
    ⟨by decide, by decide, fun h => Bool.noConfusion h⟩ 1 (by decide) []

/-- The table ignores the release bit, so from an empty ring a key pressed and released is read
twice; `read_char_timeout` of `io.c` gives `0` for the release of a letter or a digit. -/
theorem optimizedReadChars_press_release (hkb : kb.Ring) (hq : kb.queue = []) (t : BitVec 32)
    {k : BitVec 8} (hk : convert k ≠ '\x00') (rest : List (BitVec 8)) :
    optimizedReadChars t 2 kb (announce [k, k ||| 0x80] ++ 0x00 :: 0x00 :: rest) =
      [convert k, convert k] ∧
    ∀ b : BitVec 8, (Console.scancodeToAscii b).isAlphanum = true → ∀ (t' : BitVec 32),
      (t' * 1000).toNat ≠ 0 → ∀ ports, Console.readCharTimeout t' (0x01 :: (b ||| 0x80) :: ports) =
        some ('\x00', errSuccess, ports) := by
  refine ⟨?_, fun b hb t' ht ports => Console.readCharTimeout_release ht hb ports⟩
  have hq0 := (queue_initKeyboardBuffer hkb).trans hq
  obtain ⟨kb1, h1, h2, -, h4⟩ := batchLoop_append (0x00 :: 0x00 :: rest) [k, k ||| 0x80] 16 _
    hkb.initKeyboardBuffer (initialized_initKeyboardBuffer kb) (by simp)
    (by rw [hq0]; simp [keyboardBufferSize])
  rw [hq0, List.nil_append] at h4
  have hp : processKeyboardBuffer kb (announce [k, k ||| 0x80] ++ 0x00 :: 0x00 :: rest) =
      some (kb1, 0x00 :: rest) := by
    rw [processKeyboardBuffer, h1]; exact batchLoop_quiet _ _ _
  obtain ⟨kb2, h5, h6, h7⟩ := waitLoop_pass hp h2 h4 (t * 100).toNat
  obtain ⟨kb3, -, -, h8⟩ := waitLoop_pass (processKeyboardBuffer_quiet kb2 rest)
    h5.initKeyboardBuffer ((queue_initKeyboardBuffer h5).trans h6) (t * 100).toNat
  rw [optimizedReadChars, optimizedReadCharTimeout_eq, h7, if_pos hk]
  dsimp only
  rw [optimizedReadChars, optimizedReadCharTimeout_eq, h8, convert_release, if_pos hk]
  rfl

theorem optimizedReadChars_press_release_a :
    optimizedReadChars 1 2 staticKeyboardBuffer
        (announce [0x1E, 0x1E ||| 0x80] ++ 0x00 :: 0x00 :: []) =
      [convert 0x1E, convert 0x1E] ∧
    ∀ b : BitVec 8, (Console.scancodeToAscii b).isAlphanum = true → ∀ (t' : BitVec 32),
      (t' * 1000).toNat ≠ 0 → ∀ ports, Console.readCharTimeout t' (0x01 :: (b ||| 0x80) :: ports) =
        some ('\x00', errSuccess, ports) :=
  optimizedReadChars_press_release ring_staticKeyboardBuffer rfl 1 (by decide) []

end MiniKernel.Console.Optimized
