import MiniKernel.Bitmap
import MiniKernel.Shell.Command

/-! The main command loop of `run_shell`, after authentication: read a line into
`command_buffer` key by key, then validate it, take the exit branch, or hand it to
`execute_command`. A pass of the loop is a function of the current principal, the buffer
left by the previous pass, and the stream of results of `read_char_timeout`.

The buffer is a map from indices; `command_buffer` is its cells `0 .. 127`, and the model
reads no cell past them (C reads one more when the buffer holds no `'\x00'`).

Over a run of ordinary keys the read loop is the line editor `typeKey` applied key by key
(`readLine_keys`). So a line ended by CR or LF runs exactly the edited line, and a line
cut by a read error runs nothing (`line_end_outcome`); over any stream without suspicious
keys, a pass that ends runs the line edited by the keys it read, or nothing after a read
error (`shellPass_clean`). A suspicious key does not discard the line typed before it
(`exit_semicolon_exits`): the reject path resets `buffer_index` but leaves the typed
characters in the buffer, unterminated, and the pass goes on to validate, compare and
execute them. A pass that ran a command clears the buffer, so this happens in every pass
after one (`suspicious_key_after_command`). -/

namespace MiniKernel.Shell

/-- `ERR_SUCCESS` and `ERR_IO_TIMEOUT` of `error_codes.h`. -/
def errSuccess : Int := 0
def errIoTimeout : Int := -10

/-- One call of `read_char_timeout (10000, &read_error)`: the character returned and the
error code stored. -/
structure ReadResult where
  c : Char
  code : Int
  deriving DecidableEq, Repr

/-- The keys `run_shell` rejects a line for. -/
def isSuspiciousKey (c : Char) : Bool :=
  c = ';' || c = '|' || c = '&' || c = '\x60' || c = '$' || c = '<' || c = '>'

/-- `c >= 32 && c <= 126`. -/
def isPrintable (c : Char) : Bool := 32 ≤ c.toNat && c.toNat ≤ 126

/-- Where the read loop stopped. -/
structure LineRead where
  buffer : Nat → Char
  index : Nat
  readError : Int
  effects : List Effect
  rest : List ReadResult

/-- What a step of the loop printed before the rest of the loop ran. -/
def LineRead.prepend (e : List Effect) (r : LineRead) : LineRead :=
  { r with effects := e ++ r.effects }

/-- The read loop of `run_shell` from `buffer_index = idx`; `none` when the stream ends
before the loop does. -/
def readLine (buf : Nat → Char) (idx : Nat) : List ReadResult → Option LineRead
  | [] => none
  | r :: rs =>
    if r.code ≠ errSuccess then
      some ⟨buf, idx, r.code,
        if r.code = errIoTimeout then
          [.print "\nError: Command input timeout. Please try again.\n",
            .violation "INPUT_TIMEOUT" "Command input timeout"]
        else
          [.print "\nError: Failed to read input. Restarting shell...\n",
            .violation "INPUT_ERROR" "Failed to read input"], rs⟩
    else if r.c = '\x08' ∧ 0 < idx then
      (readLine buf (idx - 1) rs).map
        (·.prepend [.printChar '\x08', .printChar ' ', .printChar '\x08'])
    else if r.c = '\n' ∨ r.c = '\r' then
      some ⟨setAt buf idx '\x00', idx, r.code, [.print "\n"], rs⟩
    else if idx < maxCommandLength - 1 ∧ isPrintable r.c ∧ isSuspiciousKey r.c then
      some ⟨buf, 0, r.code,
        [.print "\nError: Suspicious character detected. Command rejected.\n",
          .violation "SUSPICIOUS_CHARACTER" "Dangerous character in input"], rs⟩
    else
      let stored := idx < maxCommandLength - 1 ∧ isPrintable r.c
      let buf := if stored then setAt buf idx r.c else buf
      let echo := if stored then [Effect.printChar r.c] else []
      let idx := if stored then idx + 1 else idx
      if maxCommandLength - 1 ≤ idx then
        some ⟨setAt buf idx '\x00', idx, r.code,
          echo ++ [.print "\nError: Command too long (maximum is ",
            .print (toString (maxCommandLength - 1)), .print " characters)\n",
            .violation "BUFFER_OVERFLOW_ATTEMPT" "Command too long"], rs⟩
      else (readLine buf idx rs).map (·.prepend echo)

/-- How a pass of the main loop ends: `continue` after a read error or a failed
validation, the exit branch, or a call of `execute_command` on a string. -/
inductive Outcome
  | retry
  | exit
  | execute (line : List Char)
  deriving DecidableEq, Repr

/-- Where a pass of the main loop ended: its outcome, the buffer it leaves, what it printed
and logged, and the results still unread. -/
structure Pass where
  outcome : Outcome
  buffer : Nat → Char
  effects : List Effect
  rest : List ReadResult

/-- `command_buffer` as the cells handed to the string functions. -/
def commandCells (buf : Nat → Char) : List Char := (List.range maxCommandLength).map buf

/-- The prompt printed at the top of a pass. -/
def prompt : Option ShellUser → List Effect
  | some u => [.print (String.mk u.username), .print "@s00k> "]
  | none => [.print "s00k> "]

/-- One pass of the main loop of `run_shell`; `none` when the stream ends first. After
`execute_command` the pass clears the buffer. -/
def shellPass (user : Option ShellUser) (buf : Nat → Char) (input : List ReadResult) :
    Option Pass :=
  (readLine buf 0 input).map fun r =>
    if r.readError ≠ errSuccess then ⟨.retry, r.buffer, prompt user ++ r.effects, r.rest⟩
    else
      let cells := commandCells r.buffer
      match validateShellInput cells maxCommandLength with
      | .error (e, d) =>
        ⟨.retry, r.buffer, prompt user ++ r.effects ++
          [.violation e d, .print "Error: Command validation failed. Command rejected.\n"],
          r.rest⟩
      | .ok () =>
        if cStr cells = "exit".toList then
          ⟨.exit, r.buffer, prompt user ++ r.effects ++
            [.event "USER_LOGOUT" "User logged out", .print "Exiting shell...\n",
              .print "Goodbye!\n"], r.rest⟩
        else
          ⟨.execute (cStr cells),
            (List.range maxCommandLength).foldl (fun b i => setAt b i '\x00') r.buffer,
            prompt user ++ r.effects ++ (executeCommand user (some cells)).2, r.rest⟩

/-! ## The line editor -/

/-- A key pressed with no read error. -/
def keyPress (c : Char) : ReadResult := ⟨c, errSuccess⟩

/-- The line editor the loop implements: a backspace deletes the character before it, a
printable key is appended, any other key is ignored. -/
def typeKey (l : List Char) (c : Char) : List Char :=
  if c = '\x08' then l.dropLast else if isPrintable c then l ++ [c] else l

/-- The line shown after typing `keys` at an empty prompt. -/
def typedLine (keys : List Char) : List Char := keys.foldl typeKey []

example : typedLine "\x08ab\x08\tc".toList = "ac".toList := by decide

/-- What the loop does with a line it accepts: the exit branch for `exit`, otherwise a call
of `execute_command`. -/
def lineOutcome (l : List Char) : Outcome := if l = "exit".toList then .exit else .execute l

/-- Keys that neither end the line nor are rejected. -/
def Ordinary (c : Char) : Prop := c ≠ '\n' ∧ c ≠ '\r' ∧ isSuspiciousKey c = false

/-- Characters a line can hold: printable and not a suspicious key. -/
def Typed (c : Char) : Prop := isPrintable c = true ∧ isSuspiciousKey c = false

instance : DecidablePred Ordinary := fun _ => inferInstanceAs (Decidable (_ ∧ _ ∧ _))
instance : DecidablePred Typed := fun _ => inferInstanceAs (Decidable (_ ∧ _))

/-- The first cells of `buf` spell `l`. -/
def Spells (buf : Nat → Char) (l : List Char) : Prop := (List.range l.length).map buf = l

theorem Spells.setAt_ge {buf : Nat → Char} {l : List Char} (h : Spells buf l) {i : Nat}
    (hi : l.length ≤ i) (x : Char) : Spells (setAt buf i x) l :=
  (List.map_congr_left fun _ hj => setAt_ne buf x (by rw [List.mem_range] at hj; omega)).trans h

theorem Spells.append {buf : Nat → Char} {l : List Char} (h : Spells buf l) (c : Char) :
    Spells (setAt buf l.length c) (l ++ [c]) := by
  rw [Spells, List.length_append, List.length_singleton, List.range_succ, List.map_append,
    List.map_singleton, setAt_same, h.setAt_ge le_rfl]

theorem Spells.take {buf : Nat → Char} {l : List Char} (h : Spells buf l) (k : Nat) :
    Spells buf (l.take k) := by
  unfold Spells at *
  conv_rhs => rw [← h]
  rw [List.length_take, ← List.map_take, List.take_range]

/-- A buffer that spells `l` and holds `'\x00'` right after it holds the string `l`. -/
theorem Spells.string {buf : Nat → Char} {l : List Char} (h : Spells buf l)
    (hend : buf l.length = '\x00') (hl : l.length < maxCommandLength)
    (hnul : ∀ c ∈ l, c ≠ '\x00') : cStr (commandCells buf) = l := by
  obtain ⟨k, hk⟩ : ∃ k, maxCommandLength = l.length + (k + 1) :=
    ⟨maxCommandLength - l.length - 1, by omega⟩
  rw [commandCells, hk, List.range_add, List.map_append, h, List.range_succ_eq_map, cStr,
    List.takeWhile_append_of_pos (by simpa using hnul)]
  simp [hend]

theorem printable_ne {c : Char} (h : isPrintable c = true) :
    c ≠ '\x00' ∧ c ≠ '\x08' ∧ c ≠ '\n' ∧ c ≠ '\r' := by
  refine ⟨?_, ?_, ?_, ?_⟩ <;> (rintro rfl; exact absurd h (by decide))

theorem suspiciousKey_printable {c : Char} (h : isSuspiciousKey c = true) :
    isPrintable c = true := by
  simp only [isSuspiciousKey, Bool.or_eq_true, decide_eq_true_eq] at h
  rcases h with ((((((rfl | rfl) | rfl) | rfl) | rfl) | rfl) | rfl) <;> rfl

theorem Typed.ordinary {c : Char} (h : Typed c) : Ordinary c :=
  ⟨(printable_ne h.1).2.2.1, (printable_ne h.1).2.2.2, h.2⟩

theorem typeKey_typed {l : List Char} (hl : ∀ x ∈ l, Typed x) {c : Char}
    (hc : isSuspiciousKey c = false) : ∀ x ∈ typeKey l c, Typed x := by
  unfold typeKey
  split_ifs with _ hp
  · exact fun x hx => hl x (List.dropLast_subset l hx)
  · simpa [or_imp, forall_and] using ⟨hl, hp, hc⟩
  · exact hl

theorem foldl_typeKey_typed {keys l : List Char} (hk : ∀ c ∈ keys, Ordinary c)
    (hl : ∀ x ∈ l, Typed x) : ∀ x ∈ keys.foldl typeKey l, Typed x := by
  induction keys generalizing l with
  | nil => exact hl
  | cons c ks ih =>
    exact ih (fun c hc => hk c (List.mem_cons_of_mem _ hc))
      (typeKey_typed hl (hk c (List.mem_cons_self _ _)).2.2)

/-- Printable keys are appended one by one. -/
theorem foldl_typeKey_printable {w : List Char} (hw : ∀ c ∈ w, isPrintable c = true)
    (l : List Char) : w.foldl typeKey l = l ++ w := by
  induction w generalizing l with
  | nil => exact (List.append_nil l).symm
  | cons c ws ih =>
    have hc := hw c (List.mem_cons_self _ _)
    rw [List.foldl_cons, typeKey, if_neg (printable_ne hc).2.1, if_pos hc,
      ih (fun c h => hw c (List.mem_cons_of_mem _ h)), List.append_assoc, List.singleton_append]

/-! ## The read loop over ordinary keys -/

theorem LineRead.prepend_prepend (e e' : List Effect) (r : LineRead) :
    (r.prepend e').prepend e = r.prepend (e ++ e') := by
  simp only [LineRead.prepend, List.append_assoc]

/-- One ordinary key is one step of the line editor: the loop goes on from the edited line,
and writes no cell at or past its end. -/
theorem readLine_key {buf : Nat → Char} {l : List Char} (h : Spells buf l) {c : Char}
    (hc : Ordinary c) (hl : l.length < maxCommandLength - 1)
    (hlen : (typeKey l c).length < maxCommandLength - 1) (rs : List ReadResult) :
    ∃ buf' e, Spells buf' (typeKey l c) ∧ (∀ i, (typeKey l c).length ≤ i → buf' i = buf i) ∧
      readLine buf l.length (keyPress c :: rs) =
        (readLine buf' (typeKey l c).length rs).map (·.prepend e) := by
  rw [readLine]
  dsimp only [keyPress]
  rw [if_neg (not_not.mpr rfl)]
  by_cases hb : c = '\x08' ∧ 0 < l.length
  · have ht : typeKey l c = l.dropLast := if_pos hb.1
    refine ⟨buf, [.printChar '\x08', .printChar ' ', .printChar '\x08'], ?_, fun _ _ => rfl, ?_⟩
    · rw [ht, List.dropLast_eq_take]; exact h.take _
    · rw [if_pos hb, ht, List.length_dropLast]
  · rw [if_neg hb, if_neg (by unfold Ordinary at hc; tauto), if_neg (by simp [hc.2.2])]
    by_cases hp : isPrintable c = true
    · have ht : typeKey l c = l ++ [c] := by rw [typeKey, if_neg (printable_ne hp).2.1, if_pos hp]
      rw [ht, List.length_append, List.length_singleton] at hlen ⊢
      refine ⟨_, [.printChar c], h.append c, fun i hi => setAt_ne buf c (by omega), ?_⟩
      simp only [hl, hp, and_self, if_true]
      rw [if_neg (by omega)]
    · have ht : typeKey l c = l := by
        unfold typeKey
        split_ifs with h8
        · rw [List.eq_nil_of_length_eq_zero (Nat.eq_zero_of_not_pos fun h0 => hb ⟨h8, h0⟩)]; rfl
        · rfl
      rw [ht]
      refine ⟨buf, [], h, fun _ _ => rfl, ?_⟩
      simp only [hp, Bool.false_eq_true, and_false, if_false]
      rw [if_neg (by omega)]

/-- A run of ordinary keys whose edited line stays under `m < 127` characters is the line
editor applied key by key; no cell from `m` on is written. -/
theorem readLine_keys {m : Nat} (hm : m < maxCommandLength - 1) (keys : List Char)
    (hk : ∀ c ∈ keys, Ordinary c) :
    ∀ {l : List Char} {buf : Nat → Char}, Spells buf l →
      (∀ n, ((keys.take n).foldl typeKey l).length ≤ m) → ∀ rs : List ReadResult,
      ∃ buf' e, Spells buf' (keys.foldl typeKey l) ∧ (∀ i, m ≤ i → buf' i = buf i) ∧
        readLine buf l.length (keys.map keyPress ++ rs) =
          (readLine buf' (keys.foldl typeKey l).length rs).map (·.prepend e) := by
  induction keys with
  | nil =>
    intro l buf h _ rs
    refine ⟨buf, [], h, fun _ _ => rfl, ?_⟩
    rw [List.map_nil, List.nil_append, List.foldl_nil]
    cases readLine buf l.length rs <;> rfl
  | cons c ks ih =>
    intro l buf h hb rs
    have h0 : l.length ≤ m := hb 0
    have h1 : (typeKey l c).length ≤ m := hb 1
    obtain ⟨buf1, e1, hs1, hf1, hr1⟩ :=
      readLine_key h (hk c (List.mem_cons_self _ _)) (by omega) (by omega) (ks.map keyPress ++ rs)
    obtain ⟨buf2, e2, hs2, hf2, hr2⟩ :=
      ih (fun c hc => hk c (List.mem_cons_of_mem _ hc)) hs1 (fun n => hb (n + 1)) rs
    refine ⟨buf2, e1 ++ e2, hs2, fun i hi => (hf2 i hi).trans (hf1 i (by omega)), ?_⟩
    rw [List.map_cons, List.cons_append, hr1, List.foldl_cons, hr2, Option.map_map]
    congr 1
    funext r
    exact LineRead.prepend_prepend e1 e2 r

/-! ## How a pass ends -/

theorem validateLoop_typed : ∀ (n : Nat) (cells : List Char), (∀ c ∈ cStr cells, Typed c) →
    (cStr cells).length ≤ n → validateLoop n cells = .ok ()
  | n, [], _, _ => validateLoop.eq_1 n
  | n, c :: cs, hg, hn => by
    by_cases h0 : c = '\x00'
    · cases n
      · rw [validateLoop.eq_2, if_pos h0]
      · rw [validateLoop.eq_3, if_pos h0]
    · rw [cStr_cons h0] at hg hn
      obtain ⟨n, rfl⟩ : ∃ k, n = k + 1 := ⟨n - 1, by simp at hn; omega⟩
      have ⟨hp, hs⟩ := hg c (List.mem_cons_self _ _)
      have hs' : isSuspicious c = false := by
        revert hs; unfold isSuspicious isSuspiciousKey; simp only [Bool.or_eq_false_iff]; tauto
      simp only [isPrintable, Bool.and_eq_true, decide_eq_true_eq] at hp
      rw [validateLoop.eq_3, if_neg h0, if_neg (by omega), if_neg (by simp [hs'])]
      exact validateLoop_typed n cs (fun x hx => hg x (List.mem_cons_of_mem _ hx))
        (by simp at hn; omega)

/-- A pass whose read loop ends on a read error calls nothing. -/
theorem shellPass_retry {user : Option ShellUser} {buf : Nat → Char} {input : List ReadResult}
    {r : LineRead} (h : readLine buf 0 input = some r) (he : r.readError ≠ errSuccess) :
    (shellPass user buf input).map (·.outcome) = some .retry := by
  rw [shellPass, h, Option.map_some', Option.map_some', if_pos he]

/-- A pass whose read loop ends without error on a buffer holding a line of typed characters
acts on that line. -/
theorem shellPass_accept {user : Option ShellUser} {buf : Nat → Char} {input : List ReadResult}
    {r : LineRead} (h : readLine buf 0 input = some r) (he : r.readError = errSuccess)
    {l : List Char} (hl : cStr (commandCells r.buffer) = l) (hg : ∀ c ∈ l, Typed c) :
    (shellPass user buf input).map (·.outcome) = some (lineOutcome l) := by
  have hv : validateShellInput (commandCells r.buffer) maxCommandLength = .ok () :=
    validateLoop_typed _ _ (hl ▸ hg)
      ((List.takeWhile_sublist _).length_le.trans (by simp [commandCells]))
  rw [shellPass, h, Option.map_some', if_neg (not_not.mpr he)]
  dsimp only
  rw [hv, hl, lineOutcome]
  split_ifs <;> rfl

/-- A line of ordinary keys that never reaches 127 characters runs nothing when a read
error ends it, and runs exactly the edited line when CR or LF ends it, whatever the buffer
held before. -/
theorem line_end_outcome (user : Option ShellUser) (buf : Nat → Char) (keys : List Char)
    (hk : ∀ c ∈ keys, Ordinary c)
    (hb : ∀ n ≤ keys.length, (typedLine (keys.take n)).length < maxCommandLength - 1)
    (r : ReadResult) (hr : r.code ≠ errSuccess ∨ r.c = '\n' ∨ r.c = '\r')
    (rest : List ReadResult) :
    (shellPass user buf (keys.map keyPress ++ r :: rest)).map (·.outcome) =
      some (if r.code ≠ errSuccess then .retry else lineOutcome (typedLine keys)) := by
  have hb' : ∀ n, (typedLine (keys.take n)).length ≤ maxCommandLength - 2 := fun n => by
    rcases le_or_lt n keys.length with h | h
    · exact Nat.le_pred_of_lt (hb n h)
    · rw [List.take_of_length_le h.le]
      exact Nat.le_pred_of_lt (by simpa using hb keys.length le_rfl)
  obtain ⟨buf', e, hs, -, hrl⟩ :=
    @readLine_keys (maxCommandLength - 2) (by decide) keys hk [] buf rfl hb' (r :: rest)
  have hrl : readLine buf 0 (keys.map keyPress ++ r :: rest) = _ := hrl
  by_cases he : r.code = errSuccess
  · have hnl : r.c = '\n' ∨ r.c = '\r' := hr.resolve_left (not_not.mpr he)
    have hn : (typedLine keys).length < maxCommandLength := by
      have := hb keys.length le_rfl; simp only [List.take_length] at this; omega
    rw [readLine, if_neg (not_not.mpr he), if_neg (fun hb => by rcases hnl with h | h <;> rw [h] at hb <;> exact absurd hb.1 (by decide)), if_pos hnl] at hrl
    rw [if_neg (not_not.mpr he)]
    exact shellPass_accept hrl he ((hs.setAt_ge le_rfl _).string (setAt_same _ _ _) hn
        (fun c hc => (printable_ne (foldl_typeKey_typed hk (by simp) c hc).1).1))
      (foldl_typeKey_typed hk (by simp))
  · rw [readLine, if_pos he] at hrl
    rw [if_pos he]
    exact shellPass_retry hrl he

theorem edited_line_runs :
    (∀ c ∈ "ab\x08c".toList, Ordinary c) ∧
      (∀ n ≤ "ab\x08c".toList.length,
        (typedLine ("ab\x08c".toList.take n)).length < maxCommandLength - 1) ∧
      ((keyPress '\n').code ≠ errSuccess ∨ (keyPress '\n').c = '\n' ∨ (keyPress '\n').c = '\r') ∧
      (shellPass none (fun _ => 'x') ("ab\x08c".toList.map keyPress ++ [keyPress '\n'])).map
          (·.outcome) =
        some (if (keyPress '\n').code ≠ errSuccess then .retry
          else lineOutcome (typedLine "ab\x08c".toList)) :=
  ⟨by decide, by decide, by decide,
    line_end_outcome none _ _ (by decide) (by decide) (keyPress '\n') (by decide) []⟩

theorem shellPass_suspicious (user : Option ShellUser) (buf : Nat → Char) (w : List Char)
    (hw : ∀ c ∈ w, Typed c) (hlen : w.length < maxCommandLength - 1)
    (hend : buf w.length = '\x00') (s : Char) (hs : isSuspiciousKey s = true)
    (rest : List ReadResult) :
    (shellPass user buf ((w ++ [s]).map keyPress ++ rest)).map (·.outcome) =
      some (lineOutcome w) := by
  have hwp : ∀ c ∈ w, isPrintable c = true := fun c hc => (hw c hc).1
  have hfold : ∀ v : List Char, v <+: w → v.foldl typeKey [] = v := fun v hv =>
    foldl_typeKey_printable (fun c hc => hwp c (hv.subset hc)) []
  obtain ⟨buf', e, hsp, hf, hrl⟩ :=
    @readLine_keys w.length hlen w (fun c hc => (hw c hc).ordinary) [] buf rfl
    (fun n => by rw [hfold _ (List.take_prefix n w)]; exact (List.take_sublist n w).length_le)
    (keyPress s :: rest)
  rw [hfold w (List.prefix_refl w)] at hsp hrl
  have hp := suspiciousKey_printable hs
  have hrl : readLine buf 0 (w.map keyPress ++ keyPress s :: rest) = _ := hrl
  rw [readLine] at hrl
  dsimp only [keyPress] at hrl
  rw [if_neg (not_not.mpr rfl), if_neg (fun h => (printable_ne hp).2.1 h.1),
    if_neg (fun h => h.elim (printable_ne hp).2.2.1 (printable_ne hp).2.2.2),
    if_pos ⟨hlen, hp, hs⟩] at hrl
  rw [List.map_append, List.map_singleton, List.append_assoc, List.singleton_append]
  exact shellPass_accept hrl rfl
    (hsp.string (hf w.length le_rfl ▸ hend) (by omega) fun c hc => (printable_ne (hwp c hc)).1) hw

/-- Over a stream that holds no suspicious key, the read loop started on a buffer that spells
a line `l` of typed characters reads a prefix `line` of the stream. It stops on the first
read error, or it stops without one with the buffer holding, as a string, `l` edited by the
keys of `line`. -/
theorem readLine_clean (input : List ReadResult) (hs : ∀ x ∈ input, isSuspiciousKey x.c = false) :
    ∀ {buf : Nat → Char} {l : List Char}, Spells buf l → (∀ c ∈ l, Typed c) →
      l.length < maxCommandLength - 1 → ∀ {r : LineRead}, readLine buf l.length input = some r →
      ∃ line, input = line ++ r.rest ∧
        ((∃ x ∈ line, x.code ≠ errSuccess) ∧ r.readError ≠ errSuccess ∨
          (∀ x ∈ line, x.code = errSuccess) ∧ r.readError = errSuccess ∧
            cStr (commandCells r.buffer) = (line.map (·.c)).foldl typeKey l ∧
            ∀ c ∈ (line.map (·.c)).foldl typeKey l, Typed c) := by
  induction input with
  | nil => intro _ _ _ _ _ _ hr; cases hr
  | cons x xs ih =>
    intro buf l hsp hl hlen r hr
    obtain ⟨c, code⟩ := x
    have hc : isSuspiciousKey c = false := hs ⟨c, code⟩ (List.mem_cons_self _ _)
    have hnul : ∀ c ∈ l, c ≠ '\x00' := fun c hc => (printable_ne (hl c hc).1).1
    by_cases he : code = errSuccess
    case neg =>
      rw [readLine, if_pos he] at hr
      cases hr
      exact ⟨[⟨c, code⟩], rfl, .inl ⟨⟨_, List.mem_singleton_self _, he⟩, he⟩⟩
    subst he
    by_cases hn : c = '\n' ∨ c = '\r'
    case pos =>
      have hnb : ¬(c = '\x08' ∧ 0 < l.length) := fun h => by
        rcases hn with rfl | rfl <;> exact absurd h.1 (by decide)
      have ht : typeKey l c = l := by
        rcases hn with rfl | rfl <;> rfl
      rw [readLine] at hr
      dsimp only at hr
      rw [if_neg (not_not.mpr rfl), if_neg hnb, if_pos hn] at hr
      cases hr
      refine ⟨[⟨c, errSuccess⟩], rfl, .inr ⟨by simp, rfl, ?_, ?_⟩⟩
      · rw [List.map_singleton, List.foldl_cons, List.foldl_nil, ht]
        exact (hsp.setAt_ge le_rfl _).string (setAt_same _ _ _) (by omega) hnul
      · rw [List.map_singleton, List.foldl_cons, List.foldl_nil, ht]; exact hl
    have hord : Ordinary c := ⟨fun h => hn (.inl h), fun h => hn (.inr h), hc⟩
    by_cases hfit : (typeKey l c).length < maxCommandLength - 1
    case pos =>
      obtain ⟨buf', e, hsp', -, hrl⟩ := readLine_key hsp hord hlen hfit xs
      rw [show (⟨c, errSuccess⟩ : ReadResult) = keyPress c from rfl, hrl] at hr
      obtain ⟨r', hr', rfl⟩ := Option.map_eq_some'.1 hr
      obtain ⟨line, hxs, h⟩ :=
        ih (fun y hy => hs y (List.mem_cons_of_mem _ hy)) hsp' (typeKey_typed hl hc) hfit hr'
      refine ⟨keyPress c :: line, by rw [hxs]; rfl, ?_⟩
      rcases h with ⟨⟨y, hy, hye⟩, he'⟩ | ⟨hok, he', hstr, hty⟩
      · exact .inl ⟨⟨y, List.mem_cons_of_mem _ hy, hye⟩, he'⟩
      · exact .inr ⟨List.forall_mem_cons.2 ⟨rfl, hok⟩, he', hstr, hty⟩
    -- the key fills the line to 127 characters
    have hp : isPrintable c = true := by
      by_contra hp
      have : (typeKey l c).length ≤ l.length := by
        unfold typeKey; split_ifs <;> simp
      omega
    have ht : typeKey l c = l ++ [c] := by rw [typeKey, if_neg (printable_ne hp).2.1, if_pos hp]
    rw [ht, List.length_append, List.length_singleton] at hfit
    rw [readLine] at hr
    dsimp only at hr
    rw [if_neg (not_not.mpr rfl), if_neg (fun h => (printable_ne hp).2.1 h.1), if_neg hn,
      if_neg (by simp [hc])] at hr
    simp only [hlen, hp, and_self, if_true] at hr
    rw [if_pos (by omega)] at hr
    cases hr
    refine ⟨[keyPress c], rfl, .inr ⟨by simp [keyPress], rfl, ?_, ?_⟩⟩ <;> dsimp only [keyPress]
    · rw [List.map_singleton, List.foldl_cons, List.foldl_nil, ht,
        show l.length + 1 = (l ++ [c]).length by simp]
      exact ((hsp.append c).setAt_ge le_rfl _).string (setAt_same _ _ _) (by simp; omega)
        (by simpa [or_imp, forall_and] using ⟨hnul, (printable_ne hp).1⟩)
    · rw [List.map_singleton, List.foldl_cons, List.foldl_nil]
      exact typeKey_typed hl hc

/-- Every pass hands on the results it did not read. -/
theorem shellPass_rest {user : Option ShellUser} {buf : Nat → Char} {input : List ReadResult}
    {r : LineRead} (h : readLine buf 0 input = some r) :
    (shellPass user buf input).map (·.rest) = some r.rest := by
  rw [shellPass, h, Option.map_some', Option.map_some']
  split_ifs
  · rfl
  · dsimp only
    split <;> (try split_ifs) <;> rfl

/-- Over a stream without suspicious keys, a pass that ends reads a prefix `line` of the
stream and calls nothing when a read error cut it; otherwise it takes the exit branch or
calls {execute_command} on the line edited by the keys of `line`, whatever the buffer held
before. -/
theorem shellPass_clean (user : Option ShellUser) (buf : Nat → Char) {input : List ReadResult}
    (hs : ∀ x ∈ input, isSuspiciousKey x.c = false) {p : Pass}
    (hp : shellPass user buf input = some p) :
    ∃ line, input = line ++ p.rest ∧
      p.outcome = if ∃ x ∈ line, x.code ≠ errSuccess then .retry
        else lineOutcome (typedLine (line.map (·.c))) := by
  obtain ⟨r, hr, -⟩ := Option.map_eq_some'.1 hp
  obtain ⟨line, hin, h⟩ := @readLine_clean input hs buf [] rfl (by simp) (by decide) r hr
  have hrest := @shellPass_rest user buf input r hr
  rw [hp, Option.map_some', Option.some_inj] at hrest
  refine ⟨line, hrest ▸ hin, ?_⟩
  rcases h with ⟨hex, he⟩ | ⟨hok, he, hstr, hty⟩
  · have ho := @shellPass_retry user buf input r hr he
    rw [hp, Option.map_some', Option.some_inj] at ho
    rw [ho, if_pos hex]
  · have ho := @shellPass_accept user buf input r hr he _ hstr hty
    rw [hp, Option.map_some', Option.some_inj] at ho
    rw [ho, if_neg (fun ⟨x, hx, hxe⟩ => hxe (hok x hx))]
    rfl

/-- A pass that calls {execute_command} clears the buffer after it. -/
theorem shellPass_clears {user : Option ShellUser} {buf : Nat → Char} {input : List ReadResult}
    {p : Pass} (h : shellPass user buf input = some p) {l : List Char}
    (ho : p.outcome = .execute l) {i : Nat} (hi : i < maxCommandLength) : p.buffer i = '\x00' := by
  unfold shellPass at h
  obtain ⟨r, -, rfl⟩ := Option.map_eq_some'.1 h
  dsimp only at ho ⊢
  by_cases he : r.readError ≠ errSuccess
  · rw [if_pos he] at ho; simp at ho
  rw [if_neg he] at ho ⊢
  cases hv : validateShellInput (commandCells r.buffer) maxCommandLength with
  | error e => rw [hv] at ho; obtain ⟨e, d⟩ := e; simp at ho
  | ok u =>
    rw [hv] at ho
    obtain ⟨⟩ := u
    dsimp only at ho ⊢
    by_cases hx : cStr (commandCells r.buffer) = "exit".toList
    · rw [if_pos hx] at ho; simp at ho
    · rw [if_neg hx]
      exact (foldl_setAt_range (fun _ => '\x00') r.buffer maxCommandLength i).trans (if_pos hi)

/-- A pass that ran a command leaves the buffer cleared, so in the next pass, whoever the
principal is, a word typed before a suspicious key is still run. -/
theorem suspicious_key_after_command (user : Option ShellUser) (buf : Nat → Char)
    (input : List ReadResult) (l : List Char)
    (hx : (shellPass user buf input).map (·.outcome) = some (.execute l))
    (user' : Option ShellUser) (w : List Char) (hw : ∀ c ∈ w, Typed c)
    (hlen : w.length < maxCommandLength - 1) (s : Char) (hs : isSuspiciousKey s = true)
    (rest : List ReadResult) :
    ((shellPass user buf input).bind fun p =>
        shellPass user' p.buffer ((w ++ [s]).map keyPress ++ rest)).map (·.outcome) =
      some (lineOutcome w) := by
  obtain ⟨p, hp, ho⟩ := Option.map_eq_some'.1 hx
  rw [hp, Option.some_bind]
  exact shellPass_suspicious user' p.buffer w hw hlen (shellPass_clears hp ho (by omega)) s hs rest

theorem help_then_exit_semicolon :
    (shellPass none (fun _ => 'x') ("help".toList.map keyPress ++ [keyPress '\n'])).map
        (·.outcome) = some (.execute "help".toList) ∧
      (∀ c ∈ "exit".toList, Typed c) ∧ "exit".toList.length < maxCommandLength - 1 ∧
      isSuspiciousKey ';' = true ∧
      ((shellPass none (fun _ => 'x') ("help".toList.map keyPress ++ [keyPress '\n'])).bind
          fun p => shellPass none p.buffer (("exit".toList ++ [';']).map keyPress ++ [])).map
        (·.outcome) = some (lineOutcome "exit".toList) :=
  ⟨by decide, by decide, by decide, rfl,
    suspicious_key_after_command none (fun _ => 'x') ("help".toList.map keyPress ++ [keyPress '\n'])
      "help".toList (by decide) none "exit".toList (by decide) (by decide) ';' rfl []⟩

end MiniKernel.Shell
