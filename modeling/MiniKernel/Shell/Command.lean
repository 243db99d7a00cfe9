import Mathlib.Data.List.Basic
import Mathlib.Data.List.Infix

/-! How `shell.c` turns a command line into a call of a built-in command: the line is
sanitized to safe characters, validated, checked for injection patterns, cut into
arguments, and dispatched through the command table once the current principal may run
commands.

A `char *` is the list of memory cells from the pointer on; the string ends at the first
`'\x00'` cell or at the end of the list, and every loop tests for it where the source tests
`*ptr`. What the functions print and log is kept as a list of `Effect`s; the handlers
themselves are not modelled, only which one is called and with which arguments.
`handler_sees_sanitized_words` shows that a handler only runs for an active principal of at
least `PRIVILEGE_USER`, on exactly the space-separated words of the sanitized line. -/

namespace MiniKernel.Shell

def maxCommandLength : Nat := 128
def maxArgs : Nat := 16

/-- `PRIVILEGE_USER` of `privilege_level_t`. -/
def privilegeUser : Nat := 1

/-- The fields of `user_t` the shell reads. -/
structure ShellUser where
  username : List Char
  privilege : Nat
  isActive : Bool
  deriving DecidableEq, Repr

/-- What the shell prints, and what it logs through the security subsystem:
`security_log_security_violation` (also behind `log_shell_security_event`) and
`security_log_event`. -/
inductive Effect
  | print (text : String)
  | printChar (c : Char)
  | violation (event details : String)
  | event (event details : String)
  deriving DecidableEq, Repr

/-- `security_check_permission (user, required_privilege)`. -/
def securityCheckPermission (user : Option ShellUser) (required : Nat) : Bool :=
  match user with
  | none => false
  | some u => u.isActive && decide (required ≤ u.privilege)

/-- The string at a pointer: the cells before the first `'\x00'`. -/
def cStr (cells : List Char) : List Char := cells.takeWhile (· ≠ '\x00')

/-! ## Validation and sanitizing -/

/-- The characters `validate_shell_input` rejects as injection attempts. -/
def isSuspicious (c : Char) : Bool :=
  c = ';' || c = '|' || c = '&' || c = '\x60' || c = '$'

/-- The loop of `validate_shell_input`, with room for `n` more characters: `.error` carries
the event it logs before returning `false`. -/
def validateLoop : Nat → List Char → Except (String × String) Unit
  | _, [] => .ok ()
  | n, c :: cs =>
    if c = '\x00' then .ok ()
    else match n with
      | 0 => .error ("BUFFER_OVERFLOW_ATTEMPT", "Input exceeds maximum length")
      | n + 1 =>
        if (c.toNat < 32 ∨ 126 < c.toNat) ∧ c ≠ '\n' ∧ c ≠ '\r' ∧ c ≠ '\t' then
          .error ("INVALID_CHARACTER", "Non-printable character detected")
        else if isSuspicious c then
          .error ("SUSPICIOUS_PATTERN", "Potential command injection detected")
        else validateLoop n cs

/-- `validate_shell_input (input, max_length)` on a non-null `input`. -/
def validateShellInput (input : List Char) (maxLength : Nat) : Except (String × String) Unit :=
  validateLoop maxLength input

/-- The characters `sanitize_shell_command` keeps. -/
def isSafeChar (c : Char) : Bool :=
  ('a' ≤ c && c ≤ 'z') || ('A' ≤ c && c ≤ 'Z') || ('0' ≤ c && c ≤ '9') ||
    c = ' ' || c = '-' || c = '_' || c = '.' || c = '/'

/-- The copy loop of `sanitize_shell_command`, with room for `n` more characters: safe
characters are copied, a CR or LF ends the command, anything else is skipped. -/
def sanitizeLoop : Nat → List Char → List Char
  | _, [] => []
  | 0, _ => []
  | n + 1, c :: cs =>
    if c = '\x00' then []
    else if isSafeChar c then c :: sanitizeLoop n cs
    else if c = '\n' ∨ c = '\r' then []
    else sanitizeLoop (n + 1) cs

/-- `sanitize_shell_command (output, input, max_length)` on non-null pointers: the string
written to `output`, and whether it is non-empty. -/
def sanitizeShellCommand (input : List Char) (maxLength : Nat) : List Char × Bool :=
  let out := sanitizeLoop (maxLength - 1) input
  (out, decide (0 < out.length))

/-- `dangerous_patterns` of `check_command_injection`. -/
def dangerousPatterns : List (List Char) :=
  [";", "|", "&&", "||", "\x60", "$(", "<", ">", "&"].map String.toList

/-- `check_command_injection (input)`: some pattern occurs in the string (`strstr`). -/
def checkCommandInjection (input : List Char) : Bool :=
  dangerousPatterns.any fun p => decide (p <:+: cStr input)

/-! ## Parsing and dispatch -/

def isBlank (c : Char) : Bool := c = ' ' || c = '\t'

/-- The argument loop of `parse_command` on a string, while `n` more arguments fit: skip
blanks, take the argument up to the next blank, and cut the string there. -/
def tokenize : Nat → List Char → List (List Char)
  | 0, _ => []
  | n + 1, s =>
    match s.dropWhile isBlank with
    | [] => []
    | c :: rest =>
      (c :: rest).takeWhile (!isBlank ·) :: tokenize n (((c :: rest).dropWhile (!isBlank ·)).drop 1)

/-- `parse_command (input, argv, &argc)`: the arguments, and what it prints and logs. Every
loop stops at the first `'\x00'`, so the argument loop runs on the string `cStr input`. -/
def parseCommand (input : List Char) : List (List Char) × List Effect :=
  match validateShellInput input maxCommandLength with
  | .error (e, d) => ([], [.violation e d, .print "Error: Invalid command input detected\n"])
  | .ok () =>
    if checkCommandInjection input then
      ([], [.print "Error: Command injection attempt detected\n",
        .violation "COMMAND_INJECTION" "Potential command injection in parse_command"])
    else (tokenize maxArgs (cStr input), [])

/-- The built-in commands. -/
inductive Command
  | help
  | exit
  | clear
  | echo
  | panic
  deriving DecidableEq, Repr

/-- The `name` column of `commands[]`. -/
def Command.name : Command → List Char
  | .help => "help".toList
  | .exit => "exit".toList
  | .clear => "clear".toList
  | .echo => "echo".toList
  | .panic => "panic".toList

/-- `commands[]`, in its order. -/
def commands : List Command := [.help, .exit, .clear, .echo, .panic]

/-- The lookup loop of `execute_command`: the first entry whose name is `strcmp`-equal to
`name`. -/
def findCommand (name : List Char) : Option Command :=
  commands.find? fun c => c.name = name

/-- The argument check of `execute_command`: the event `validate_shell_input` logs for the
first argument it refuses. -/
def firstInvalid : List (List Char) → Option (String × String)
  | [] => none
  | a :: as =>
    match validateShellInput a maxCommandLength with
    | .error e => some e
    | .ok () => firstInvalid as

/-- `execute_command (command_line)` as `user`: the handler it calls with its arguments,
if any, and what it prints and logs before the handler runs. -/
def executeCommand (user : Option ShellUser) (commandLine : Option (List Char)) :
    Option (Command × List (List Char)) × List Effect :=
  match user, commandLine with
  | none, _ => (none, [.print "Error: No authenticated user. Please log in first.\n"])
  | some _, none =>
    (none, [.print "Error: Invalid command input\n",
      .violation "NULL_COMMAND" "Null command line pointer"])
  | some _, some line =>
    let (san, ok) := sanitizeShellCommand line maxCommandLength
    if !ok then
      (none, [.print "Error: Command sanitization failed\n",
        .violation "SANITIZATION_FAILED" "Failed to sanitize command"])
    else
      let (argv, eff) := parseCommand san
      match argv with
      | [] => (none, eff)
      | arg0 :: _ =>
        if maxArgs ≤ argv.length then
          (none, eff ++ [.print "Error: Too many arguments (maximum is ",
            .print (toString (maxArgs - 1)), .print ")\n",
            .violation "TOO_MANY_ARGS" "Exceeded maximum argument count"])
        else
          match firstInvalid argv with
          | some (e, d) =>
            (none, eff ++ [.violation e d, .print "Error: Invalid argument detected\n",
              .violation "INVALID_ARGUMENT" "Invalid command argument"])
          | none =>
            if !securityCheckPermission user privilegeUser then
              (none, eff ++ [.print "Error: Insufficient privileges to execute commands\n",
                .violation "PERMISSION_DENIED" "User lacks permission to execute commands"])
            else
              match findCommand arg0 with
              | some cmd => (some (cmd, argv), eff ++ [.event "COMMAND_EXECUTION" (String.mk arg0)])
              | none =>
                (none, eff ++ [.print "Error: Unknown command \x27", .print (String.mk arg0),
                  .print "\x27\nType \x27help\x27 for available commands.\n",
                  .violation "UNKNOWN_COMMAND" (String.mk arg0)])

/-! ## The specification of the arguments -/

/-- The sanitized form of a line: the characters before the first CR or LF that are safe, in
order, at most {MAX_COMMAND_LENGTH - 1} of them. -/
def sanitizedLine (s : List Char) : List Char :=
  ((s.takeWhile fun c => c ≠ '\n' ∧ c ≠ '\r').filter isSafeChar).take (maxCommandLength - 1)

/-- The space-separated words of a line. -/
def words (s : List Char) : List (List Char) := (s.splitOn ' ').filter (!·.isEmpty)

theorem safe_ne {c : Char} (h : isSafeChar c = true) :
    c ≠ '\x00' ∧ c ≠ '\n' ∧ c ≠ '\r' ∧ c ≠ '\t' := by
  refine ⟨?_, ?_, ?_, ?_⟩ <;> rintro rfl <;> exact absurd h (by decide)

theorem cStr_cons {c : Char} (hc : c ≠ '\x00') (cs : List Char) : cStr (c :: cs) = c :: cStr cs := by
  simp [cStr, hc]

theorem cStr_of_safe {s : List Char} (h : ∀ c ∈ s, isSafeChar c = true) : cStr s = s := by
  induction s with
  | nil => rfl
  | cons c cs ih =>
    rw [cStr_cons (safe_ne (h c (List.mem_cons_self _ _))).1,
      ih fun d hd => h d (List.mem_cons_of_mem _ hd)]

/-- The copy loop keeps the safe characters of the string before its first CR or LF, up to
its room. -/
theorem sanitizeLoop_eq (n : Nat) (s : List Char) :
    sanitizeLoop n s =
      (((cStr s).takeWhile fun c => c ≠ '\n' ∧ c ≠ '\r').filter isSafeChar).take n := by
  induction s generalizing n with
  | nil => cases n <;> rfl
  | cons c cs ih =>
    cases n with
    | zero => simp [sanitizeLoop]
    | succ n =>
      by_cases h0 : c = '\x00'
      · simp [sanitizeLoop, h0, cStr]
      rw [sanitizeLoop, if_neg h0, cStr_cons h0]
      by_cases hs : isSafeChar c = true
      · obtain ⟨-, hn, hr, -⟩ := safe_ne hs
        simp [hs, hn, hr, ih]
      · by_cases hl : c = '\n' ∨ c = '\r'
        · rcases hl with rfl | rfl <;> simpa using hs
        · rw [not_or] at hl
          simp [hs, hl.1, hl.2, ih]

theorem sanitizeShellCommand_fst (s : List Char) :
    (sanitizeShellCommand s maxCommandLength).1 = sanitizedLine (cStr s) :=
  sanitizeLoop_eq _ _

theorem safe_of_mem_sanitizedLine {s : List Char} {c : Char} (h : c ∈ sanitizedLine s) :
    isSafeChar c = true :=
  (List.mem_filter.1 (List.mem_of_mem_take h)).2

/-! ### Words -/

@[simp] theorem words_nil : words [] = [] := rfl

theorem words_space (s : List Char) : words (' ' :: s) = words s := by
  simp [words, List.splitOn, List.splitOnP_cons]

/-- A word ends at a space. -/
theorem words_word_space {w : List Char} (hw : w ≠ []) (hs : ∀ c ∈ w, c ≠ ' ')
    (s : List Char) : words (w ++ ' ' :: s) = w :: words s := by
  rw [words, List.splitOn, List.splitOnP_first (· == ' ') w (fun c hc => by simpa using hs c hc) ' ' (by simp)]
  simp [hw, words, List.splitOn]

/-- A word ends the line. -/
theorem words_word {w : List Char} (hw : w ≠ []) (hs : ∀ c ∈ w, c ≠ ' ') : words w = [w] := by
  rw [words, List.splitOn, List.splitOnP_eq_single (· == ' ') w (fun c hc => by simpa using hs c hc)]
  simp [hw]

theorem space_of_blank {c : Char} (hb : isBlank c = true) (ht : c ≠ '\t') : c = ' ' := by
  simp only [isBlank, Bool.or_eq_true, decide_eq_true_eq] at hb
  exact hb.resolve_right ht

theorem words_blanks {s : List Char} (h : ∀ c ∈ s, c ≠ '\t') :
    words s = words (s.dropWhile isBlank) := by
  induction s with
  | nil => rfl
  | cons c cs ih =>
    by_cases hb : isBlank c = true
    · obtain rfl := space_of_blank hb (h c (List.mem_cons_self _ _))
      rw [words_space, List.dropWhile_cons_of_pos hb, ih fun d hd => h d (List.mem_cons_of_mem _ hd)]
    · rw [List.dropWhile_cons_of_neg hb]

/-- The argument loop finds the words of a string without tabs, as many as fit. -/
theorem tokenize_eq (n : Nat) {s : List Char} (h : ∀ c ∈ s, c ≠ '\t') :
    tokenize n s = (words s).take n := by
  induction n generalizing s with
  | zero => rfl
  | succ n ih =>
    rw [tokenize, words_blanks h]
    have hd : ∀ c ∈ s.dropWhile isBlank, c ≠ '\t' := fun c hc => h c ((List.dropWhile_sublist _).subset hc)
    split
    · next he => rw [he]; rfl
    · next c rest he =>
      rw [he] at hd ⊢
      have hc : isBlank c = false := by
        have := List.head_dropWhile_not isBlank s (by rw [he]; simp)
        simpa [he] using this
      set w := (c :: rest).takeWhile (!isBlank ·)
      have hw : w ≠ [] := by simp [w, hc]
      have hws : ∀ d ∈ w, d ≠ ' ' := fun d hd' => by
        have := List.mem_takeWhile_imp hd'
        intro e; subst e; simp [isBlank] at this
      have hsplit := List.takeWhile_append_dropWhile (!isBlank ·) (c :: rest)
      cases hafter : (c :: rest).dropWhile (!isBlank ·) with
      | nil =>
        rw [hafter] at hsplit
        rw [← hsplit, List.append_nil, words_word hw hws, List.drop_nil, ih (by simp)]
        cases n <;> rfl
      | cons d ds =>
        have hdb : isBlank d = true := by
          have := List.head_dropWhile_not (!isBlank ·) (c :: rest) (by rw [hafter]; simp)
          simpa [hafter] using this
        obtain rfl := space_of_blank hdb (hd d (by rw [← hsplit, hafter]; simp))
        rw [hafter] at hsplit
        rw [← hsplit, words_word_space hw hws, List.drop_one, List.tail_cons,
          ih fun e he' => hd e (by rw [← hsplit]; simp [he'])]
        rfl

theorem tokenize_sublist {n : Nat} {s t : List Char} (h : t ∈ tokenize n s) :
    List.Sublist t s := by
  induction n generalizing s with
  | zero => simp [tokenize] at h
  | succ n ih =>
    rw [tokenize] at h
    split at h
    · simp at h
    · next c rest he =>
      have hsub : List.Sublist (c :: rest) s := he ▸ List.dropWhile_sublist _
      rcases List.mem_cons.1 h with rfl | h
      · exact (List.takeWhile_sublist _).trans hsub
      · exact (ih h).trans (((List.drop_sublist _ _).trans (List.dropWhile_sublist _)).trans hsub)

/-! ## Dispatch -/

theorem parseCommand_fst (s : List Char) :
    (parseCommand s).1 = [] ∨ (parseCommand s).1 = tokenize maxArgs (cStr s) := by
  unfold parseCommand
  split
  · exact .inl rfl
  · split
    · exact .inl rfl
    · exact .inr rfl

theorem findCommand_some {name : List Char} {cmd : Command} (h : findCommand name = some cmd) :
    cmd.name = name ∧ cmd ∈ commands :=
  ⟨by simpa using List.find?_some h, List.mem_of_find?_eq_some h⟩

/-- Everything {execute_command} checks before it calls a handler. -/
theorem executeCommand_some {user : Option ShellUser} {line : List Char} {cmd : Command}
    {argv : List (List Char)} (h : (executeCommand user (some line)).1 = some (cmd, argv)) :
    securityCheckPermission user privilegeUser = true ∧
    (parseCommand (sanitizeShellCommand line maxCommandLength).1).1 = argv ∧
    argv.length < maxArgs ∧ ∃ arg0 rest, argv = arg0 :: rest ∧ findCommand arg0 = some cmd := by
  unfold executeCommand at h
  -- every branch but the last returns no handler
  repeat' (first | (cases h; done) | split at h)
  rename_i _ _ hline _ _ _ hsan _ _ _ _ arg0 rest hparse hlen _ _ hperm _ _ hfind
  obtain ⟨rfl, rfl⟩ := Prod.mk.inj (Option.some.inj h)
  cases hline
  exact ⟨by simpa using hperm, by rw [hsan, hparse], by omega, arg0, rest, rfl, hfind⟩

theorem securityCheckPermission_true {user : Option ShellUser} {r : Nat}
    (h : securityCheckPermission user r = true) :
    ∃ u, user = some u ∧ u.isActive = true ∧ r ≤ u.privilege := by
  cases user with
  | none => cases h
  | some u => simp only [securityCheckPermission, Bool.and_eq_true, decide_eq_true_eq] at h; exact ⟨u, rfl, h⟩

/-- A handler runs only for an active principal of at least {PRIVILEGE_USER}, and its
arguments are exactly the space-separated words of the sanitized line, one to fifteen of
them, the first its own name: no argument holds a character outside the safe set. -/
theorem handler_sees_sanitized_words {user : Option ShellUser} {line : List Char}
    {cmd : Command} {argv : List (List Char)}
    (h : (executeCommand user (some line)).1 = some (cmd, argv)) :
    (∃ u, user = some u ∧ u.isActive = true ∧ privilegeUser ≤ u.privilege) ∧
    argv = words (sanitizedLine (cStr line)) ∧ 1 ≤ argv.length ∧ argv.length ≤ maxArgs - 1 ∧
    argv.head? = some cmd.name ∧ cmd ∈ commands ∧ ∀ a ∈ argv, ∀ c ∈ a, isSafeChar c = true := by
  obtain ⟨hperm, hparse, hlen, arg0, rest, rfl, hfind⟩ := executeCommand_some h
  obtain ⟨hname, hmem⟩ := findCommand_some hfind
  have hsafe : ∀ c ∈ sanitizedLine (cStr line), isSafeChar c = true :=
    fun c hc => safe_of_mem_sanitizedLine hc
  rw [sanitizeShellCommand_fst] at hparse
  have htok : tokenize maxArgs (sanitizedLine (cStr line)) = arg0 :: rest := by
    rcases parseCommand_fst (sanitizedLine (cStr line)) with h0 | h1
    · rw [h0] at hparse; cases hparse
    · rw [← hparse, h1, cStr_of_safe hsafe]
  have hw := tokenize_eq maxArgs
    (show ∀ c ∈ sanitizedLine (cStr line), c ≠ '\t' from fun c hc => (safe_ne (hsafe c hc)).2.2.2)
  rw [htok] at hw
  have hwl : (words (sanitizedLine (cStr line))).length ≤ maxArgs := by
    have := congrArg List.length hw
    rw [List.length_take] at this
    omega
  refine ⟨securityCheckPermission_true hperm, by rw [hw, List.take_of_length_le hwl],
    by simp, by simp only [maxArgs] at hlen ⊢; omega, by simp [hname], hmem,
    fun a ha c hc => hsafe c ((tokenize_sublist (htok ▸ ha)).subset hc)⟩

theorem echo_line_words :
    let user : Option ShellUser := some ⟨"root".toList, 1, true⟩
    let line := "echo a;b  c\nrm x".toList
    let argv := ["echo".toList, "ab".toList, "c".toList]
    (executeCommand user (some line)).1 = some (.echo, argv) ∧
    ((∃ u, user = some u ∧ u.isActive = true ∧ privilegeUser ≤ u.privilege) ∧
      argv = words (sanitizedLine (cStr line)) ∧ 1 ≤ argv.length ∧ argv.length ≤ maxArgs - 1 ∧
      argv.head? = some Command.echo.name ∧ Command.echo ∈ commands ∧
      ∀ a ∈ argv, ∀ c ∈ a, isSafeChar c = true) :=
  ⟨by decide, handler_sees_sanitized_words (by decide)⟩

end MiniKernel.Shell
