import MiniKernel.Security.Accounts
import MiniKernel.Console.Keyboard

/-! The start of `run_shell`, up to its command loop: `security_init`, the banner, and the
authentication loop of at most `MAX_AUTH_ATTEMPTS` attempts, each reading a user name and a
password key by key through `read_char ()`. A run is a function of the security state it
starts from and of the characters `read_char` returns, in order; `none` means that they ran out
before the loop ended. `OS_NAME` is not among the sources and stays a parameter.

* `runShellLogin_readChar`: `read_char` returns `0` at once on every call, so the user-name
  loop never sees the end of a line and the login never ends;
* `runShellLogin_denied`: whatever keys it is given, when no run before it has called
  `security_create_user` the login never lets anyone in. -/

namespace MiniKernel.Shell

open MiniKernel.Security MiniKernel.Console

/-- `const int MAX_AUTH_ATTEMPTS`. -/
def maxAuthAttempts : Nat := 3

/-- `int_to_string (value, buffer)` on an `int32_t`; `-value` leaves `INT32_MIN` negative, so
it comes out as a lone `'-'`. -/
def intToString (value : Int) : List Char :=
  if value = 0 then ['0']
  else if value = -2147483648 then ['-']
  else if value < 0 then '-' :: (lowDigits 10 value.natAbs).reverse
  else (lowDigits 10 value.natAbs).reverse

/-- A key loop of the login: keys up to `'\n'` or `'\r'`, of which the printable ones are kept
while fewer than `maxLength - 1` are, each echoed as `echo c`. Returns the string, what was
printed, and the keys left; `none` when the keys run out first. -/
def readField (maxLength : Nat) (echo : Char → Char) (typed : List Char) :
    List Char → Option (List Char × List Effect × List Char)
  | [] => none
  | c :: keys =>
    if c = '\n' ∨ c = '\r' then some (typed, [.print "\n"], keys)
    else if typed.length < maxLength - 1 ∧ isPrintable c = true then
      (readField maxLength echo (typed ++ [c]) keys).map fun r =>
        (r.1, .printChar (echo c) :: r.2.1, r.2.2)
    else readField maxLength echo typed keys

theorem readField_zeros (maxLength : Nat) (echo : Char → Char) (typed : List Char) :
    ∀ n, readField maxLength echo typed (List.replicate n '\x00') = none
  | 0 => rfl
  | n + 1 => by
    rw [List.replicate_succ, readField, if_neg (by decide), if_neg (by simp [isPrintable]),
      readField_zeros maxLength echo typed n]

/-- The user-name loop: `username[MAX_USERNAME_LENGTH]`, each key echoed. -/
def readUsername (keys : List Char) : Option (List Char × List Effect × List Char) :=
  readField maxUsernameLength id [] keys

/-- The password loop: `password[MAX_PASSWORD_LENGTH]`, each key echoed as `'*'`. -/
def readPassword (keys : List Char) : Option (List Char × List Effect × List Char) :=
  readField maxPasswordLength (fun _ => '*') [] keys

/-- Where `run_shell` leaves its authentication: it returns at once when `security_init`
fails, goes on to the command loop once authenticated, and returns after too many
attempts. -/
inductive LoginOutcome
  | initFailed
  | authenticated
  | denied
  deriving DecidableEq, Repr

/-- The end of the login: its outcome, the security state, what it printed, the keys left. -/
structure Login where
  outcome : LoginOutcome
  security : SecurityState
  effects : List Effect
  keys : List Char

/-- What was printed before the rest of the login ran. -/
def Login.prepend (e : List Effect) (r : Login) : Login := { r with effects := e ++ r.effects }

theorem outcome_prepend (e : List Effect) (o : Option Login) :
    (o.map (Login.prepend e)).map Login.outcome = o.map Login.outcome := by
  cases o <;> rfl

/-- The authentication loop of `run_shell` with `left` of the `MAX_AUTH_ATTEMPTS` attempts
left. -/
def authLoop : Nat → SecurityState → List Char → Option Login
  | 0, sec, keys =>
    some ⟨.denied,
      securityLogSecurityViolation sec (some "MAX_AUTH_ATTEMPTS_EXCEEDED".toList)
        (some "Too many failed login attempts".toList) none,
      [.print "Maximum authentication attempts exceeded. Access denied.\n"], keys⟩
  | left + 1, sec, keys =>
    match readUsername keys with
    | none => none
    | some (username, e1, keys) =>
      match readPassword keys with
      | none => none
      | some (password, e2, keys) =>
        let asked := [.print "Please authenticate to access the system\n", .print "Username: "] ++
          e1 ++ .print "Password: " :: e2
        let (ok, sec) := securityAuthenticateUser sec (some username) (some password)
        if ok then
          some ⟨.authenticated,
            securityLogEvent sec (some "USER_LOGIN".toList) (some username) sec.currentUser,
            asked ++ [.print "Authentication successful. Welcome to the system!\n"], keys⟩
        else
          let attempts := maxAuthAttempts - left
          (authLoop left (securityLogSecurityViolation sec (some "AUTH_FAILED".toList)
              (some username) none) keys).map
            (Login.prepend (asked ++ .print "Authentication failed. " ::
              if attempts < maxAuthAttempts then
                [.print "Attempts remaining: ",
                  .print (String.mk (intToString (maxAuthAttempts - attempts : Nat))), .print "\n"]
              else []))

/-- With no account, every attempt fails, and the loop can only end in a denial. -/
theorem authLoop_outcome : ∀ (left : Nat) (sec : SecurityState) (keys : List Char),
    sec.userCount = 0 → (authLoop left sec keys).map Login.outcome = none ∨
      (authLoop left sec keys).map Login.outcome = some .denied
  | 0, _, _, _ => .inr rfl
  | left + 1, sec, keys, h => by
    rw [authLoop]
    cases readUsername keys with
    | none => exact .inl rfl
    | some r =>
    obtain ⟨username, e1, keys⟩ := r
    dsimp only
    cases readPassword keys with
    | none => exact .inl rfl
    | some r =>
    obtain ⟨password, e2, keys⟩ := r
    dsimp only
    have hf := securityAuthenticateUser_of_userCount h (some username) (some password)
    have hc : (securityAuthenticateUser sec (some username) (some password)).2.userCount = 0 :=
      Nat.le_zero.1 (h ▸ userCount_runSecOp_le sec (.authenticateUser _ _) rfl)
    rcases ha : securityAuthenticateUser sec (some username) (some password) with ⟨ok, sec'⟩
    rw [ha] at hf hc
    subst hf
    dsimp only
    rw [if_neg Bool.false_ne_true, outcome_prepend]
    exact authLoop_outcome left _ keys (by rw [userCount_securityLogSecurityViolation]; exact hc)

/-- The banner of `run_shell`. -/
def banner (osName : String) : List Effect :=
  [.print "\n", .print osName, .print " Shell - Secure Edition\n",
    .print "=====================================\n", .print "Security features enabled:\n",
    .print "- Input validation\n", .print "- Command injection protection\n",
    .print "- User authentication required\n", .print "- Memory protection\n",
    .print "Type \x27help\x27 for available commands\n\n"]

/-- `run_shell` up to its command loop. -/
def runShellLogin (osName : String) (sec : SecurityState) (keys : List Char) : Option Login :=
  let (ok, sec) := securityInit sec
  if !ok then
    some ⟨.initFailed, sec, [.print "Error: Failed to initialize security subsystem\n"], keys⟩
  else (authLoop maxAuthAttempts sec keys).map (Login.prepend (banner osName))

/-- `read_char` answers `0` at once on every call; `0` neither ends the user-name loop nor is
kept, so however many times `read_char` is called, and whatever the keyboard holds, `run_shell`
is still reading the first user name. -/
theorem runShellLogin_readChar (osName : String) (sec : SecurityState) (n : Nat)
    (ports : List (BitVec 8)) : runShellLogin osName sec (readChars n ports) = none := by
  rw [runShellLogin, readChars_eq]
  rcases h : securityInit sec with ⟨ok, sec'⟩
  have hok : ok = true := by simpa [h] using securityInit_fst sec
  subst hok
  simp only [Bool.not_true, Bool.false_eq_true, if_false, maxAuthAttempts, authLoop, readUsername,
    readField_zeros, Option.map_none']

/-- Whatever keys it is given, when no call before it was `security_create_user` (the kernel
makes none), the login of `run_shell` ends, if it ends, in a denial: the command loop is never
reached. -/
theorem runShellLogin_denied (osName : String) {ops : List SecOp}
    (h : ∀ op ∈ ops, op.createsUser = false) (keys : List Char) :
    (runShellLogin osName (runSecOps staticSecurity ops) keys).map Login.outcome = none ∨
      (runShellLogin osName (runSecOps staticSecurity ops) keys).map Login.outcome =
        some .denied := by
  have h0 := Nat.le_zero.1 (userCount_runSecOps_le staticSecurity h)
  have hc := userCount_runSecOp_le (runSecOps staticSecurity ops) .init rfl
  have hok := securityInit_fst (runSecOps staticSecurity ops)
  rw [runShellLogin]
  rcases hi : securityInit (runSecOps staticSecurity ops) with ⟨ok, sec⟩
  simp only [runSecOp, hi] at hc hok
  subst hok
  dsimp only
  rw [if_neg (by decide), outcome_prepend]
  exact authLoop_outcome _ _ _ (by omega)

theorem runShellLogin_denied_admin :
    let sec := runSecOps staticSecurity [.init, .initKernelProtection,
      .logEvent (some "BOOT".toList) none none]
    (runShellLogin "OS" sec "admin\nadmin123\n".toList).map Login.outcome = none ∨
      (runShellLogin "OS" sec "admin\nadmin123\n".toList).map Login.outcome = some .denied :=
  runShellLogin_denied "OS" (by decide) _

end MiniKernel.Shell
