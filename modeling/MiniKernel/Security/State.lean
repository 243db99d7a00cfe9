import MiniKernel.Security.Strings

/-! The state of `security.c`: the user table, the current principal, the counters and the
audit log, with every public operation that changes them. A `user_t *` is an index into
`user_database` and `NULL` is `none`; a `char` array is the string it holds. -/

namespace MiniKernel.Security

open MiniKernel.Shell (cStr cStr_cons)

/-- `PRIVILEGE_GUEST`, `PRIVILEGE_ADMIN` and `PRIVILEGE_KERNEL` of `privilege_level_t`. -/
def privilegeGuest : Nat := 0
def privilegeAdmin : Nat := 2
def privilegeKernel : Nat := 3

/-- `SECURITY_LOG_SIZE`. -/
def securityLogSize : Nat := 64

/-- A `user_t`. `username` is the string its 32 cells hold; of `password_hash` the code writes
and reads the first four bytes. -/
structure User where
  username : List Char
  passwordHash : Nat → BitVec 8
  privilege : Nat
  isActive : Bool
  sessionId : BitVec 32

/-- A slot after `memset (&user_database[i], 0, sizeof (user_t))`. -/
def User.zero : User := ⟨[], fun _ => 0, 0, false, 0⟩

/-- A `security_log_entry_t`. -/
structure LogEntry where
  eventType : List Char
  description : List Char
  timestamp : BitVec 32
  user : Option Nat

/-- An entry after `memset (&security_log[i], 0, sizeof (security_log_entry_t))`. -/
def LogEntry.zero : LogEntry := ⟨[], [], 0, none⟩

/-- `security_state` with `user_database`, `user_count`, `security_log`, `log_index`, `log_count`
and the `static uint32_t session_counter` of `security_authenticate_user`. The two table
counters are kept as `Nat`: the code bounds both far below `2 ^ 32`. -/
structure SecurityState where
  isInitialized : Bool
  currentUser : Option Nat
  securityEventsLogged : BitVec 32
  securityViolationsLogged : BitVec 32
  kernelProtectionEnabled : Bool
  memoryProtectionEnabled : Bool
  authenticationEnabled : Bool
  userDatabase : Nat → User
  userCount : Nat
  securityLog : Nat → LogEntry
  logIndex : Nat
  logCount : Nat
  sessionCounter : BitVec 32

/-- The static initialisers. -/
def staticSecurity : SecurityState where
  isInitialized := false
  currentUser := none
  securityEventsLogged := 0
  securityViolationsLogged := 0
  kernelProtectionEnabled := false
  memoryProtectionEnabled := false
  authenticationEnabled := true
  userDatabase := fun _ => User.zero
  userCount := 0
  securityLog := fun _ => LogEntry.zero
  logIndex := 0
  logCount := 0
  sessionCounter := 1

variable {s : SecurityState}

/-! ## The audit log -/

/-- `add_security_log_entry (event_type, description, user)`: the strings are cut to the 31
and 127 characters their arrays hold, the entry is stamped with the event count, and the
ring advances. -/
def addSecurityLogEntry (s : SecurityState) (eventType description : Option (List Char))
    (user : Option Nat) : SecurityState :=
  match eventType, description with
  | some e, some d =>
    { s with
      securityLog := setAt s.securityLog s.logIndex
        ⟨(cStr e).take 31, (cStr d).take 127, s.securityEventsLogged, user⟩
      logIndex := (s.logIndex + 1) % securityLogSize
      logCount := if s.logCount < securityLogSize then s.logCount + 1 else s.logCount
      securityEventsLogged := s.securityEventsLogged + 1 }
  | _, _ => s

section addLog

variable (s : SecurityState) (e d : Option (List Char)) (u : Option Nat)

@[simp] theorem addSecurityLogEntry_userDatabase :
    (addSecurityLogEntry s e d u).userDatabase = s.userDatabase := by
  cases e <;> cases d <;> rfl

@[simp] theorem addSecurityLogEntry_userCount :
    (addSecurityLogEntry s e d u).userCount = s.userCount := by
  cases e <;> cases d <;> rfl

@[simp] theorem addSecurityLogEntry_currentUser :
    (addSecurityLogEntry s e d u).currentUser = s.currentUser := by
  cases e <;> cases d <;> rfl

@[simp] theorem addSecurityLogEntry_isInitialized :
    (addSecurityLogEntry s e d u).isInitialized = s.isInitialized := by
  cases e <;> cases d <;> rfl

end addLog

/-- The live entries of the ring, newest first: `log_count` slots back from `log_index`. -/
def logView (s : SecurityState) : List LogEntry :=
  (List.range s.logCount).map fun k =>
    s.securityLog ((s.logIndex + (securityLogSize - 1) - k) % securityLogSize)

theorem length_logView (s : SecurityState) : (logView s).length = s.logCount := by
  simp [logView]

/-- `x` followed by `f 0, f 1, …` cut to `m` entries. -/
theorem take_cons_map_range {α : Type} (x : α) (f : Nat → α) (c m : Nat) :
    (x :: (List.range c).map f).take m =
      (List.range (min m (c + 1))).map fun k => if k = 0 then x else f (k - 1) := by
  have : x :: (List.range c).map f =
      (List.range (c + 1)).map fun k => if k = 0 then x else f (k - 1) := by
    rw [List.range_succ_eq_map, List.map_cons, List.map_map]
    exact congrArg _ (List.map_congr_left fun k _ => by simp)
  rw [this, ← List.map_take, List.take_range]

/-- The ring refines a bounded history: an entry goes in front of the live entries, and the
oldest falls off once `SECURITY_LOG_SIZE` are live. -/
theorem logView_addSecurityLogEntry (hi : s.logIndex < securityLogSize)
    (hc : s.logCount ≤ securityLogSize) (e d : List Char) (u : Option Nat) :
    logView (addSecurityLogEntry s (some e) (some d) u) =
      (⟨(cStr e).take 31, (cStr d).take 127, s.securityEventsLogged, u⟩ :: logView s).take
        securityLogSize := by
  unfold securityLogSize at *
  rw [logView, logView, take_cons_map_range]
  simp only [addSecurityLogEntry, securityLogSize]
  rw [show (if s.logCount < 64 then s.logCount + 1 else s.logCount) = min 64 (s.logCount + 1) by
    split <;> omega]
  refine List.map_congr_left fun k hk => ?_
  rw [List.mem_range] at hk
  rcases Nat.eq_zero_or_pos k with rfl | hk0
  · rw [if_pos rfl, show ((s.logIndex + 1) % 64 + (64 - 1) - 0) % 64 = s.logIndex by omega,
      setAt_same]
  · rw [if_neg (by omega), setAt_ne _ _ (by omega),
      show ((s.logIndex + 1) % 64 + (64 - 1) - k) % 64 = (s.logIndex + (64 - 1) - (k - 1)) % 64 by
        omega]

/-- `security_log_event (event_type, description, user)`. -/
def securityLogEvent (s : SecurityState) (eventType description : Option (List Char))
    (user : Option Nat) : SecurityState :=
  addSecurityLogEntry s eventType description user

/-- `security_log_security_violation (violation_type, details, user)`: the violation is
counted even when the entry is refused. -/
def securityLogSecurityViolation (s : SecurityState) (violationType details : Option (List Char))
    (user : Option Nat) : SecurityState :=
  let s := addSecurityLogEntry s violationType details user
  { s with securityViolationsLogged := s.securityViolationsLogged + 1 }

theorem userCount_securityLogSecurityViolation (s : SecurityState) (v d : Option (List Char))
    (u : Option Nat) : (securityLogSecurityViolation s v d u).userCount = s.userCount := by
  simp [securityLogSecurityViolation]

/-- `security_enter_critical_section ()`. -/
def securityEnterCriticalSection (s : SecurityState) : SecurityState :=
  addSecurityLogEntry s (some "CRITICAL_SECTION_ENTER".toList)
    (some "Entered critical section".toList) s.currentUser

/-- `security_exit_critical_section ()`. -/
def securityExitCriticalSection (s : SecurityState) : SecurityState :=
  addSecurityLogEntry s (some "CRITICAL_SECTION_EXIT".toList)
    (some "Exited critical section".toList) s.currentUser

/-- The digit loop of `security_display_security_status`, least significant digit first;
ten digits cover a `uint32_t`. -/
def lowDigits : Nat → Nat → List Char
  | 0, _ => []
  | fuel + 1, n => if 0 < n then Char.ofNat (48 + n % 10) :: lowDigits fuel (n / 10) else []

/-- A counter as `security_display_security_status` writes it. -/
def counterStr (n : BitVec 32) : List Char :=
  if n = 0 then ['0'] else (lowDigits 10 n.toNat).reverse

/-- `security_display_security_status ()`. -/
def securityDisplaySecurityStatus (s : SecurityState) : SecurityState :=
  addSecurityLogEntry s (some "SECURITY_STATUS".toList)
    (some ("Security Status - Events: ".toList ++ counterStr s.securityEventsLogged ++
      ", Violations: ".toList ++ counterStr s.securityViolationsLogged)) none

/-! ## Users -/

/-- The comparison loop of `find_user_by_username`; a list that ends reads as the terminator. -/
def namesMatch : List Char → List Char → Bool
  | u :: us, c :: cs =>
    if u ≠ '\x00' ∧ c ≠ '\x00' then decide (u = c) && namesMatch us cs
    else u = '\x00' && c = '\x00'
  | u :: _, [] => u = '\x00'
  | [], c :: _ => c = '\x00'
  | [], [] => true

theorem namesMatch_iff : ∀ a b : List Char, namesMatch a b = true ↔ cStr a = cStr b
  | u :: us, c :: cs => by
    by_cases hu : u = '\x00' <;> by_cases hc : c = '\x00'
    · subst hu hc; simp [namesMatch]
    · subst hu; simp [namesMatch, hc, cStr_cons hc]
    · subst hc; simp [namesMatch, hu, cStr_cons hu]
    · rw [namesMatch, if_pos ⟨hu, hc⟩, cStr_cons hu, cStr_cons hc, Bool.and_eq_true,
        decide_eq_true_iff, namesMatch_iff us cs, List.cons.injEq]
  | u :: us, [] => by
    by_cases hu : u = '\x00'
    · subst hu; simp [namesMatch]
    · simp [namesMatch, hu, cStr_cons hu]
  | [], c :: cs => by
    by_cases hc : c = '\x00'
    · subst hc; simp [namesMatch]
    · simp [namesMatch, hc, cStr_cons hc]
  | [], [] => by simp [namesMatch]

/-- `find_user_by_username (username)`: the first active slot below `user_count` whose name
matches. -/
def findUserByUsername (s : SecurityState) : Option (List Char) → Option Nat
  | none => none
  | some name => (List.range s.userCount).find? fun i =>
      (s.userDatabase i).isActive && namesMatch (s.userDatabase i).username name

theorem findUserByUsername_some {n : List Char} {i : Nat}
    (h : findUserByUsername s (some n) = some i) :
    i < s.userCount ∧ (s.userDatabase i).isActive = true ∧
      cStr (s.userDatabase i).username = cStr n := by
  have hp := List.find?_some h
  have hm := List.mem_range.1 (List.mem_of_find?_eq_some h)
  rw [Bool.and_eq_true, namesMatch_iff] at hp
  exact ⟨hm, hp⟩

theorem findUserByUsername_none {n : List Char} :
    findUserByUsername s (some n) = none ↔
      ∀ i < s.userCount, (s.userDatabase i).isActive = true →
        cStr (s.userDatabase i).username ≠ cStr n := by
  simp only [findUserByUsername, List.find?_eq_none, List.mem_range, Bool.and_eq_true,
    namesMatch_iff, not_and]
  

/-- The bytes of a `uint32_t` in memory, least significant first. -/
def hashBytes (hash : BitVec 32) (i : Nat) : BitVec 8 := BitVec.extractLsb' (8 * i) 8 hash

/-- `validate_user_credentials (user, password)`. -/
def validateUserCredentials (user : Option User) (password : Option (List Char)) : Bool :=
  match user, password with
  | some u, some p =>
    securityConstantTimeCompare (some u.passwordHash) (some (hashBytes (simpleHash p))) 4
  | _, _ => false

theorem validateUserCredentials_iff (user : User) (p : List Char) :
    validateUserCredentials (some user) (some p) = true ↔
      ∀ k < 4, user.passwordHash k = hashBytes (simpleHash p) k := by
  rw [validateUserCredentials, securityConstantTimeCompare, decide_eq_true_iff,
    foldl_or_xor_eq_zero]

/-- The slot `security_create_user` fills from what it held before. -/
def newUser (old : User) (username password : List Char) (privilege : Nat) : User where
  username := (cStr username).take (maxUsernameLength - 1)
  passwordHash :=
    (List.range 4).foldl (fun a i => setAt a i (hashBytes (simpleHash password) i)) old.passwordHash
  privilege := privilege
  isActive := true
  sessionId := 0

theorem newUser_username (old : User) {u : List Char} (p : List Char) (privilege : Nat)
    (h : (cStr u).length < maxUsernameLength) : (newUser old u p privilege).username = cStr u :=
  List.take_of_length_le (by unfold maxUsernameLength at h ⊢; omega)

theorem newUser_passwordHash (old : User) (u p : List Char) (privilege : Nat) {k : Nat}
    (hk : k < 4) :
    (newUser old u p privilege).passwordHash k = hashBytes (simpleHash p) k := by
  exact (foldl_setAt_range _ _ 4 k).trans (if_pos hk)

/-- `security_create_user (username, password, privilege)`. -/
def securityCreateUser (s : SecurityState) (username password : Option (List Char))
    (privilege : Nat) : Bool × SecurityState :=
  if !s.isInitialized then (false, s)
  else
    match username, password with
    | some u, some p =>
      if maxUsernameLength ≤ (cStr u).length ∨ maxPasswordLength ≤ (cStr p).length then (false, s)
      else if 16 ≤ s.userCount then (false, s)
      else if (findUserByUsername s (some u)).isSome then (false, s)
      else
        (true, addSecurityLogEntry
          { s with
            userDatabase :=
              setAt s.userDatabase s.userCount (newUser (s.userDatabase s.userCount) u p privilege)
            userCount := s.userCount + 1 }
          (some "USER_CREATED".toList) (some u) none)
    | _, _ => (false, s)

theorem securityCreateUser_of_not_initialized (h : s.isInitialized = false)
    (u p : Option (List Char)) (privilege : Nat) :
    securityCreateUser s u p privilege = (false, s) := by
  simp [securityCreateUser, h]

/-- `security_create_user` either refuses and changes nothing, or fills slot `user_count`
after checking the lengths, the table size and the name. -/
theorem securityCreateUser_cases (s : SecurityState) (u p : Option (List Char)) (privilege : Nat) :
    securityCreateUser s u p privilege = (false, s) ∨
      ∃ u' p', u = some u' ∧ p = some p' ∧ s.isInitialized = true ∧
        (cStr u').length < maxUsernameLength ∧ s.userCount < 16 ∧
        findUserByUsername s (some u') = none ∧
        securityCreateUser s u p privilege = (true, addSecurityLogEntry
          { s with
            userDatabase :=
              setAt s.userDatabase s.userCount (newUser (s.userDatabase s.userCount) u' p' privilege)
            userCount := s.userCount + 1 }
          (some "USER_CREATED".toList) (some u') none) := by
  by_cases hi : s.isInitialized = false
  · exact .inl (securityCreateUser_of_not_initialized hi u p privilege)
  rw [Bool.not_eq_false] at hi
  unfold securityCreateUser
  rw [if_neg (by simp [hi])]
  rcases u with _ | u <;> rcases p with _ | p <;> try exact .inl rfl
  dsimp only
  split_ifs with h1 h2 h3
  · exact .inl rfl
  · exact .inl rfl
  · exact .inl rfl
  · exact .inr
      ⟨u, p, rfl, rfl, hi, by omega, by omega, Option.not_isSome_iff_eq_none.1 h3, rfl⟩

/-- `security_authenticate_user (username, password)`. -/
def securityAuthenticateUser (s : SecurityState) (username password : Option (List Char)) :
    Bool × SecurityState :=
  if !s.isInitialized then (false, s)
  else
    match username, password with
    | some u, some p =>
      let failed := addSecurityLogEntry s (some "AUTH_FAILED".toList) (some u) none
      match findUserByUsername s (some u) with
      | none => (false, failed)
      | some i =>
        if !(s.userDatabase i).isActive then (false, failed)
        else if validateUserCredentials (some (s.userDatabase i)) (some p) then
          (true, addSecurityLogEntry
            { s with
              userDatabase := setAt s.userDatabase i { s.userDatabase i with sessionId := s.sessionCounter }
              sessionCounter := s.sessionCounter + 1
              currentUser := some i }
            (some "USER_LOGIN".toList) (some u) (some i))
        else (false, failed)
    | _, _ => (false, s)

/-- `security_authenticate_user` either returns at a guard with nothing changed, or logs a
failure, or finds an active account whose stored hash matches, gives it a session and makes
it the current principal. -/
theorem securityAuthenticateUser_cases (s : SecurityState) (u p : Option (List Char)) :
    securityAuthenticateUser s u p = (false, s) ∨
      (∃ u', u = some u' ∧ securityAuthenticateUser s u p =
        (false, addSecurityLogEntry s (some "AUTH_FAILED".toList) (some u') none)) ∨
      ∃ u' p' i, u = some u' ∧ p = some p' ∧ s.isInitialized = true ∧
        findUserByUsername s (some u') = some i ∧ (s.userDatabase i).isActive = true ∧
        validateUserCredentials (some (s.userDatabase i)) (some p') = true ∧
        securityAuthenticateUser s u p = (true, addSecurityLogEntry
          { s with
            userDatabase := setAt s.userDatabase i { s.userDatabase i with sessionId := s.sessionCounter }
            sessionCounter := s.sessionCounter + 1
            currentUser := some i }
          (some "USER_LOGIN".toList) (some u') (some i)) := by
  by_cases hi : s.isInitialized = false
  · exact .inl (by simp [securityAuthenticateUser, hi])
  rw [Bool.not_eq_false] at hi
  unfold securityAuthenticateUser
  rw [if_neg (by simp [hi])]
  rcases u with _ | u <;> rcases p with _ | p <;> try exact .inl rfl
  dsimp only
  rcases hf : findUserByUsername s (some u) with _ | i
  · exact .inr (.inl ⟨u, rfl, rfl⟩)
  · cases ha : (s.userDatabase i).isActive
    · exact .inr (.inl ⟨u, rfl, by simp [ha]⟩)
    · cases hv : validateUserCredentials (some (s.userDatabase i)) (some p)
      · exact .inr (.inl ⟨u, rfl, by simp [ha, hv]⟩)
      · exact .inr (.inr ⟨u, p, i, rfl, rfl, hi, hf, ha, hv, by simp [ha, hv]⟩)

/-- `security_logout_user (user)`. -/
def securityLogoutUser (s : SecurityState) : Option Nat → Bool × SecurityState
  | none => (false, s)
  | some i =>
    if !s.isInitialized then (false, s)
    else
      (true, addSecurityLogEntry
        { s with
          currentUser := if s.currentUser = some i then none else s.currentUser
          userDatabase := setAt s.userDatabase i { s.userDatabase i with sessionId := 0 } }
        (some "USER_LOGOUT".toList) (some (s.userDatabase i).username) (some i))

theorem setAt_sessionId (db : Nat → User) (i j : Nat) (x : BitVec 32) :
    (setAt db i { db i with sessionId := x } j).username = (db j).username ∧
      (setAt db i { db i with sessionId := x } j).isActive = (db j).isActive ∧
      (setAt db i { db i with sessionId := x } j).passwordHash = (db j).passwordHash := by
  by_cases h : j = i
  · subst h; simp
  · simp only [setAt_ne _ _ h, and_self]

/-- `security_logout_user` either refuses, or clears the session of its account, drops it as
the current principal when it was, and logs. -/
theorem securityLogoutUser_cases (s : SecurityState) (user : Option Nat) :
    securityLogoutUser s user = (false, s) ∨
      ∃ i, user = some i ∧ s.isInitialized = true ∧ securityLogoutUser s user = (true, addSecurityLogEntry
        { s with
          currentUser := if s.currentUser = some i then none else s.currentUser
          userDatabase := setAt s.userDatabase i { s.userDatabase i with sessionId := 0 } }
        (some "USER_LOGOUT".toList) (some (s.userDatabase i).username) (some i)) := by
  rcases user with _ | i
  · exact .inl rfl
  cases hi : s.isInitialized
  · exact .inl (by simp [securityLogoutUser, hi])
  · exact .inr ⟨i, rfl, rfl, by simp [securityLogoutUser, hi]⟩

/-- `security_check_kernel_access ()`. -/
def securityCheckKernelAccess (s : SecurityState) : Bool :=
  match s.currentUser with
  | none => false
  | some i => decide (privilegeKernel ≤ (s.userDatabase i).privilege)

/-! ## Initialisation -/

/-- `security_init ()`: clear both tables, create the default accounts, and log. -/
def securityInit (s : SecurityState) : Bool × SecurityState :=
  if s.isInitialized then (true, s)
  else
    let s := { s with
      userDatabase := fun _ => User.zero
      userCount := 0
      securityLog := fun _ => LogEntry.zero
      logIndex := 0
      logCount := 0 }
    let s := (securityCreateUser s (some "admin".toList) (some "admin123".toList) privilegeAdmin).2
    let s := (securityCreateUser s (some "guest".toList) (some "guest".toList) privilegeGuest).2
    (true, addSecurityLogEntry
      { s with isInitialized := true, securityEventsLogged := 0, securityViolationsLogged := 0 }
      (some "SECURITY_INIT".toList) (some "Security subsystem initialized".toList) none)

/-- `security_init` on a state it has not run on: the default accounts are refused, since
`is_initialized` is set only after them. -/
theorem securityInit_of_not_initialized (hi : s.isInitialized = false) :
    securityInit s = (true, addSecurityLogEntry
      { s with
        userDatabase := fun _ => User.zero, userCount := 0, securityLog := fun _ => LogEntry.zero,
        logIndex := 0, logCount := 0, isInitialized := true, securityEventsLogged := 0,
        securityViolationsLogged := 0 }
      (some "SECURITY_INIT".toList) (some "Security subsystem initialized".toList) none) := by
  simp [securityInit, securityCreateUser, hi]

theorem securityInit_fst (s : SecurityState) : (securityInit s).1 = true := by
  unfold securityInit; split <;> rfl

/-- `security_init_memory_protection ()`. -/
def securityInitMemoryProtection (s : SecurityState) : Bool × SecurityState :=
  if !s.isInitialized then (false, s)
  else
    (true, addSecurityLogEntry { s with memoryProtectionEnabled := true }
      (some "MEMORY_PROTECTION_INIT".toList) (some "Memory protection initialized".toList) none)

/-- `security_init_kernel_protection ()`. -/
def securityInitKernelProtection (s : SecurityState) : Bool × SecurityState :=
  if !s.isInitialized then (false, s)
  else
    (true, addSecurityLogEntry { s with kernelProtectionEnabled := true }
      (some "KERNEL_PROTECTION_INIT".toList) (some "Kernel protection initialized".toList) none)

/-! ## Runs -/

/-- The public operations of the subsystem that change its state. -/
inductive SecOp
  | init
  | initMemoryProtection
  | initKernelProtection
  | createUser (username password : Option (List Char)) (privilege : Nat)
  | authenticateUser (username password : Option (List Char))
  | logoutUser (user : Option Nat)
  | logEvent (eventType description : Option (List Char)) (user : Option Nat)
  | logSecurityViolation (violationType details : Option (List Char)) (user : Option Nat)
  | enterCriticalSection
  | exitCriticalSection
  | displaySecurityStatus

/-- The state after one call. -/
def runSecOp (s : SecurityState) : SecOp → SecurityState
  | .init => (securityInit s).2
  | .initMemoryProtection => (securityInitMemoryProtection s).2
  | .initKernelProtection => (securityInitKernelProtection s).2
  | .createUser u p privilege => (securityCreateUser s u p privilege).2
  | .authenticateUser u p => (securityAuthenticateUser s u p).2
  | .logoutUser user => (securityLogoutUser s user).2
  | .logEvent e d user => securityLogEvent s e d user
  | .logSecurityViolation v d user => securityLogSecurityViolation s v d user
  | .enterCriticalSection => securityEnterCriticalSection s
  | .exitCriticalSection => securityExitCriticalSection s
  | .displaySecurityStatus => securityDisplaySecurityStatus s

/-- The state after a sequence of calls. -/
def runSecOps (s : SecurityState) (ops : List SecOp) : SecurityState := ops.foldl runSecOp s

/-- The states a run of calls reaches from the static initialisers. -/
inductive Reachable : SecurityState → Prop
  | static : Reachable staticSecurity
  | step {s : SecurityState} (op : SecOp) : Reachable s → Reachable (runSecOp s op)

theorem Reachable.runSecOps (h : Reachable s) (ops : List SecOp) : Reachable (runSecOps s ops) := by
  induction ops generalizing s with
  | nil => exact h
  | cons op ops ih => exact ih (h.step op)

end MiniKernel.Security
