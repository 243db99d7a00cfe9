import MiniKernel.Security.Invariant

/-! Logging in through `security_authenticate_user`, over every reachable state:

* `securityAuthenticateUser_iff`: a login succeeds exactly when an account of that name stores
  the bytes of the password's `simple_hash`;
* `securityAuthenticateUser_after_create`: an account, once created, stays usable across every
  later run, with its password and with every password of the same hash;
* `securityAuthenticateUser_without_createUser`: on the kernel's runs, which call
  `security_create_user` only through `security_init`, no login ever succeeds. -/

namespace MiniKernel.Security

open MiniKernel.Shell (cStr cStr_cons)

variable {s : SecurityState}

/-- Slot `i` holds an account in use, active, named `name`, whose stored bytes are those of
`hash`. -/
def HoldsAccount (s : SecurityState) (i : Nat) (name : List Char) (hash : BitVec 32) : Prop :=
  i < s.userCount ∧ (s.userDatabase i).username = name ∧ (s.userDatabase i).isActive = true ∧
    ∀ k < 4, (s.userDatabase i).passwordHash k = hashBytes hash k

/-- With names unique, the lookup finds the one account of a name. -/
theorem findUserByUsername_of_holds (hs : AccountsInv s) {i : Nat} {u : List Char}
    {hash : BitVec 32} (h : HoldsAccount s i (cStr u) hash) :
    findUserByUsername s (some u) = some i := by
  obtain ⟨hi, hn, ha, -⟩ := h
  rcases hf : findUserByUsername s (some u) with _ | j
  · exact (findUserByUsername_none.1 hf i hi ha (by rw [hn, cStr_cStr])).elim
  · obtain ⟨hjc, -, hjn⟩ := findUserByUsername_some hf
    rw [hs.name_cStr j hjc, ← hn] at hjn
    rw [hs.names_distinct j hjc i hi hjn]

theorem securityAuthenticateUser_of_holds (hs : AccountsInv s) (hi : s.isInitialized = true)
    {i : Nat} {u p : List Char} (h : HoldsAccount s i (cStr u) (simpleHash p)) :
    (securityAuthenticateUser s (some u) (some p)).1 = true := by
  have hv := (validateUserCredentials_iff (s.userDatabase i) p).2 h.2.2.2
  simp [securityAuthenticateUser, hi, findUserByUsername_of_holds hs h, h.2.2.1, hv]

/-- In every reachable state a login succeeds exactly when the subsystem is initialised and an
account of that name stores the bytes of the password's hash. -/
theorem securityAuthenticateUser_iff (hs : Reachable s) (u p : List Char) :
    (securityAuthenticateUser s (some u) (some p)).1 = true ↔
      s.isInitialized = true ∧ ∃ i, HoldsAccount s i (cStr u) (simpleHash p) := by
  have ha := hs.secInv.accounts
  refine ⟨fun h => ?_, fun ⟨hi, i, hh⟩ => securityAuthenticateUser_of_holds ha hi hh⟩
  rcases securityAuthenticateUser_cases s (some u) (some p) with he | ⟨_, -, he⟩ |
    ⟨u', p', i, hu, hp, hi, hf, hact, hv, he⟩ <;> simp only [he, Bool.false_eq_true] at h
  cases hu; cases hp
  obtain ⟨hic, -, hn⟩ := findUserByUsername_some hf
  exact ⟨hi, i, hic, by rw [← hn, ha.name_cStr i hic], hact,
    (validateUserCredentials_iff _ _).1 hv⟩

/-- After `security_init` and the creation of `root` with password `pw`. -/
theorem securityAuthenticateUser_iff_created :
    let s := runSecOps staticSecurity [.init, .createUser (some "root".toList) (some "pw".toList) 1]
    Reachable s ∧
    ((securityAuthenticateUser s (some "root".toList) (some "pw".toList)).1 = true ↔
      s.isInitialized = true ∧ ∃ i, HoldsAccount s i (cStr "root".toList) (simpleHash "pw".toList)) :=
  let hs := Reachable.static.runSecOps _
  ⟨hs, securityAuthenticateUser_iff hs _ _⟩

/-! ## Accounts are never lost -/

/-- What a call keeps once `security_init` has run: the subsystem stays initialised, and every
slot in use stays in use with its name, its flag and its stored hash. -/
def Keeps (s t : SecurityState) : Prop :=
  s.isInitialized = true → t.isInitialized = true ∧ s.userCount ≤ t.userCount ∧
    ∀ i < s.userCount, (t.userDatabase i).username = (s.userDatabase i).username ∧
      (t.userDatabase i).isActive = (s.userDatabase i).isActive ∧
      (t.userDatabase i).passwordHash = (s.userDatabase i).passwordHash

theorem Keeps.refl (s : SecurityState) : Keeps s s :=
  fun h => ⟨h, le_rfl, fun _ _ => ⟨rfl, rfl, rfl⟩⟩

theorem Keeps.trans {s t r : SecurityState} (h₁ : Keeps s t) (h₂ : Keeps t r) : Keeps s r := by
  intro hi
  obtain ⟨hi', hc, hd⟩ := h₁ hi
  obtain ⟨hi'', hc', hd'⟩ := h₂ hi'
  refine ⟨hi'', hc.trans hc', fun i h => ?_⟩
  obtain ⟨a, b, c⟩ := hd i h
  obtain ⟨a', b', c'⟩ := hd' i (Nat.lt_of_lt_of_le h hc)
  exact ⟨a'.trans a, b'.trans b, c'.trans c⟩

theorem keeps_addSecurityLogEntry {s t : SecurityState} {e d : Option (List Char)}
    {u : Option Nat} (h : Keeps s t) : Keeps s (addSecurityLogEntry t e d u) := by
  simp only [Keeps, addSecurityLogEntry_isInitialized, addSecurityLogEntry_userCount,
    addSecurityLogEntry_userDatabase]
  exact h

/-- A session write keeps every account. -/
theorem keeps_of_setSession {s t : SecurityState} {i : Nat} {x : BitVec 32}
    (hi : t.isInitialized = s.isInitialized) (hc : t.userCount = s.userCount)
    (hd : t.userDatabase = setAt s.userDatabase i { s.userDatabase i with sessionId := x }) :
    Keeps s t :=
  fun h => ⟨hi ▸ h, hc ▸ le_rfl, fun j _ => hd ▸ setAt_sessionId s.userDatabase i j x⟩

theorem keeps_runSecOp (s : SecurityState) (op : SecOp) : Keeps s (runSecOp s op) := by
  cases op with
  | init =>
    intro hi
    simp [runSecOp, securityInit, hi]
  | initMemoryProtection | initKernelProtection =>
    simp only [runSecOp, securityInitMemoryProtection, securityInitKernelProtection]
    split
    · exact Keeps.refl s
    · exact keeps_addSecurityLogEntry fun h => ⟨h, le_rfl, fun _ _ => ⟨rfl, rfl, rfl⟩⟩
  | createUser u p privilege =>
    rcases securityCreateUser_cases s u p privilege with h | ⟨_, _, -, -, -, -, -, -, h⟩ <;>
      simp only [runSecOp, h]
    · exact Keeps.refl s
    · refine keeps_addSecurityLogEntry fun hi => ⟨hi, Nat.le_succ _, fun j hj => ?_⟩
      simp only [setAt_ne _ _ (Nat.ne_of_lt hj), and_self]
  | authenticateUser u p =>
    rcases securityAuthenticateUser_cases s u p with
        h | ⟨_, -, h⟩ | ⟨_, _, i, -, -, -, -, -, -, h⟩ <;>
      simp only [runSecOp, h]
    · exact Keeps.refl s
    · exact keeps_addSecurityLogEntry (Keeps.refl s)
    · exact keeps_addSecurityLogEntry (keeps_of_setSession rfl rfl rfl)
  | logoutUser user =>
    rcases securityLogoutUser_cases s user with h | ⟨i, -, -, h⟩ <;> simp only [runSecOp, h]
    · exact Keeps.refl s
    · exact keeps_addSecurityLogEntry (keeps_of_setSession rfl rfl rfl)
  | logEvent e d u => exact keeps_addSecurityLogEntry (Keeps.refl s)
  | logSecurityViolation v d u =>
    have h : Keeps s (addSecurityLogEntry s v d u) := keeps_addSecurityLogEntry (Keeps.refl s)
    exact fun hi => h hi
  | enterCriticalSection | exitCriticalSection | displaySecurityStatus =>
    exact keeps_addSecurityLogEntry (Keeps.refl s)

theorem keeps_runSecOps (s : SecurityState) (ops : List SecOp) : Keeps s (runSecOps s ops) := by
  induction ops generalizing s with
  | nil => exact Keeps.refl s
  | cons op ops ih => exact (keeps_runSecOp s op).trans (ih _)

/-- Once `security_create_user (username, password, …)` has succeeded, every later sequence
of calls leaves `username` able to log in with `password`, and with every password of the same
`simple_hash`. -/
theorem securityAuthenticateUser_after_create (hs : Reachable s) {u p p' : List Char}
    {privilege : Nat} (hc : (securityCreateUser s (some u) (some p) privilege).1 = true)
    (hp : simpleHash p' = simpleHash p) (ops : List SecOp) :
    (securityAuthenticateUser (runSecOps (securityCreateUser s (some u) (some p) privilege).2 ops)
      (some u) (some p')).1 = true := by
  have hr : Reachable (runSecOps (securityCreateUser s (some u) (some p) privilege).2 ops) :=
    (hs.step (.createUser (some u) (some p) privilege)).runSecOps ops
  rcases securityCreateUser_cases s (some u) (some p) privilege with
    h | ⟨_, _, hu, hp', hi, hl, -, -, h⟩
  · rw [h] at hc; cases hc
  cases hu; cases hp'
  have h1 : HoldsAccount (securityCreateUser s (some u) (some p) privilege).2 s.userCount (cStr u)
      (simpleHash p') ∧
        (securityCreateUser s (some u) (some p) privilege).2.isInitialized = true := by
    rw [h, hp]
    exact ⟨⟨by simp, by simpa using newUser_username _ p privilege hl, by simp [newUser],
      fun k hk => by simpa using newUser_passwordHash _ u p privilege hk⟩, hi⟩
  obtain ⟨hi', hcount, hd⟩ := keeps_runSecOps _ ops h1.2
  obtain ⟨hn, ha, hh⟩ := hd s.userCount h1.1.1
  obtain ⟨hlt, hn0, ha0, hh0⟩ := h1.1
  exact securityAuthenticateUser_of_holds hr.secInv.accounts hi'
    ⟨Nat.lt_of_lt_of_le hlt hcount, hn.trans hn0, ha.trans ha0,
      fun k hk => by rw [hh]; exact hh0 k hk⟩

theorem securityAuthenticateUser_after_create_collision :
    (securityAuthenticateUser
      (runSecOps (securityCreateUser (runSecOp staticSecurity .init) (some "root".toList)
        (some "Ab".toList) privilegeAdmin).2 [.logEvent none none none])
      (some "root".toList) (some "BA".toList)).1 = true :=
  securityAuthenticateUser_after_create (Reachable.static.step .init) (by decide) (by decide) _

/-! ## The kernel creates no account -/

/-- Whether a call is `security_create_user`. -/
def SecOp.createsUser : SecOp → Bool
  | .createUser .. => true
  | _ => false

/-- No call but `security_create_user` adds an account. -/
theorem userCount_runSecOp_le (s : SecurityState) (op : SecOp) (h : op.createsUser = false) :
    (runSecOp s op).userCount ≤ s.userCount := by
  cases op with
  | init =>
    cases hi : s.isInitialized
    · simp [runSecOp, securityInit_of_not_initialized hi]
    · simp [runSecOp, securityInit, hi]
  | initMemoryProtection | initKernelProtection =>
    simp only [runSecOp, securityInitMemoryProtection, securityInitKernelProtection]
    split <;> simp
  | createUser => cases h
  | authenticateUser u p =>
    rcases securityAuthenticateUser_cases s u p with
        he | ⟨_, -, he⟩ | ⟨_, _, _, -, -, -, -, -, -, he⟩ <;>
      simp [runSecOp, he]
  | logoutUser user =>
    rcases securityLogoutUser_cases s user with he | ⟨_, -, -, he⟩ <;> simp [runSecOp, he]
  | logEvent | logSecurityViolation | enterCriticalSection | exitCriticalSection
  | displaySecurityStatus =>
    simp [runSecOp, securityLogEvent, securityLogSecurityViolation, securityEnterCriticalSection,
      securityExitCriticalSection, securityDisplaySecurityStatus]

theorem userCount_runSecOps_le (s : SecurityState) {ops : List SecOp}
    (h : ∀ op ∈ ops, op.createsUser = false) : (runSecOps s ops).userCount ≤ s.userCount := by
  induction ops generalizing s with
  | nil => exact le_rfl
  | cons op ops ih =>
    exact (ih _ fun o ho => h o (List.mem_cons_of_mem _ ho)).trans
      (userCount_runSecOp_le s op (h op (List.mem_cons_self _ _)))

theorem securityAuthenticateUser_of_userCount (h : s.userCount = 0) (u p : Option (List Char)) :
    (securityAuthenticateUser s u p).1 = false := by
  rcases securityAuthenticateUser_cases s u p with
    he | ⟨_, -, he⟩ | ⟨_, _, _, -, -, -, hf, -, -, -⟩
  · rw [he]
  · rw [he]
  · exact absurd (findUserByUsername_some hf).1 (by omega)

/-- `security_create_user` is called by the kernel only inside `security_init`, before it sets
`is_initialized`, where it refuses: on every run from the static state with no other call of
it, the user table stays empty and no login succeeds. -/
theorem securityAuthenticateUser_without_createUser {ops : List SecOp}
    (h : ∀ op ∈ ops, op.createsUser = false) (u p : Option (List Char)) :
    (securityAuthenticateUser (runSecOps staticSecurity ops) u p).1 = false :=
  securityAuthenticateUser_of_userCount (Nat.le_zero.1 (userCount_runSecOps_le staticSecurity h))
    u p

theorem admin_login_after_init :
    (securityAuthenticateUser
      (runSecOps staticSecurity [.init, .initMemoryProtection,
        .authenticateUser (some "admin".toList) (some "admin123".toList),
        .logEvent (some "BOOT".toList) none none])
      (some "admin".toList) (some "admin123".toList)).1 = false :=
  securityAuthenticateUser_without_createUser (by decide) _ _

end MiniKernel.Security
