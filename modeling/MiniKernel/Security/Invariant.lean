import MiniKernel.Security.State

/-! The invariant of the security subsystem over every state a run of its public calls
reaches from the static initialisers:

* `LogInv`: the audit ring's cursor follows the event count, and its live entries, newest
  first, are stamped with consecutive event numbers;
* `AccountsInv`: the user table holds at most 16 active accounts with distinct names that fit
  their arrays, and the current principal is one of them;
* one preservation lemma per public call, then `Reachable.secInv`. -/

namespace MiniKernel.Security

open MiniKernel.Shell (cStr cStr_cons)

variable {s : SecurityState}

/-! ## The audit log -/

theorem toNat_add_one (x : BitVec 32) : (x + 1).toNat = (x.toNat + 1) % 2 ^ 32 := by
  simp [BitVec.toNat_add]

/-- What the ring keeps: the cursor follows the event count, at most `SECURITY_LOG_SIZE`
entries are live and, below that, as many as there were events; the live entries, newest
first, carry the event numbers counting down from the last. -/
structure LogInv (s : SecurityState) : Prop where
  index : s.logIndex = s.securityEventsLogged.toNat % securityLogSize
  count_le : s.logCount ≤ securityLogSize
  count_eq : s.logCount < securityLogSize → s.logCount = s.securityEventsLogged.toNat
  stamps : (logView s).map LogEntry.timestamp =
    (List.range s.logCount).map fun k => s.securityEventsLogged - BitVec.ofNat 32 (k + 1)

theorem LogInv.frame {t : SecurityState} (h : LogInv s) (hl : t.securityLog = s.securityLog)
    (hi : t.logIndex = s.logIndex) (hc : t.logCount = s.logCount)
    (he : t.securityEventsLogged = s.securityEventsLogged) : LogInv t := by
  have hv : logView t = logView s := by simp only [logView, hl, hi, hc]
  exact ⟨hi ▸ he ▸ h.index, hc ▸ h.count_le, hc ▸ he ▸ h.count_eq,
    hv ▸ hc ▸ he ▸ h.stamps⟩

theorem LogInv.addSecurityLogEntry (h : LogInv s) (e d : Option (List Char)) (u : Option Nat) :
    LogInv (addSecurityLogEntry s e d u) := by
  rcases e with _ | e
  · exact h
  rcases d with _ | d
  · exact h
  obtain ⟨hidx, hc, hce, hst⟩ := h
  have hi : s.logIndex < securityLogSize := hidx ▸ Nat.mod_lt _ (by decide)
  have hv := logView_addSecurityLogEntry hi hc e d u
  have hE := toNat_add_one s.securityEventsLogged
  have hcount :
      (if s.logCount < 64 then s.logCount + 1 else s.logCount) = min 64 (s.logCount + 1) := by
    unfold securityLogSize at hc; split <;> omega
  unfold securityLogSize at *
  refine ⟨?_, ?_, ?_, ?_⟩
  · simp only [MiniKernel.Security.addSecurityLogEntry, securityLogSize, hE]; omega
  · simp only [MiniKernel.Security.addSecurityLogEntry, securityLogSize, hcount]; omega
  · simp only [MiniKernel.Security.addSecurityLogEntry, securityLogSize, hE, hcount]; omega
  · rw [hv, List.map_take, List.map_cons, hst, take_cons_map_range]
    simp only [MiniKernel.Security.addSecurityLogEntry, securityLogSize, hcount]
    refine List.map_congr_left fun k _ => ?_
    rcases Nat.eq_zero_or_pos k with rfl | hk0
    · exact (BitVec.add_sub_cancel _ _).symm
    · rw [if_neg (by omega), Nat.sub_add_cancel hk0]
      bv_omega

/-! ## The user table -/

/-- The user table: at most 16 slots in use, each an active account whose name is a C string
that fits its array, no two with one name; the current principal is one of them, and there is
none before `security_init`. -/
structure AccountsInv (s : SecurityState) : Prop where
  count_le : s.userCount ≤ 16
  active : ∀ i < s.userCount, (s.userDatabase i).isActive = true
  name_length : ∀ i < s.userCount, (s.userDatabase i).username.length < maxUsernameLength
  name_cStr : ∀ i < s.userCount, cStr (s.userDatabase i).username = (s.userDatabase i).username
  names_distinct : ∀ i < s.userCount, ∀ j < s.userCount,
    (s.userDatabase i).username = (s.userDatabase j).username → i = j
  current : ∀ i, s.currentUser = some i → i < s.userCount
  uninitialized : s.isInitialized = false → s.currentUser = none

/-- A write that keeps the name and the flag of every slot in use keeps the invariant, as long
as the current principal stays among them. -/
theorem AccountsInv.of_slots {t : SecurityState} (h : AccountsInv s)
    (hc : t.userCount = s.userCount)
    (hd : ∀ i < s.userCount, (t.userDatabase i).username = (s.userDatabase i).username ∧
      (t.userDatabase i).isActive = (s.userDatabase i).isActive)
    (hu : ∀ i, t.currentUser = some i → i < s.userCount)
    (hi : t.isInitialized = false → t.currentUser = none) : AccountsInv t where
  count_le := hc ▸ h.count_le
  active i hi' := by rw [hc] at hi'; rw [(hd i hi').2]; exact h.active i hi'
  name_length i hi' := by rw [hc] at hi'; rw [(hd i hi').1]; exact h.name_length i hi'
  name_cStr i hi' := by rw [hc] at hi'; rw [(hd i hi').1]; exact h.name_cStr i hi'
  names_distinct i hi' j hj heq := by
    rw [hc] at hi' hj
    rw [(hd i hi').1, (hd j hj).1] at heq
    exact h.names_distinct i hi' j hj heq
  current i hi' := hc ▸ hu i hi'
  uninitialized := hi

theorem AccountsInv.addSecurityLogEntry (h : AccountsInv s) (e d : Option (List Char))
    (u : Option Nat) : AccountsInv (addSecurityLogEntry s e d u) :=
  h.of_slots (by simp) (fun _ _ => by simp) (fun i hi => h.current i (by simpa using hi))
    (fun hi => by simpa using h.uninitialized (by simpa using hi))

/-- Clearing the tables and setting `is_initialized`, as `security_init` does. -/
theorem AccountsInv.reset (h : AccountsInv s) (hi : s.isInitialized = false) :
    AccountsInv { s with
      userDatabase := fun _ => User.zero, userCount := 0, securityLog := fun _ => LogEntry.zero,
      logIndex := 0, logCount := 0, isInitialized := true, securityEventsLogged := 0,
      securityViolationsLogged := 0 } where
  count_le := Nat.zero_le _
  active _ h := absurd h (Nat.not_lt_zero _)
  name_length _ h := absurd h (Nat.not_lt_zero _)
  name_cStr _ h := absurd h (Nat.not_lt_zero _)
  names_distinct _ h := absurd h (Nat.not_lt_zero _)
  current i hc := by
    rw [show s.currentUser = none from h.uninitialized hi] at hc; cases hc
  uninitialized h := absurd h Bool.noConfusion

/-- Filling slot `user_count` with a name no active account has keeps the invariant. -/
theorem AccountsInv.newUser (h : AccountsInv s) (hi : s.isInitialized = true) {u : List Char}
    (p : List Char) (privilege : Nat) (hl : (cStr u).length < maxUsernameLength)
    (hn : s.userCount < 16) (hf : findUserByUsername s (some u) = none) :
    AccountsInv { s with
      userDatabase :=
        setAt s.userDatabase s.userCount (newUser (s.userDatabase s.userCount) u p privilege)
      userCount := s.userCount + 1 } := by
  have hname := newUser_username (s.userDatabase s.userCount) p privilege hl
  have hfresh : ∀ j < s.userCount, (s.userDatabase j).username ≠ cStr u := fun j hj he =>
    findUserByUsername_none.1 hf j hj (h.active j hj) (by rw [he, cStr_cStr])
  have hslot : ∀ j < s.userCount + 1, j < s.userCount ∨ j = s.userCount := fun j hj => by omega
  refine ⟨Nat.succ_le_of_lt hn, fun j hj => ?_, fun j hj => ?_, fun j hj => ?_,
    fun i hi j hj he => ?_, fun j hj => ?_, fun h' => absurd (hi.symm.trans h') Bool.noConfusion⟩
  · rcases hslot j hj with hj | rfl
    · simpa [setAt_ne _ _ (Nat.ne_of_lt hj)] using h.active j hj
    · simp [MiniKernel.Security.newUser]
  · rcases hslot j hj with hj | rfl
    · simpa [setAt_ne _ _ (Nat.ne_of_lt hj)] using h.name_length j hj
    · simpa [hname] using hl
  · rcases hslot j hj with hj | rfl
    · simpa [setAt_ne _ _ (Nat.ne_of_lt hj)] using h.name_cStr j hj
    · simp only [setAt_same, hname, cStr_cStr]
  · simp only at hi hj he
    rcases hslot i hi with hi | rfl <;> rcases hslot j hj with hj | rfl
    · rw [setAt_ne _ _ (Nat.ne_of_lt hi), setAt_ne _ _ (Nat.ne_of_lt hj)] at he
      exact h.names_distinct i hi j hj he
    · rw [setAt_ne _ _ (Nat.ne_of_lt hi), setAt_same, hname] at he
      exact absurd he (hfresh i hi)
    · rw [setAt_ne _ _ (Nat.ne_of_lt hj), setAt_same, hname] at he
      exact absurd he.symm (hfresh j hj)
    · rfl
  · exact Nat.lt_succ_of_lt (h.current j hj)

/-! ## Every call -/

/-- The invariant of the subsystem over every reachable state. -/
structure SecInv (s : SecurityState) : Prop where
  accounts : AccountsInv s
  log : LogInv s

theorem secInv_staticSecurity : SecInv staticSecurity :=
  ⟨⟨Nat.zero_le _, nofun, nofun, nofun, nofun, nofun, fun _ => rfl⟩,
    ⟨rfl, Nat.zero_le _, fun _ => rfl, rfl⟩⟩

namespace SecInv

variable (hs : SecInv s)
include hs

theorem addSecurityLogEntry (e d : Option (List Char)) (u : Option Nat) :
    SecInv (addSecurityLogEntry s e d u) :=
  ⟨hs.accounts.addSecurityLogEntry e d u, hs.log.addSecurityLogEntry e d u⟩

/-- A write that leaves the log alone and keeps the account invariant, then a log entry. -/
theorem addSecurityLogEntry_of {t : SecurityState} {e d : Option (List Char)} {u : Option Nat}
    (ha : AccountsInv t) (hl : t.securityLog = s.securityLog) (hi : t.logIndex = s.logIndex)
    (hc : t.logCount = s.logCount) (he : t.securityEventsLogged = s.securityEventsLogged) :
    SecInv (MiniKernel.Security.addSecurityLogEntry t e d u) :=
  SecInv.addSecurityLogEntry ⟨ha, hs.log.frame hl hi hc he⟩ e d u

/-- A write to the flags, then a log entry. -/
theorem addSecurityLogEntry_of_flags {t : SecurityState} {e d : Option (List Char)}
    {u : Option Nat} (hd : t.userDatabase = s.userDatabase) (hc : t.userCount = s.userCount)
    (hu : t.currentUser = s.currentUser) (hi : t.isInitialized = s.isInitialized)
    (hl : t.securityLog = s.securityLog) (hx : t.logIndex = s.logIndex)
    (hn : t.logCount = s.logCount) (he : t.securityEventsLogged = s.securityEventsLogged) :
    SecInv (MiniKernel.Security.addSecurityLogEntry t e d u) :=
  hs.addSecurityLogEntry_of (hs.accounts.of_slots hc (fun j _ => by rw [hd]; exact ⟨rfl, rfl⟩)
      (fun j hj => hs.accounts.current j (hu ▸ hj))
      (fun h => hu ▸ hs.accounts.uninitialized (hi ▸ h)))
    hl hx hn he

theorem securityInit : SecInv (securityInit s).2 := by
  cases hi : s.isInitialized
  · rw [securityInit_of_not_initialized hi]
    dsimp only
    exact SecInv.addSecurityLogEntry
      ⟨hs.accounts.reset hi, rfl, Nat.zero_le _, fun _ => rfl, rfl⟩ _ _ _
  · simpa [MiniKernel.Security.securityInit, hi] using hs

theorem securityCreateUser (u p : Option (List Char)) (privilege : Nat) :
    SecInv (securityCreateUser s u p privilege).2 := by
  rcases securityCreateUser_cases s u p privilege with
      h | ⟨u, p, rfl, rfl, hi, hl, hn, hf, h⟩ <;>
    rw [h] <;> dsimp only
  · exact hs
  · exact hs.addSecurityLogEntry_of (hs.accounts.newUser hi p privilege hl hn hf) rfl rfl rfl rfl

theorem securityAuthenticateUser (u p : Option (List Char)) :
    SecInv (securityAuthenticateUser s u p).2 := by
  rcases securityAuthenticateUser_cases s u p with
      h | ⟨u, -, h⟩ | ⟨u, p, i, -, -, hi, hf, -, -, h⟩ <;>
    rw [h] <;> dsimp only
  · exact hs
  · exact hs.addSecurityLogEntry _ _ _
  · refine hs.addSecurityLogEntry_of ?_ rfl rfl rfl rfl
    refine hs.accounts.of_slots rfl (fun j _ => (setAt_sessionId _ i j _).imp_right And.left)
      (fun j hj => ?_) (fun h' => absurd (hi.symm.trans h') Bool.noConfusion)
    cases hj
    exact (findUserByUsername_some hf).1

theorem securityLogoutUser (user : Option Nat) : SecInv (securityLogoutUser s user).2 := by
  rcases securityLogoutUser_cases s user with h | ⟨i, -, hi, h⟩ <;> rw [h] <;> dsimp only
  · exact hs
  · refine hs.addSecurityLogEntry_of ?_ rfl rfl rfl rfl
    refine hs.accounts.of_slots rfl (fun j _ => (setAt_sessionId _ i j _).imp_right And.left)
      (fun j hj => hs.accounts.current j ?_) (fun h' => absurd (hi.symm.trans h') Bool.noConfusion)
    dsimp only at hj
    split at hj
    · cases hj
    · exact hj

theorem securityInitMemoryProtection : SecInv (securityInitMemoryProtection s).2 := by
  unfold MiniKernel.Security.securityInitMemoryProtection
  split
  · exact hs
  · dsimp only
    exact hs.addSecurityLogEntry_of_flags rfl rfl rfl rfl rfl rfl rfl rfl

theorem securityInitKernelProtection : SecInv (securityInitKernelProtection s).2 := by
  unfold MiniKernel.Security.securityInitKernelProtection
  split
  · exact hs
  · dsimp only
    exact hs.addSecurityLogEntry_of_flags rfl rfl rfl rfl rfl rfl rfl rfl

theorem securityLogSecurityViolation (v d : Option (List Char)) (u : Option Nat) :
    SecInv (securityLogSecurityViolation s v d u) := by
  have h := hs.addSecurityLogEntry v d u
  exact ⟨h.accounts.of_slots rfl (fun _ _ => ⟨rfl, rfl⟩) h.accounts.current
      h.accounts.uninitialized,
    h.log.frame rfl rfl rfl rfl⟩

theorem runSecOp (op : SecOp) : SecInv (runSecOp s op) := by
  cases op with
  | init => exact hs.securityInit
  | initMemoryProtection => exact hs.securityInitMemoryProtection
  | initKernelProtection => exact hs.securityInitKernelProtection
  | createUser u p privilege => exact hs.securityCreateUser u p privilege
  | authenticateUser u p => exact hs.securityAuthenticateUser u p
  | logoutUser user => exact hs.securityLogoutUser user
  | logEvent e d u => exact hs.addSecurityLogEntry e d u
  | logSecurityViolation v d u => exact hs.securityLogSecurityViolation v d u
  | enterCriticalSection | exitCriticalSection | displaySecurityStatus =>
    simp only [MiniKernel.Security.runSecOp, securityEnterCriticalSection,
      securityExitCriticalSection, securityDisplaySecurityStatus]
    exact hs.addSecurityLogEntry _ _ _

end SecInv

theorem Reachable.secInv (h : Reachable s) : SecInv s := by
  induction h with
  | static => exact secInv_staticSecurity
  | step op _ ih => exact ih.runSecOp op

/-- In every reachable state the user table holds at most 16 accounts, all active, with
distinct names that are C strings fitting their arrays; the current principal is one of them,
and there is none before `security_init`. -/
theorem accountsInv_of_reachable (hs : Reachable s) : AccountsInv s := hs.secInv.accounts

/-- After `security_init`, an account created and logged into, and one event logged. -/
theorem accountsInv_after_login :
    let s := runSecOps staticSecurity [.init, .createUser (some "root".toList) (some "pw".toList) 1,
      .authenticateUser (some "root".toList) (some "pw".toList), .logEvent (some "E".toList)
        (some "D".toList) none]
    Reachable s ∧ AccountsInv s :=
  let hs := Reachable.static.runSecOps _
  ⟨hs, accountsInv_of_reachable hs⟩

/-- In every reachable state the ring holds at most `SECURITY_LOG_SIZE` live entries, as many as
there were events while it holds fewer, and, newest first, they carry the event numbers
counting down from the last: no entry is lost or repeated. -/
theorem logView_of_reachable (hs : Reachable s) :
    (logView s).length ≤ securityLogSize ∧
      ((logView s).length < securityLogSize → (logView s).length = s.securityEventsLogged.toNat) ∧
      (logView s).map LogEntry.timestamp = (List.range (logView s).length).map fun k =>
        s.securityEventsLogged - BitVec.ofNat 32 (k + 1) := by
  have h := hs.secInv.log
  rw [length_logView]
  exact ⟨h.count_le, h.count_eq, h.stamps⟩

/-- The state of `accountsInv_after_login`, whose calls have logged several events. -/
theorem logView_after_login :
    let s := runSecOps staticSecurity [.init, .createUser (some "root".toList) (some "pw".toList) 1,
      .authenticateUser (some "root".toList) (some "pw".toList), .logEvent (some "E".toList)
        (some "D".toList) none]
    Reachable s ∧ (logView s).length ≤ securityLogSize ∧
      ((logView s).length < securityLogSize → (logView s).length = s.securityEventsLogged.toNat) ∧
      (logView s).map LogEntry.timestamp = (List.range (logView s).length).map fun k =>
        s.securityEventsLogged - BitVec.ofNat 32 (k + 1) :=
  let hs := Reachable.static.runSecOps _
  ⟨hs, logView_of_reachable hs⟩

/-- In every reachable state `add_security_log_entry` puts its entry in front of the live
entries, and the oldest falls off once `SECURITY_LOG_SIZE` are live. -/
theorem logView_addSecurityLogEntry_of_reachable (hs : Reachable s) (e d : List Char)
    (u : Option Nat) :
    logView (addSecurityLogEntry s (some e) (some d) u) =
      (⟨(cStr e).take 31, (cStr d).take 127, s.securityEventsLogged, u⟩ :: logView s).take
        securityLogSize :=
  have h := hs.secInv.log
  logView_addSecurityLogEntry (h.index ▸ Nat.mod_lt _ (by decide)) h.count_le e d u

theorem logView_addSecurityLogEntry_after_login :
    let s := runSecOps staticSecurity [.init, .createUser (some "root".toList) (some "pw".toList) 1,
      .authenticateUser (some "root".toList) (some "pw".toList), .logEvent (some "E".toList)
        (some "D".toList) none]
    Reachable s ∧ logView (addSecurityLogEntry s (some "F".toList) (some "G".toList) (some 0)) =
      (⟨(cStr "F".toList).take 31, (cStr "G".toList).take 127, s.securityEventsLogged, some 0⟩ ::
        logView s).take securityLogSize :=
  let hs := Reachable.static.runSecOps _
  ⟨hs, logView_addSecurityLogEntry_of_reachable hs _ _ _⟩

end MiniKernel.Security
