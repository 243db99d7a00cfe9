import MiniKernel.Scheduler.RunQueue
import Mathlib.Data.List.Nodup

/-! The invariant of the scheduler over every state a run passes through, between
driver steps and inside a slice:

* `Invariant`: the cursors stay in the ring and the table in its array, the queued ids
  are distinct ready threads, no thread is blocked, a running thread is the current one
  and the current one is running, every thread sits on a CPU that exists, and each
  `sc_cpu_load [c]` counts the threads on `c` that are not done;
* one preservation lemma per function (`requeue` serves `yield` and the end of a slice),
  then `runBody` for a whole closure and `scheduleProcess` for a whole slice;
* `Reachable.invariant`: between driver steps the invariant holds and no thread is
  current. -/

namespace MiniKernel.Scalability

/-! ## Load counts -/

/-- Whether `sc_cpu_load [c]` counts a thread: it is on `c` and not done. -/
def countsOn (c : Nat) (t : ScThread) : Bool := t.cpuId = c ∧ t.state ≠ .done

/-- How many of the first `n` threads `sc_cpu_load [c]` counts. -/
def threadsOn (threads : Nat → ScThread) (n c : Nat) : Nat :=
  (List.range n).countP fun i => countsOn c (threads i)

private theorem threadsOn_setAt_add (a : Nat → ScThread) (c : Nat) (t : ScThread) {i n : Nat}
    (hi : i < n) :
    threadsOn (setAt a i t) n c + (if countsOn c (a i) then 1 else 0) =
      threadsOn a n c + (if countsOn c t then 1 else 0) := by
  unfold threadsOn
  induction n with
  | zero => omega
  | succ n ih =>
    simp only [List.range_succ, List.countP_append, List.countP_singleton]
    rcases Nat.lt_succ_iff_lt_or_eq.1 hi with hi | rfl
    · rw [setAt_ne _ _ (by omega : n ≠ i)]; have := ih hi; omega
    · rw [setAt_same, List.countP_congr fun j hj => by
        rw [setAt_ne _ _ (by rw [List.mem_range] at hj; omega)]]
      omega

/-- Rewriting one thread record moves it from one count to another. -/
theorem threadsOn_setAt (a : Nat → ScThread) (t : ScThread) {i n : Nat} (hi : i < n) (c : Nat) :
    (threadsOn (setAt a i t) n c : Int) =
      threadsOn a n c + ((if countsOn c t then 1 else 0) - (if countsOn c (a i) then 1 else 0)) := by
  have := threadsOn_setAt_add a c t hi
  split_ifs at this ⊢ <;> omega

/-- A record written just past the table joins one count. -/
theorem threadsOn_push (a : Nat → ScThread) (t : ScThread) (n c : Nat) :
    threadsOn (setAt a n t) (n + 1) c = threadsOn a n c + (if countsOn c t then 1 else 0) := by
  unfold threadsOn
  rw [List.range_succ, List.countP_append, List.countP_singleton, setAt_same,
    List.countP_congr fun j hj => by rw [setAt_ne _ _ (by rw [List.mem_range] at hj; omega)]]

/-! ## The CPU scans -/

theorem foldl_scan {L : Nat → Int} (key : Int → Int) {better : Int → Int → Bool}
    (hb : ∀ a b, better a b = true ↔ key a < key b) (l : List Nat) (m : Nat) :
    let r := l.foldl (fun m i => if better (L i) (L m) then i else m) m
    (r = m ∨ r ∈ l) ∧ ∀ c ∈ m :: l, key (L r) ≤ key (L c) := by
  induction l generalizing m with
  | nil => simp
  | cons x xs ih =>
    simp only [List.foldl_cons]
    by_cases h : better (L x) (L m)
    · have hlt := (hb _ _).1 h
      rw [if_pos h]
      obtain ⟨hr, hle⟩ := ih x
      refine ⟨.inr (hr.elim (fun e => by rw [e]; exact List.mem_cons_self _ _)
        (List.mem_cons_of_mem _)), fun c hc => ?_⟩
      have h0 := hle x (List.mem_cons_self _ _)
      rcases List.mem_cons.1 hc with rfl | hc
      · omega
      · exact hle c hc
    · have hge : key (L m) ≤ key (L x) := Int.not_lt.1 (mt (hb _ _).2 h)
      rw [if_neg h]
      obtain ⟨hr, hle⟩ := ih m
      refine ⟨hr.imp_right (List.mem_cons_of_mem _), fun c hc => ?_⟩
      have h0 := hle m (List.mem_cons_self _ _)
      simp only [List.mem_cons] at hc
      rcases hc with rfl | rfl | hc
      · exact h0
      · omega
      · exact hle c (List.mem_cons_of_mem _ hc)

/-- The scan returns a CPU that exists and that no CPU's load beats. -/
theorem scanCpus_spec (key : Int → Int) {better : Int → Int → Bool}
    (hb : ∀ a b, better a b = true ↔ key a < key b) {s : Scheduler} (hc : 0 < s.scCpuCount) :
    scanCpus better s < s.scCpuCount ∧
    ∀ c < s.scCpuCount, key (s.scCpuLoad (scanCpus better s)) ≤ key (s.scCpuLoad c) := by
  obtain ⟨hr, hle⟩ := foldl_scan key hb (List.range' 1 (s.scCpuCount - 1)) 0
  refine ⟨?_, fun c hc' => hle c ?_⟩
  · rcases hr with hr | hr
    · unfold scanCpus; rw [hr]; exact hc
    · unfold scanCpus; rw [List.mem_range'_1] at hr; omega
  · rw [List.mem_cons, List.mem_range'_1]; omega

theorem minCpu_spec {s : Scheduler} (hc : 0 < s.scCpuCount) :
    minCpu s < s.scCpuCount ∧ ∀ c < s.scCpuCount, s.scCpuLoad (minCpu s) ≤ s.scCpuLoad c :=
  scanCpus_spec id (fun a b => by simp) hc

theorem bestCpu_lt {s : Scheduler} (hc : 0 < s.scCpuCount) : bestCpu s < s.scCpuCount :=
  (minCpu_spec hc).1

theorem maxCpu_spec {s : Scheduler} (hc : 0 < s.scCpuCount) :
    maxCpu s < s.scCpuCount ∧ ∀ c < s.scCpuCount, s.scCpuLoad c ≤ s.scCpuLoad (maxCpu s) := by
  have hb : ∀ a b : Int, decide (a > b) = true ↔ -a < -b := fun a b => by
    simp only [decide_eq_true_eq, gt_iff_lt]; omega
  obtain ⟨h1, h2⟩ := scanCpus_spec (fun a => -a) hb hc
  exact ⟨h1, fun c hc => by have := h2 c hc; unfold maxCpu; omega⟩

/-- A strict scan keeps the first of the best CPUs: every CPU before the result is worse. -/
theorem foldl_scan_first {L : Nat → Int} (key : Int → Int) {better : Int → Int → Bool}
    (hb : ∀ a b, better a b = true ↔ key a < key b) (k : Nat) :
    ∀ a m, m < a → (∀ c < m, key (L m) < key (L c)) → (∀ c < a, key (L m) ≤ key (L c)) →
      let r := (List.range' a k).foldl (fun m i => if better (L i) (L m) then i else m) m
      ∀ c < r, key (L r) < key (L c) := by
  induction k with
  | zero => intro a m _ hm _; simpa using hm
  | succ k ih =>
    intro a m hma hm hle
    rw [List.range'_succ, List.foldl_cons]
    by_cases h : better (L a) (L m)
    · have hlt := (hb _ _).1 h
      rw [if_pos h]
      refine ih (a + 1) a (by omega) (fun c hc => ?_) fun c hc => ?_
      · have := hle c hc; omega
      · rcases Nat.lt_succ_iff_lt_or_eq.1 hc with hc | rfl
        · have := hle c hc; omega
        · exact le_refl _
    · have hge : ¬key (L a) < key (L m) := fun h' => h ((hb _ _).2 h')
      rw [if_neg h]
      refine ih (a + 1) m (by omega) hm fun c hc => ?_
      rcases Nat.lt_succ_iff_lt_or_eq.1 hc with hc | rfl
      · exact hle c hc
      · omega

/-- {best_cpu} is the first CPU of least load. -/
theorem bestCpu_first (s : Scheduler) :
    ∀ c < bestCpu s, s.scCpuLoad (bestCpu s) < s.scCpuLoad c :=
  @foldl_scan_first s.scCpuLoad id (fun a b => decide (a < b))
    (fun a b => by simp) (s.scCpuCount - 1) 1 0 Nat.one_pos
    (fun _ h => absurd h (Nat.not_lt_zero _)) fun c hc => by rw [Nat.lt_one_iff.1 hc]

/-! ## The invariant -/

structure Invariant (s : Scheduler) : Prop where
  ring : RingBounds s
  count_le : s.scThreadCount ≤ scMaxThreads
  cpus_pos : 0 < s.scCpuCount
  cpus_le : s.scCpuCount ≤ scMaxCpus
  queue_nodup : (rqList s).Nodup
  queue_ready : ∀ id ∈ rqList s, id < s.scThreadCount ∧ (s.scThreads id).state = .ready
  not_blocked : ∀ i < s.scThreadCount, (s.scThreads i).state ≠ .blocked
  running_current : ∀ i < s.scThreadCount, (s.scThreads i).state = .running →
    s.scCurrentThread = some i
  current_running : ∀ id, s.scCurrentThread = some id →
    id < s.scThreadCount ∧ (s.scThreads id).state = .running
  cpu_lt : ∀ i < s.scThreadCount, (s.scThreads i).cpuId < s.scCpuCount
  load_eq : ∀ c < s.scCpuCount, s.scCpuLoad c = threadsOn s.scThreads s.scThreadCount c

/-- Between driver steps, or in a slice after the closure yielded or completed. -/
def Idle (s : Scheduler) : Prop := Invariant s ∧ s.scCurrentThread = none

theorem invariant_initScheduler (cpus : Int) (s : Scheduler) :
    Idle (initScheduler cpus s) := by
  have hc : 0 < (initScheduler cpus s).scCpuCount ∧ (initScheduler cpus s).scCpuCount ≤ scMaxCpus := by
    simp only [initScheduler, scMaxCpus]; split_ifs <;> omega
  refine ⟨⟨⟨Nat.succ_pos _, Nat.succ_pos _⟩, Nat.zero_le _, hc.1, hc.2, ?_, fun id hid => ?_,
    fun i hi => absurd hi (Nat.not_lt_zero i), fun i hi => absurd hi (Nat.not_lt_zero i),
    fun _ h => by simp [initScheduler] at h, fun i hi => absurd hi (Nat.not_lt_zero i),
    fun c _ => by simp [initScheduler, threadsOn]⟩, rfl⟩
  · simp [rqList, initScheduler]
  · simp [rqList, initScheduler] at hid

namespace Invariant

variable {s : Scheduler} (hi : Invariant s)
include hi

theorem not_queued_of_running {id : Nat} (h : (s.scThreads id).state = .running) :
    id ∉ rqList s := fun hq => by simp [(hi.queue_ready id hq).2] at h

theorem not_running_of_idle (hc : s.scCurrentThread = none) {i : Nat} (h : i < s.scThreadCount) :
    (s.scThreads i).state ≠ .running := fun hr => by simpa [hc] using hi.running_current i h hr

/-- The current thread, made ready, goes to the back of the ring (or is lost to a full
one) and stops being current: `yield`, and the end of a slice. -/
theorem requeue {id : Nat} (hc : s.scCurrentThread = some id) {t : ScThread}
    (ht : t.state = .ready) (hcpu : t.cpuId = (s.scThreads id).cpuId) :
    Invariant { enqueue { s with scThreads := setAt s.scThreads id t } id with
      scCurrentThread := none } := by
  obtain ⟨hid, hrun⟩ := hi.current_running id hc
  have hnq := hi.not_queued_of_running hrun
  have hring : RingBounds { s with scThreads := setAt s.scThreads id t } := hi.ring
  have hq := rqList_enqueue hring id
  have hold : ∀ j, j ≠ id → setAt s.scThreads id t j = s.scThreads j :=
    fun j hj => setAt_ne _ _ hj
  refine ⟨hq.1, by simpa using hi.count_le, by simpa using hi.cpus_pos,
    by simpa using hi.cpus_le, ?_, fun j hj => ?_, fun j hj => ?_, fun j hj hr => ?_,
    fun _ h => by simp at h, fun j hj => ?_, fun c hc => ?_⟩
  all_goals simp only [enqueue_scThreads, enqueue_scThreadCount, enqueue_scCpuCount,
    enqueue_scCpuLoad] at *
  · change (rqList (enqueue _ id)).Nodup
    rw [hq.2]; split
    · exact List.nodup_append.2 ⟨hi.queue_nodup, List.nodup_singleton _, by simpa using hnq⟩
    · exact hi.queue_nodup
  · rcases mem_rqList_enqueue hring hj with hj' | rfl
    · rw [hold j (by rintro rfl; exact hnq hj')]; exact hi.queue_ready j hj'
    · rw [setAt_same]; exact ⟨hid, ht⟩
  · by_cases hji : j = id
    · rw [hji, setAt_same, ht]; simp
    · rw [hold j hji]; exact hi.not_blocked j hj
  · by_cases hji : j = id
    · rw [hji, setAt_same, ht] at hr; cases hr
    · rw [hold j hji] at hr
      exact absurd (Option.some_inj.1 ((hi.running_current j hj hr).symm.trans hc)) hji
  · by_cases hji : j = id
    · rw [hji, setAt_same, hcpu]; exact hi.cpu_lt id hid
    · rw [hold j hji]; exact hi.cpu_lt j hj
  · rw [threadsOn_setAt _ _ hid, ← hi.load_eq c hc]
    simp [countsOn, ht, hrun, hcpu]

theorem yield : Invariant (yield s) := by
  unfold MiniKernel.Scalability.yield
  split
  · exact hi
  · exact hi.requeue ‹_› rfl rfl

theorem completeCurrentThread : Invariant (completeCurrentThread s) := by
  unfold MiniKernel.Scalability.completeCurrentThread
  split
  · exact hi
  · rename_i id hc
    obtain ⟨hid, hrun⟩ := hi.current_running id hc
    have hnq := hi.not_queued_of_running hrun
    refine ⟨hi.ring, hi.count_le, hi.cpus_pos, hi.cpus_le, hi.queue_nodup, fun j hj => ?_,
      fun j hj => ?_, fun j hj hr => ?_, fun _ hj => by simp at hj, fun j hj => ?_,
      fun c hc => ?_⟩
    all_goals dsimp only at *
    · rw [setAt_ne _ _ (by rintro rfl; exact hnq hj)]; exact hi.queue_ready j hj
    · by_cases hji : j = id
      · rw [hji, setAt_same]; simp
      · rw [setAt_ne _ _ hji]; exact hi.not_blocked j hj
    · by_cases hji : j = id
      · rw [hji, setAt_same] at hr; cases hr
      · rw [setAt_ne _ _ hji] at hr
        exact absurd (Option.some_inj.1 ((hi.running_current j hj hr).symm.trans hc)) hji
    · by_cases hji : j = id
      · rw [hji, setAt_same]; exact hi.cpu_lt id hid
      · rw [setAt_ne _ _ hji]; exact hi.cpu_lt j hj
    · rw [threadsOn_setAt _ _ hid, ← hi.load_eq c hc]
      by_cases h : c = (s.scThreads id).cpuId <;> simp [countsOn, setAt, hrun, h, eq_comm]
      omega

theorem createThread (entry arg : Nat) (priority : Int) :
    Invariant (createThread s entry arg priority).2 := by
  unfold MiniKernel.Scalability.createThread
  split
  · exact hi
  split
  · exact hi
  rename_i _ hfull
  have hq := rqList_enqueue (show RingBounds (newThread s entry arg priority) from hi.ring)
    s.scThreadCount
  have hbest := bestCpu_lt hi.cpus_pos
  have hold : ∀ j < s.scThreadCount, setAt s.scThreads s.scThreadCount
      ⟨s.scThreadCount, bestCpu s, priority, 1, entry, arg, .ready, 0⟩ j = s.scThreads j :=
    fun j hj => setAt_ne _ _ (by omega)
  refine ⟨hq.1, ?_, by simpa using hi.cpus_pos, by simpa using hi.cpus_le, ?_, fun j hj => ?_,
    fun j hj => ?_, fun j hj hr => ?_, fun j hj => ?_, fun j hj => ?_, fun c hc => ?_⟩
  all_goals simp only [enqueue_scThreads, enqueue_scThreadCount, enqueue_scCpuCount,
    enqueue_scCpuLoad, enqueue_scCurrentThread, newThread] at *
  · omega
  · change (rqList (enqueue _ _)).Nodup
    rw [hq.2]; split
    · refine List.nodup_append.2 ⟨hi.queue_nodup, List.nodup_singleton _, ?_⟩
      simpa using fun h => absurd (hi.queue_ready _ h).1 (Nat.lt_irrefl _)
    · exact hi.queue_nodup
  · rcases mem_rqList_enqueue (show RingBounds (newThread s entry arg priority) from hi.ring) hj
      with hj' | rfl
    · obtain ⟨hlt, hr⟩ := hi.queue_ready j hj'
      rw [hold j hlt]; exact ⟨by omega, hr⟩
    · rw [setAt_same]; exact ⟨by omega, rfl⟩
  · rcases Nat.lt_succ_iff_lt_or_eq.1 hj with hj | rfl
    · rw [hold j hj]; exact hi.not_blocked j hj
    · rw [setAt_same]; simp
  · rcases Nat.lt_succ_iff_lt_or_eq.1 hj with hj | rfl
    · rw [hold j hj] at hr; exact hi.running_current j hj hr
    · rw [setAt_same] at hr; cases hr
  · obtain ⟨hlt, hr⟩ := hi.current_running j hj
    rw [hold j hlt]; exact ⟨by omega, hr⟩
  · rcases Nat.lt_succ_iff_lt_or_eq.1 hj with hj | rfl
    · rw [hold j hj]; exact hi.cpu_lt j hj
    · rw [setAt_same]; exact hbest
  · have := hi.load_eq c hc
    rw [threadsOn_push]
    by_cases h : c = bestCpu s
    · subst h; simp [countsOn, setAt]; omega
    · simp [countsOn, setAt, h, Ne.symm h, this]

theorem loadBalance : Invariant (loadBalance s) := by
  unfold MiniKernel.Scalability.loadBalance
  dsimp only
  split
  · exact hi
  split
  · exact hi
  rename_i i hm
  have hic : i < s.scThreadCount := List.mem_range.1 (List.mem_of_find?_eq_some hm)
  have hp := List.find?_some hm
  simp only [decide_eq_true_eq] at hp
  obtain ⟨hrdy, hcpu⟩ := hp
  have hlo := (minCpu_spec hi.cpus_pos).1
  have hstate : ∀ j, (setAt s.scThreads i { s.scThreads i with cpuId := minCpu s } j).state =
      (s.scThreads j).state := fun j => by
    by_cases hji : j = i
    · rw [hji, setAt_same]
    · rw [setAt_ne _ _ hji]
  refine ⟨hi.ring, hi.count_le, hi.cpus_pos, hi.cpus_le, hi.queue_nodup, fun j hj => ?_,
    fun j hj => ?_, fun j hj hr => ?_, fun j hj => ?_, fun j hj => ?_, fun c hc => ?_⟩
  all_goals dsimp only at *
  · rw [hstate]; exact hi.queue_ready j hj
  · rw [hstate]; exact hi.not_blocked j hj
  · rw [hstate] at hr; exact hi.running_current j hj hr
  · rw [hstate]; exact hi.current_running j hj
  · by_cases hji : j = i
    · rw [hji, setAt_same]; exact hlo
    · rw [setAt_ne _ _ hji]; exact hi.cpu_lt j hj
  · rw [threadsOn_setAt _ _ hic, ← hi.load_eq c hc]
    by_cases h1 : c = maxCpu s <;> by_cases h2 : c = minCpu s <;>
      simp [countsOn, setAt, hrdy, hcpu, h1, h2, eq_comm] <;> omega

theorem runCall (c : Call) : Invariant (runCall s c) := by
  cases c with
  | yield => exact hi.yield
  | completeCurrentThread => exact hi.completeCurrentThread
  | createThread entry arg priority => exact hi.createThread entry arg priority
  | loadBalance => exact hi.loadBalance

/-- `pop_rq` hands out a ready thread; dispatching it keeps the invariant. -/
theorem dispatch (hc : s.scCurrentThread = none) {id : Nat} {s1 : Scheduler}
    (hp : popRq s = some (id, s1)) :
    (s1.scThreads id).state = .ready ∧ Invariant (dispatch s1 id) := by
  obtain ⟨hb1, hq, rfl⟩ := rqList_popRq hi.ring hp
  have hnd := hi.queue_nodup
  rw [hq, List.nodup_cons] at hnd
  obtain ⟨hid, hrdy⟩ := hi.queue_ready id (hq ▸ List.mem_cons_self _ _)
  refine ⟨hrdy, hb1, hi.count_le, hi.cpus_pos, hi.cpus_le, hnd.2, fun j hj => ?_,
    fun j hj => ?_, fun j hj hr => ?_, fun j hj => ?_, fun j hj => ?_, fun c hc => ?_⟩
  all_goals dsimp only [MiniKernel.Scalability.dispatch] at *
  · have hne : j ≠ id := by rintro rfl; exact hnd.1 hj
    rw [setAt_ne _ _ hne]; exact hi.queue_ready j (hq ▸ List.mem_cons_of_mem _ hj)
  · by_cases hji : j = id
    · rw [hji, setAt_same]; simp
    · rw [setAt_ne _ _ hji]; exact hi.not_blocked j hj
  · by_cases hji : j = id
    · rw [hji]
    · rw [setAt_ne _ _ hji] at hr; exact absurd hr (hi.not_running_of_idle hc hj)
  · cases hj; exact ⟨hid, by rw [setAt_same]⟩
  · by_cases hji : j = id
    · rw [hji, setAt_same]; exact hi.cpu_lt id hid
    · rw [setAt_ne _ _ hji]; exact hi.cpu_lt j hj
  · rw [threadsOn_setAt _ _ hid, ← hi.load_eq c hc]
    simp [countsOn, hrdy]

/-- After the closure returns: requeue the thread if it is still current. -/
theorem finishSlice {id : Nat} (hc : s.scCurrentThread = none ∨ s.scCurrentThread = some id) :
    Idle (finishSlice s id) := by
  unfold MiniKernel.Scalability.finishSlice
  split
  · exact ⟨hi.requeue ‹_› rfl rfl, rfl⟩
  · exact ⟨hi, hc.resolve_right ‹_›⟩

end Invariant

/-- A whole closure keeps the invariant, and the current thread is the dispatched one
until the closure yields or completes. -/
theorem Invariant.runBody {s : Scheduler} (hi : Invariant s) {id : Nat}
    (hc : s.scCurrentThread = none ∨ s.scCurrentThread = some id) (body : List Call) :
    Invariant (runBody s body) ∧
    ((runBody s body).scCurrentThread = none ∨ (runBody s body).scCurrentThread = some id) := by
  induction body generalizing s with
  | nil => exact ⟨hi, hc⟩
  | cons c body ih =>
    refine ih (hi.runCall c) ?_
    rcases runCall_scCurrentThread s c with h | h <;> rw [h]
    · exact hc
    · exact .inl rfl

/-- A whole `schedule_process` step, from an idle state, leaves an idle state. -/
theorem Idle.scheduleProcess {s : Scheduler} (h : Idle s) (closure : ScThread → List Call) :
    Idle (scheduleProcess s closure) := by
  unfold MiniKernel.Scalability.scheduleProcess
  split
  · exact h
  · rename_i id s1 hp
    obtain ⟨hrdy, hd⟩ := h.1.dispatch h.2 hp
    rw [if_neg (by simp [hrdy])]
    obtain ⟨hb, hc⟩ := hd.runBody (.inr rfl) (closure (s1.scThreads id))
    exact hb.finishSlice hc

theorem Idle.runOp {s : Scheduler} (h : Idle s) (op : Op) : Idle (runOp s op) := by
  cases op with
  | call c =>
    refine ⟨h.1.runCall c, ?_⟩
    show (MiniKernel.Scalability.runCall s c).scCurrentThread = none
    rcases runCall_scCurrentThread s c with e | e <;> rw [e]
    exact h.2
  | scheduleProcess closure => exact h.scheduleProcess closure

/-- The states between driver steps: `init_scheduler`, then any top-level calls. -/
inductive Reachable : Scheduler → Prop
  | init (cpus : Int) (s : Scheduler) : Reachable (initScheduler cpus s)
  | step {s : Scheduler} (op : Op) : Reachable s → Reachable (runOp s op)

theorem Reachable.runOps {s : Scheduler} (hs : Reachable s) (ops : List Op) :
    Reachable (runOps s ops) := by
  induction ops generalizing s with
  | nil => exact hs
  | cons op ops ih => exact ih (hs.step op)

theorem Reachable.idle {s : Scheduler} (hs : Reachable s) : Idle s := by
  induction hs with
  | init cpus s => exact invariant_initScheduler cpus s
  | step op _ ih => exact ih.runOp op

/-! ## Done threads -/

/-- Threads other than the current one keep their state through any call, and the table
only grows. -/
theorem runCall_state (s : Scheduler) (c : Call) {i : Nat} (hi : i < s.scThreadCount)
    (hc : s.scCurrentThread ≠ some i) :
    i < (runCall s c).scThreadCount ∧ ((runCall s c).scThreads i).state = (s.scThreads i).state := by
  cases c with
  | yield =>
    simp only [runCall, yield]; split
    · exact ⟨hi, rfl⟩
    · rename_i id h
      simp only [enqueue_scThreadCount, enqueue_scThreads]
      exact ⟨hi, by rw [setAt_ne _ _ (by rintro rfl; exact hc h)]⟩
  | completeCurrentThread =>
    simp only [runCall, completeCurrentThread]; split
    · exact ⟨hi, rfl⟩
    · rename_i id h
      exact ⟨hi, by dsimp only; rw [setAt_ne _ _ (by rintro rfl; exact hc h)]⟩
  | createThread entry arg priority =>
    simp only [runCall, createThread]; split_ifs
    · exact ⟨hi, rfl⟩
    · exact ⟨hi, rfl⟩
    · simp only [enqueue_scThreadCount, enqueue_scThreads, newThread]
      exact ⟨by omega, by rw [setAt_ne _ _ (by omega)]⟩
  | loadBalance =>
    simp only [runCall, loadBalance]; split
    · exact ⟨hi, rfl⟩
    · split
      · exact ⟨hi, rfl⟩
      · rename_i j _
        refine ⟨hi, ?_⟩
        dsimp only
        by_cases hj : i = j
        · rw [hj, setAt_same]
        · rw [setAt_ne _ _ hj]

theorem Invariant.not_current_of_done {s : Scheduler} (hi : Invariant s) {i : Nat}
    (hd : (s.scThreads i).state = .done) : s.scCurrentThread ≠ some i := fun h => by
  simp [(hi.current_running i h).2] at hd

/-- A done thread stays done, and in the table, through a closure's calls. -/
theorem runBody_done {s : Scheduler} (hi : Invariant s) (body : List Call) {i : Nat}
    (hlt : i < s.scThreadCount) (hd : (s.scThreads i).state = .done) :
    i < (runBody s body).scThreadCount ∧ ((runBody s body).scThreads i).state = .done := by
  induction body generalizing s with
  | nil => exact ⟨hlt, hd⟩
  | cons c body ih =>
    obtain ⟨hlt', hst⟩ := runCall_state s c hlt (hi.not_current_of_done hd)
    exact ih (hi.runCall c) hlt' (hst.trans hd)

/-- A done thread stays done through every driver step. -/
theorem runOp_done {s : Scheduler} (h : Idle s) (op : Op) {i : Nat}
    (hlt : i < s.scThreadCount) (hd : (s.scThreads i).state = .done) :
    i < (runOp s op).scThreadCount ∧ ((runOp s op).scThreads i).state = .done := by
  cases op with
  | call c =>
    obtain ⟨h1, h2⟩ := runCall_state s c hlt (h.1.not_current_of_done hd)
    exact ⟨h1, h2.trans hd⟩
  | scheduleProcess closure =>
    simp only [runOp, scheduleProcess]
    split
    · exact ⟨hlt, hd⟩
    · rename_i id s1 hp
      obtain ⟨hrdy, hdi⟩ := h.1.dispatch h.2 hp
      obtain ⟨-, -, hs1⟩ := rqList_popRq h.1.ring hp
      rw [if_neg (not_not.2 hrdy)]
      have hne : i ≠ id := by rintro rfl; simp [hs1, hd] at hrdy
      obtain ⟨hlt', hd'⟩ := runBody_done hdi (closure (s1.scThreads id))
        (show i < (dispatch s1 id).scThreadCount by simp [dispatch, hs1, hlt])
        (by simp [dispatch, setAt_ne _ _ hne, hs1, hd])
      unfold finishSlice; split
      · rename_i hc
        have hne' : i ≠ id := by
          rintro rfl
          exact (hdi.runBody (.inr rfl) (closure (s1.scThreads i))).1.not_current_of_done hd' hc
        simp only [enqueue_scThreadCount, enqueue_scThreads]
        exact ⟨hlt', by rw [setAt_ne _ _ hne']; exact hd'⟩
      · exact ⟨hlt', hd'⟩

end MiniKernel.Scalability
