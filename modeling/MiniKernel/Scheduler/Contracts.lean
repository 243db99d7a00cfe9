import MiniKernel.Scheduler.Invariant
import Mathlib.Algebra.BigOperators.Ring

/-! What the invariant says about the run queue, the thread states and the load
counters, in every state a run passes through. -/

namespace MiniKernel.Scalability

/-- The ring holds distinct ids of ready threads of the table. -/
def QueueSound (s : Scheduler) : Prop :=
  (rqList s).Nodup ∧ ∀ id ∈ rqList s, id < s.scThreadCount ∧ (s.scThreads id).state = .ready

/-- Every state a run passes through: between driver steps, or inside a slice after the
closure has made some of its calls. -/
def Visited (t : Scheduler) : Prop :=
  Reachable t ∨ ∃ s id s1 body, Reachable s ∧ popRq s = some (id, s1) ∧
    t = runBody (dispatch s1 id) body

theorem Visited.invariant {t : Scheduler} (h : Visited t) : Invariant t := by
  rcases h with h | ⟨s, id, s1, body, hs, hp, rfl⟩
  · exact h.idle.1
  · have hi := hs.idle
    exact ((hi.1.dispatch hi.2 hp).2.runBody (.inr rfl) body).1

theorem Invariant.queueSound {s : Scheduler} (hi : Invariant s) : QueueSound s :=
  ⟨hi.queue_nodup, hi.queue_ready⟩

/-- The run queue holds distinct ready threads in every state; between driver steps no
thread is running or blocked; during a slice only the dispatched thread runs, as the
current thread, until it yields or completes; a done thread stays done. The id
`pop_rq` returns is ready, so the stale-entry branch of `schedule_process` is dead. -/
theorem runQueue_invariant {s : Scheduler} (hs : Reachable s) :
    (QueueSound s ∧ s.scCurrentThread = none ∧
      ∀ i < s.scThreadCount, (s.scThreads i).state = .ready ∨ (s.scThreads i).state = .done) ∧
    (∀ id s1, popRq s = some (id, s1) → (s1.scThreads id).state = .ready ∧
      ∀ body, let t := runBody (dispatch s1 id) body
        QueueSound t ∧
        (∀ i < t.scThreadCount, (t.scThreads i).state ≠ .blocked ∧
          ((t.scThreads i).state = .running ↔ i = id ∧ t.scCurrentThread = some id)) ∧
        (t.scCurrentThread = none ∨ t.scCurrentThread = some id) ∧
        (∀ i < s.scThreadCount, (s.scThreads i).state = .done → (t.scThreads i).state = .done)) ∧
    ∀ op, ∀ i < s.scThreadCount, (s.scThreads i).state = .done →
      ((runOp s op).scThreads i).state = .done := by
  obtain ⟨hi, hc⟩ := hs.idle
  refine ⟨⟨hi.queueSound, hc, fun i h => ?_⟩, fun id s1 hp => ?_,
    fun op i h hd => (runOp_done ⟨hi, hc⟩ op h hd).2⟩
  · cases hst : (s.scThreads i).state
    · exact .inl rfl
    · exact absurd hst (hi.not_running_of_idle hc h)
    · exact absurd hst (hi.not_blocked i h)
    · exact .inr rfl
  · obtain ⟨hrdy, hd⟩ := hi.dispatch hc hp
    obtain ⟨-, -, hs1⟩ := rqList_popRq hi.ring hp
    refine ⟨hrdy, fun body => ?_⟩
    obtain ⟨ht, hcur⟩ := hd.runBody (.inr rfl) body
    refine ⟨ht.queueSound, fun i h => ⟨ht.not_blocked i h, ⟨fun hr => ?_, ?_⟩⟩, hcur,
      fun i h hdone => ?_⟩
    · have := ht.running_current i h hr
      rcases hcur with e | e <;> rw [e] at this
      · cases this
      · exact ⟨(Option.some_inj.1 this).symm, e⟩
    · rintro ⟨rfl, e⟩; exact (ht.current_running i e).2
    · have hne : i ≠ id := by rintro rfl; simp [hs1, hdone] at hrdy
      exact (runBody_done hd body
        (show i < (dispatch s1 id).scThreadCount by simp [dispatch, hs1, h])
        (by simp [dispatch, setAt_ne _ _ hne, hs1, hdone])).2

/-- `init_scheduler (2)` at program start. -/
def booted : Scheduler := initScheduler 2 staticScheduler

/-- Two threads created after boot; the first runs a slice and yields. -/
theorem yielded_runQueue :
    let s := runOps booted [.call (.createThread 1 0 0), .call (.createThread 1 1 0),
      .scheduleProcess fun _ => [.yield]]
    Reachable s ∧
    (QueueSound s ∧ s.scCurrentThread = none ∧
      ∀ i < s.scThreadCount, (s.scThreads i).state = .ready ∨ (s.scThreads i).state = .done) ∧
    (∀ id s1, popRq s = some (id, s1) → (s1.scThreads id).state = .ready ∧
      ∀ body, let t := runBody (dispatch s1 id) body
        QueueSound t ∧
        (∀ i < t.scThreadCount, (t.scThreads i).state ≠ .blocked ∧
          ((t.scThreads i).state = .running ↔ i = id ∧ t.scCurrentThread = some id)) ∧
        (t.scCurrentThread = none ∨ t.scCurrentThread = some id) ∧
        (∀ i < s.scThreadCount, (s.scThreads i).state = .done → (t.scThreads i).state = .done)) ∧
    ∀ op, ∀ i < s.scThreadCount, (s.scThreads i).state = .done →
      ((runOp s op).scThreads i).state = .done :=
  let hs := (Reachable.init 2 staticScheduler).runOps [.call (.createThread 1 0 0),
    .call (.createThread 1 1 0), .scheduleProcess fun _ => [.yield]]
  ⟨hs, runQueue_invariant hs⟩

/-! ## Load counters -/

/-- Counting the threads of each CPU counts each live thread once. -/
theorem sum_threadsOn (a : Nat → ScThread) {C : Nat} :
    ∀ n, (∀ i < n, (a i).cpuId < C) →
      ∑ c in Finset.range C, threadsOn a n c =
        (List.range n).countP fun i => (a i).state ≠ .done := by
  intro n
  induction n with
  | zero => simp [threadsOn]
  | succ n ih =>
    intro h
    have hstep :
        ∀ c, threadsOn a (n + 1) c = threadsOn a n c + if countsOn c (a n) then 1 else 0 :=
      fun c => by simp only [threadsOn, List.range_succ, List.countP_append, List.countP_singleton]
    simp only [hstep, Finset.sum_add_distrib, ih fun i hi => h i (by omega), List.range_succ,
      List.countP_append, List.countP_singleton]
    congr 1
    by_cases hd : (a n).state = .done
    · simp [countsOn, hd]
    · simp only [countsOn, hd, ne_eq, not_false_eq_true, and_true, decide_eq_true_eq]
      rw [Finset.sum_ite_eq, if_pos (Finset.mem_range.2 (h n (by omega)))]
      simp

theorem Invariant.sum_cpuLoad {s : Scheduler} (hi : Invariant s) :
    ∑ c in Finset.range s.scCpuCount, s.scCpuLoad c = getThreadCount s := by
  rw [Finset.sum_congr rfl fun c hc => hi.load_eq c (Finset.mem_range.1 hc), ← Nat.cast_sum,
    sum_threadsOn _ _ hi.cpu_lt]
  rfl

/-- Every thread sits on a CPU that exists, and each load counter counts the threads on
its CPU that are not done, so the counters are nonnegative and add up to
`get_thread_count`. -/
theorem cpuLoad_counts {s : Scheduler} (hs : Visited s) :
    (∀ i < s.scThreadCount, (s.scThreads i).cpuId < s.scCpuCount) ∧
    (∀ c < s.scCpuCount, s.scCpuLoad c = threadsOn s.scThreads s.scThreadCount c) ∧
    (∀ c < s.scCpuCount, 0 ≤ s.scCpuLoad c) ∧
    ∑ c in Finset.range s.scCpuCount, s.scCpuLoad c = getThreadCount s := by
  have hi := hs.invariant
  exact ⟨hi.cpu_lt, hi.load_eq, fun c hc => by rw [hi.load_eq c hc]; omega, hi.sum_cpuLoad⟩

/-- Three threads created after boot; the first completes on its slice. -/
theorem completed_cpuLoad_counts :
    let s := runOps booted [.call (.createThread 1 0 0), .call (.createThread 1 1 0),
      .call (.createThread 1 2 0), .scheduleProcess fun _ => [.completeCurrentThread]]
    Visited s ∧
    (∀ i < s.scThreadCount, (s.scThreads i).cpuId < s.scCpuCount) ∧
    (∀ c < s.scCpuCount, s.scCpuLoad c = threadsOn s.scThreads s.scThreadCount c) ∧
    (∀ c < s.scCpuCount, 0 ≤ s.scCpuLoad c) ∧
    ∑ c in Finset.range s.scCpuCount, s.scCpuLoad c = getThreadCount s :=
  let hs := (Reachable.init 2 staticScheduler).runOps [.call (.createThread 1 0 0),
    .call (.createThread 1 1 0), .call (.createThread 1 2 0),
    .scheduleProcess fun _ => [.completeCurrentThread]]
  ⟨.inl hs, cpuLoad_counts (.inl hs)⟩

end MiniKernel.Scalability
