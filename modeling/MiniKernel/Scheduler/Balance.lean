import MiniKernel.Scheduler.Contracts
import Mathlib.Algebra.Order.BigOperators.Group.Finset
import Mathlib.Algebra.Order.Group.Int

/-! Repeated `load_balance` calls, from a state where no thread runs. Each call either
finds the loads within one of each other and does nothing, or moves one thread from a
most loaded CPU to a least loaded one (`loadBalance_cases`: by the load invariant the
busiest CPU always has a ready thread). A move never widens the spread
(`spread_loadBalance`) and lowers the `imbalance` potential, the total distance of the
loads from `[q, q + 1]` with `q` the floor of the average load; the potential starts at
most `2 N`, so after `2 N` calls the loads are balanced (`spread_iterate`).

`create_thread` balances by placement: the new thread goes to the first CPU of least load
(`bestCpu_first`, `createThread_least_loaded`), so one creation widens the spread to at
most one (`spread_createThread`). -/

namespace MiniKernel.Scalability

/-- All loads of existing CPUs lie within `d` of each other. -/
def LoadSpread (s : Scheduler) (d : Int) : Prop :=
  ∀ c < s.scCpuCount, ∀ c' < s.scCpuCount, s.scCpuLoad c - s.scCpuLoad c' ≤ d

/-- How far one load lies outside `[q, q + 1]`. -/
def excess (q x : Int) : Int := max (x - q - 1) 0 + max (q - x) 0

theorem excess_nonneg (q x : Int) : 0 ≤ excess q x := by unfold excess; omega

theorem excess_le {q x : Int} (hq : 0 ≤ q) (hx : 0 ≤ x) : excess q x ≤ x + q := by
  unfold excess; omega

/-- The total excess of the loads over the floor of their average. -/
def imbalance (s : Scheduler) : Int :=
  ∑ c in Finset.range s.scCpuCount,
    excess ((getThreadCount s : Int) / s.scCpuCount) (s.scCpuLoad c)

theorem imbalance_nonneg (s : Scheduler) : 0 ≤ imbalance s := by
  unfold imbalance; exact Finset.sum_nonneg fun _ _ => excess_nonneg _ _

/-- A thread of some CPU with load, not running or blocked, is one `load_balance` can
move. -/
theorem migrant_isSome {s : Scheduler} (hi : Invariant s) (hc : s.scCurrentThread = none)
    {c : Nat} (hcC : c < s.scCpuCount) (hl : 0 < s.scCpuLoad c) : (migrant s c).isSome := by
  rw [hi.load_eq c hcC] at hl
  obtain ⟨i, hir, hi'⟩ :=
    List.countP_pos_iff.1 (by omega : 0 < threadsOn s.scThreads s.scThreadCount c)
  have hlt := List.mem_range.1 hir
  simp only [countsOn, decide_eq_true_eq] at hi'
  refine List.find?_isSome.2 ⟨i, hir, ?_⟩
  cases hst : (s.scThreads i).state
  · simp [hst, hi'.1]
  · exact absurd hst (hi.not_running_of_idle hc hlt)
  · exact absurd hst (hi.not_blocked i hlt)
  · exact absurd hst hi'.2

theorem getThreadCount_setAt_cpu (s : Scheduler) (i c : Nat) (load : Nat → Int) :
    getThreadCount { s with
      scThreads := setAt s.scThreads i { s.scThreads i with cpuId := c }
      scCpuLoad := load } = getThreadCount s := by
  unfold getThreadCount
  refine List.countP_congr fun j _ => ?_
  by_cases hj : j = i
  · subst hj; simp
  · simp [setAt_ne _ _ hj]

/-- What one `load_balance` call does when no thread runs. -/
theorem loadBalance_cases {s : Scheduler} (hi : Invariant s) (hc : s.scCurrentThread = none) :
    (loadBalance s = s ∧ LoadSpread s 1) ∨
    ∃ lo hi, lo < s.scCpuCount ∧ hi < s.scCpuCount ∧ lo ≠ hi ∧
      (∀ c < s.scCpuCount, s.scCpuLoad lo ≤ s.scCpuLoad c ∧ s.scCpuLoad c ≤ s.scCpuLoad hi) ∧
      2 ≤ s.scCpuLoad hi - s.scCpuLoad lo ∧
      (loadBalance s).scCpuCount = s.scCpuCount ∧
      getThreadCount (loadBalance s) = getThreadCount s ∧
      ∀ c, (loadBalance s).scCpuLoad c =
        if c = lo then s.scCpuLoad lo + 1 else if c = hi then s.scCpuLoad hi - 1 else s.scCpuLoad c := by
  obtain ⟨hlo, hmin⟩ := minCpu_spec hi.cpus_pos
  obtain ⟨hhi, hmax⟩ := maxCpu_spec hi.cpus_pos
  by_cases hd : s.scCpuLoad (maxCpu s) - s.scCpuLoad (minCpu s) ≤ 1
  · refine .inl ⟨by simp [MiniKernel.Scalability.loadBalance, hd], fun c hc c' hc' => ?_⟩
    have := hmax c hc; have := hmin c' hc'; omega
  · have hne : minCpu s ≠ maxCpu s := fun e => hd (by rw [e]; omega)
    have hpos : 0 < s.scCpuLoad (maxCpu s) := by have := hi.load_eq _ hlo; omega
    obtain ⟨i, hm⟩ := Option.isSome_iff_exists.1 (migrant_isSome hi hc hhi hpos)
    have hlb : loadBalance s = { s with
        scThreads := setAt s.scThreads i { s.scThreads i with cpuId := minCpu s },
        scCpuLoad := setAt (setAt s.scCpuLoad (maxCpu s) (s.scCpuLoad (maxCpu s) - 1)) (minCpu s)
          (setAt s.scCpuLoad (maxCpu s) (s.scCpuLoad (maxCpu s) - 1) (minCpu s) + 1) } := by
      simp only [MiniKernel.Scalability.loadBalance, if_neg hd, hm]
    refine .inr ⟨minCpu s, maxCpu s, hlo, hhi, hne, fun c hc => ⟨hmin c hc, hmax c hc⟩,
      by omega, by rw [hlb], by rw [hlb, getThreadCount_setAt_cpu], fun c => ?_⟩
    rw [hlb]
    by_cases h1 : c = minCpu s
    · subst h1; simp [setAt, hne]
    · by_cases h2 : c = maxCpu s
      · subst h2; simp [setAt, h1]
      · simp [setAt, h1, h2]

/-- A call never widens the spread of the loads. -/
theorem spread_loadBalance {s : Scheduler} (hi : Invariant s) (hc : s.scCurrentThread = none)
    {d : Int} (hd : LoadSpread s d) : LoadSpread (loadBalance s) d := by
  rcases loadBalance_cases hi hc with ⟨e, -⟩ | ⟨lo, hi', hlo, hhi, hne, hb, hgap, hC, -, hL⟩
  · rwa [e]
  · have hd' := hd hi' hhi lo hlo
    intro c hc c' hc'
    rw [hC] at hc hc'
    rw [hL, hL]
    have := hb c hc; have := hb c' hc'
    split_ifs <;> omega

/-- With no imbalance left, every load is `q` or `q + 1`. -/
theorem spread_of_imbalance {s : Scheduler} (h0 : imbalance s ≤ 0) : LoadSpread s 1 := by
  have h := le_antisymm h0 (imbalance_nonneg s)
  unfold imbalance at h
  replace h := (Finset.sum_eq_zero_iff_of_nonneg fun _ _ => excess_nonneg _ _).1 h
  intro c hc c' hc'
  have h1 := h c (Finset.mem_range.2 hc)
  have h2 := h c' (Finset.mem_range.2 hc')
  unfold excess at h1 h2
  omega

section Imbalance

variable {s : Scheduler} (hi : Invariant s)
include hi

/-- The potential starts at most twice the number of live threads. -/
theorem imbalance_le : imbalance s ≤ 2 * getThreadCount s := by
  have hq : 0 ≤ (getThreadCount s : Int) / s.scCpuCount := Int.ediv_nonneg (by omega) (by omega)
  have hCq : (s.scCpuCount : Int) * ((getThreadCount s : Int) / s.scCpuCount) ≤ getThreadCount s :=
    Int.mul_ediv_self_le (by have := hi.cpus_pos; omega)
  calc imbalance s
      ≤ ∑ c in Finset.range s.scCpuCount,
          (s.scCpuLoad c + (getThreadCount s : Int) / s.scCpuCount) := by
        unfold imbalance
        exact Finset.sum_le_sum fun c hc =>
          excess_le hq (by rw [hi.load_eq c (Finset.mem_range.1 hc)]; omega)
    _ = getThreadCount s + s.scCpuCount * ((getThreadCount s : Int) / s.scCpuCount) := by
        rw [Finset.sum_add_distrib, hi.sum_cpuLoad, Finset.sum_const, Finset.card_range,
          nsmul_eq_mul]
    _ ≤ 2 * getThreadCount s := by omega

/-- A move lowers the potential: the busiest load lies above `q` and the idlest at or
below it, so neither end moves away from `[q, q + 1]` and one moves towards it. -/
theorem imbalance_loadBalance (hc : s.scCurrentThread = none) (hs : ¬LoadSpread s 1) :
    imbalance (loadBalance s) + 1 ≤ imbalance s := by
  rcases loadBalance_cases hi hc with
    ⟨-, h⟩ | ⟨lo, hi', hlo, hhi, hne, hb, hgap, hC, hN, hL⟩
  · exact absurd h hs
  have hC0 : (0 : Int) < s.scCpuCount := by have := hi.cpus_pos; omega
  -- the loads add up to `N`, so the idlest is at most the average and the busiest above it
  have hlo_q : s.scCpuLoad lo ≤ (getThreadCount s : Int) / s.scCpuCount := by
    refine Int.le_ediv_of_mul_le hC0 ?_
    have hf : ∀ c ∈ Finset.range s.scCpuCount, 0 ≤ s.scCpuLoad c - s.scCpuLoad lo :=
      fun c hc => Int.sub_nonneg.2 (hb c (Finset.mem_range.1 hc)).1
    have h := Finset.sum_nonneg hf
    rw [Finset.sum_sub_distrib, Finset.sum_const, Finset.card_range, nsmul_eq_mul,
      hi.sum_cpuLoad] at h
    rw [Int.mul_comm]; omega
  have hhi_q : (getThreadCount s : Int) / s.scCpuCount < s.scCpuLoad hi' := by
    refine Int.ediv_lt_of_lt_mul hC0 ?_
    have hf : ∀ c ∈ Finset.range s.scCpuCount, 0 ≤ s.scCpuLoad hi' - s.scCpuLoad c :=
      fun c hc => Int.sub_nonneg.2 (hb c (Finset.mem_range.1 hc)).2
    have h := Finset.single_le_sum hf (Finset.mem_range.2 hlo)
    rw [Finset.sum_sub_distrib, Finset.sum_const, Finset.card_range, nsmul_eq_mul,
      hi.sum_cpuLoad] at h
    rw [Int.mul_comm]; omega
  -- only the two moved loads change
  have hdiff : imbalance (loadBalance s) - imbalance s =
      (excess ((getThreadCount s : Int) / s.scCpuCount) (s.scCpuLoad lo + 1) -
        excess ((getThreadCount s : Int) / s.scCpuCount) (s.scCpuLoad lo)) +
      (excess ((getThreadCount s : Int) / s.scCpuCount) (s.scCpuLoad hi' - 1) -
        excess ((getThreadCount s : Int) / s.scCpuCount) (s.scCpuLoad hi')) := by
    unfold imbalance
    rw [hC, hN, ← Finset.sum_sub_distrib]
    refine (Finset.sum_eq_add_of_mem lo hi' (Finset.mem_range.2 hlo) (Finset.mem_range.2 hhi) hne
      fun c _ hc' => by rw [hL, if_neg hc'.1, if_neg hc'.2, sub_self]).trans ?_
    rw [hL, hL, if_pos rfl, if_neg hne.symm, if_pos rfl]
  unfold excess at hdiff
  omega

end Imbalance

/-- Driven from a state where no thread runs, `load_balance` never widens the spread of
the loads, and after `2 N` calls (`N` the live threads) they lie within one of each
other. -/
theorem spread_iterate {s : Scheduler} (hi : Invariant s) (hc : s.scCurrentThread = none) :
    (∀ k d, LoadSpread (loadBalance^[k] s) d → LoadSpread (loadBalance^[k + 1] s) d) ∧
    ∀ k, 2 * getThreadCount s ≤ k → LoadSpread (loadBalance^[k] s) 1 := by
  have hk : ∀ k, Invariant (loadBalance^[k] s) ∧ (loadBalance^[k] s).scCurrentThread = none ∧
      getThreadCount (loadBalance^[k] s) = getThreadCount s := fun k => by
    induction k with
    | zero => exact ⟨hi, hc, rfl⟩
    | succ k ih =>
      obtain ⟨hik, hck, hnk⟩ := ih
      rw [Function.iterate_succ_apply']
      refine ⟨hik.loadBalance, by rw [loadBalance_scCurrentThread, hck], ?_⟩
      rcases loadBalance_cases hik hck with ⟨e, -⟩ | ⟨-, -, -, -, -, -, -, -, hN, -⟩
      · rw [e, hnk]
      · rw [hN, hnk]
  have hstep : ∀ k d, LoadSpread (loadBalance^[k] s) d → LoadSpread (loadBalance^[k + 1] s) d :=
    fun k d h => by
      rw [Function.iterate_succ_apply']
      exact spread_loadBalance (hk k).1 (hk k).2.1 h
  -- until the loads are balanced, each call lowers the potential by one
  have hdrop : ∀ k, LoadSpread (loadBalance^[k] s) 1 ∨
      imbalance (loadBalance^[k] s) + k ≤ imbalance s := fun k => by
    induction k with
    | zero => exact .inr (by simp)
    | succ k ih =>
      by_cases hb : LoadSpread (loadBalance^[k] s) 1
      · exact .inl (hstep k 1 hb)
      · have := imbalance_loadBalance (hk k).1 (hk k).2.1 hb
        have h := ih.resolve_left hb
        refine .inr ?_
        rw [Function.iterate_succ_apply']
        push_cast; omega
  refine ⟨hstep, fun k hk' => ?_⟩
  rcases hdrop k with h | h
  · exact h
  · have := imbalance_le hi
    exact spread_of_imbalance (by omega)

/-- No run of `load_balance` calls, from a state where no thread runs, widens the spread
of the loads, and `2 * get_thread_count ()` calls bring it to at most one. -/
theorem loadBalance_converges {s : Scheduler} (hs : Visited s)
    (hr : ∀ i < s.scThreadCount, (s.scThreads i).state ≠ .running) :
    (∀ k d, LoadSpread (loadBalance^[k] s) d → LoadSpread (loadBalance^[k + 1] s) d) ∧
    ∀ k, 2 * getThreadCount s ≤ k → LoadSpread (loadBalance^[k] s) 1 := by
  have hi := hs.invariant
  refine spread_iterate hi ?_
  cases hcur : s.scCurrentThread with
  | none => rfl
  | some id =>
    obtain ⟨hid, hrun⟩ := hi.current_running id hcur
    exact absurd hrun (hr id hid)

/-- Four threads created after boot, two on each CPU; the two of CPU 0 complete on their
slices and thread 1 yields, so CPU 0 carries no thread and CPU 1 two. -/
theorem unbalanced_loadBalance_converges :
    let body : ScThread → List Call := fun t =>
      if t.cpuId = 0 then [.completeCurrentThread] else [.yield]
    let s := runOps booted [.call (.createThread 1 0 0), .call (.createThread 1 1 0),
      .call (.createThread 1 2 0), .call (.createThread 1 3 0), .scheduleProcess body,
      .scheduleProcess body, .scheduleProcess body]
    Visited s ∧ (∀ i < s.scThreadCount, (s.scThreads i).state ≠ .running) ∧
    (∀ k d, LoadSpread (loadBalance^[k] s) d → LoadSpread (loadBalance^[k + 1] s) d) ∧
    ∀ k, 2 * getThreadCount s ≤ k → LoadSpread (loadBalance^[k] s) 1 := by
  intro body s
  have hs : Reachable s := (Reachable.init 2 _).runOps _
  have hr : ∀ i < s.scThreadCount, (s.scThreads i).state ≠ .running :=
    fun i h => hs.idle.1.not_running_of_idle hs.idle.2 h
  exact ⟨.inl hs, hr, loadBalance_converges (.inl hs) hr⟩

/-! ## Placement by {create_thread} -/

@[simp] theorem createThread_scCpuCount (s : Scheduler) (entry arg : Nat) (priority : Int) :
    (createThread s entry arg priority).2.scCpuCount = s.scCpuCount := by
  unfold createThread; split_ifs <;> simp [newThread]

/-- A {create_thread} call fails and changes nothing, or puts the new thread on
{best_cpu}, whose load grows by one. -/
theorem createThread_cases (s : Scheduler) (entry arg : Nat) (priority : Int) :
    (createThread s entry arg priority).2 = s ∨
    (entry ≠ 0 ∧ s.scThreadCount < scMaxThreads ∧
      (createThread s entry arg priority).1 = some s.scThreadCount ∧
      ((createThread s entry arg priority).2.scThreads s.scThreadCount).cpuId = bestCpu s ∧
      (createThread s entry arg priority).2.scCpuLoad =
        setAt s.scCpuLoad (bestCpu s) (s.scCpuLoad (bestCpu s) + 1)) := by
  unfold createThread
  split_ifs with he hn
  · exact .inl rfl
  · exact .inl rfl
  · exact .inr ⟨he, by omega, rfl, by simp [newThread], by simp [newThread]⟩

/-- One creation never widens the spread beyond one: the load that grows was a least one. -/
theorem spread_createThread {s : Scheduler} {d : Int} (hc : 0 < s.scCpuCount)
    (h : LoadSpread s d) (entry arg : Nat) (priority : Int) :
    LoadSpread (createThread s entry arg priority).2 (max 1 d) := by
  rcases createThread_cases s entry arg priority with he | ⟨-, -, -, -, hL⟩
  · rw [he]; intro c hc c' hc'; have := h c hc c' hc'; omega
  · have hmin : ∀ c < s.scCpuCount, s.scCpuLoad (bestCpu s) ≤ s.scCpuLoad c :=
      (minCpu_spec hc).2
    intro c hcC c' hc'
    rw [createThread_scCpuCount] at hcC hc'
    rw [hL]
    have := h c hcC c' hc'; have := hmin c hcC; have := hmin c' hc'
    simp only [setAt]
    split_ifs <;> subst_vars <;> omega

/-- Creations from a state whose loads lie within one of each other keep them so. -/
theorem spread_createThreads {s : Scheduler} (hc : 0 < s.scCpuCount) (h : LoadSpread s 1)
    (calls : List (Nat × Nat × Int)) :
    LoadSpread (calls.foldl (fun s c => (createThread s c.1 c.2.1 c.2.2).2) s) 1 := by
  induction calls generalizing s with
  | nil => exact h
  | cons c calls ih =>
    exact ih (by rwa [createThread_scCpuCount]) (max_self (1 : Int) ▸ spread_createThread hc h _ _ _)

theorem initScheduler_spread (cpus : Int) (s0 : Scheduler) :
    0 < (initScheduler cpus s0).scCpuCount ∧ LoadSpread (initScheduler cpus s0) 1 := by
  refine ⟨?_, fun c _ c' _ => by simp [initScheduler]⟩
  simp only [initScheduler]
  split_ifs <;> simp only [scMaxCpus] at * <;> omega

/-- From any state a run passes through, a creation with a non-null entry and room in the
table puts the new thread on the first CPU of least load. So it widens the spread of the
loads to at most one, and creations alone after {init_scheduler} keep every load within
one of every other. -/
theorem createThread_least_loaded {s : Scheduler} (hs : Visited s) {entry : Nat}
    (he : entry ≠ 0) (arg : Nat) (priority : Int) (hn : s.scThreadCount < scMaxThreads) :
    let r := createThread s entry arg priority
    let best := (r.2.scThreads s.scThreadCount).cpuId
    (r.1 = some s.scThreadCount ∧ best < s.scCpuCount ∧
      (∀ c < s.scCpuCount, s.scCpuLoad best ≤ s.scCpuLoad c) ∧
      (∀ c < best, s.scCpuLoad best < s.scCpuLoad c) ∧
      r.2.scCpuLoad = setAt s.scCpuLoad best (s.scCpuLoad best + 1)) ∧
    (∀ d, LoadSpread s d → LoadSpread r.2 (max 1 d)) ∧
    ∀ (cpus : Int) (s0 : Scheduler) (calls : List (Nat × Nat × Int)),
      LoadSpread (calls.foldl (fun s c => (createThread s c.1 c.2.1 c.2.2).2)
        (initScheduler cpus s0)) 1 := by
  have hc := hs.invariant.cpus_pos
  rcases createThread_cases s entry arg priority with h0 | ⟨-, -, hr, hbest, hL⟩
  · exact absurd h0 fun h => by
      have := congrArg Scheduler.scThreadCount h
      simp [createThread, he, Nat.not_le.2 hn, newThread] at this
  refine ⟨⟨hr, ?_, ?_, ?_, ?_⟩, fun d hd => spread_createThread hc hd _ _ _, fun cpus s0 calls =>
    spread_createThreads (initScheduler_spread cpus s0).1 (initScheduler_spread cpus s0).2 calls⟩
  all_goals dsimp only; rw [hbest]
  · exact (minCpu_spec hc).1
  · exact (minCpu_spec hc).2
  · exact bestCpu_first s
  · exact hL

theorem second_thread_least_loaded :
    let s := (createThread booted 1 0 0).2
    let r := createThread s 1 0 0
    let best := (r.2.scThreads s.scThreadCount).cpuId
    Visited s ∧ s.scThreadCount < scMaxThreads ∧ best = 1 ∧
    ((r.1 = some s.scThreadCount ∧ best < s.scCpuCount ∧
      (∀ c < s.scCpuCount, s.scCpuLoad best ≤ s.scCpuLoad c) ∧
      (∀ c < best, s.scCpuLoad best < s.scCpuLoad c) ∧
      r.2.scCpuLoad = setAt s.scCpuLoad best (s.scCpuLoad best + 1)) ∧
    (∀ d, LoadSpread s d → LoadSpread r.2 (max 1 d)) ∧
    ∀ (cpus : Int) (s0 : Scheduler) (calls : List (Nat × Nat × Int)),
      LoadSpread (calls.foldl (fun s c => (createThread s c.1 c.2.1 c.2.2).2)
        (initScheduler cpus s0)) 1) :=
  have hs : Visited (createThread booted 1 0 0).2 :=
    .inl (.step (.call (.createThread 1 0 0)) (.init 2 _))
  ⟨hs, by decide, by decide, createThread_least_loaded hs (by decide) 0 0 (by decide)⟩

end MiniKernel.Scalability
