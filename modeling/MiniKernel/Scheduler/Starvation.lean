import MiniKernel.Scheduler.Invariant

/-! The ring `sc_run_queue` has `SC_MAX_THREADS` cells but holds at most 63 ids, one cell
staying free to tell a full ring from an empty one, while the table holds 64 threads.
`create_thread` ignores the result of `push_rq`, so a thread created while 63 ids are
queued is ready but in no queue. No function ever enqueues it later: `yield` and the end
of a slice push only the current thread, `create_thread` only the new one. Such a `Lost`
thread is never dispatched and never done, so `get_thread_count` never reaches 0. -/

namespace MiniKernel.Scalability

/-- A ready thread that is neither queued nor current. -/
def Lost (s : Scheduler) (l : Nat) : Prop :=
  l < s.scThreadCount ∧ (s.scThreads l).state = .ready ∧ l ∉ rqList s ∧
    s.scCurrentThread ≠ some l

/-- The id `schedule_process` would run next. -/
def nextDispatch (s : Scheduler) : Option Nat :=
  match popRq s with
  | none => none
  | some (id, s1) => if (s1.scThreads id).state = .ready then some id else none

theorem Lost.getThreadCount_pos {s : Scheduler} {l : Nat} (h : Lost s l) :
    0 < getThreadCount s :=
  List.countP_pos_iff.2 ⟨l, List.mem_range.2 h.1, by simp [h.2.1]⟩

/-- Requeueing another thread leaves a lost thread lost. -/
theorem Lost.requeue {s : Scheduler} {l id : Nat} (h : Lost s l) (hb : RingBounds s)
    (hne : id ≠ l) (t : ScThread) :
    Lost { enqueue { s with scThreads := setAt s.scThreads id t } id with
      scCurrentThread := none } l := by
  refine ⟨by simpa using h.1, by simpa [setAt_ne _ _ (Ne.symm hne)] using h.2.1, fun hl => ?_,
    by simp⟩
  rcases mem_rqList_enqueue (show RingBounds { s with scThreads := setAt s.scThreads id t }
    from hb) hl with hl | hl
  · exact h.2.2.1 hl
  · exact hne hl.symm

theorem Lost.runCall {s : Scheduler} {l : Nat} (h : Lost s l) (hb : RingBounds s) (c : Call) :
    Lost (runCall s c) l := by
  obtain ⟨hlt, hrdy, hq, hc⟩ := h
  cases c with
  | yield =>
    simp only [MiniKernel.Scalability.runCall, yield]
    split
    · exact ⟨hlt, hrdy, hq, hc⟩
    · rename_i id hid
      exact Lost.requeue ⟨hlt, hrdy, hq, hc⟩ hb (by rintro rfl; exact hc hid) _
  | completeCurrentThread =>
    simp only [MiniKernel.Scalability.runCall, completeCurrentThread]
    split
    · exact ⟨hlt, hrdy, hq, hc⟩
    · rename_i id hid
      have hne : l ≠ id := by rintro rfl; exact hc hid
      exact ⟨hlt, by simp [setAt_ne _ _ hne, hrdy], hq, by simp⟩
  | createThread entry arg priority =>
    simp only [MiniKernel.Scalability.runCall, createThread]
    split_ifs
    · exact ⟨hlt, hrdy, hq, hc⟩
    · exact ⟨hlt, hrdy, hq, hc⟩
    · refine ⟨by simp [newThread]; omega,
        by simp [newThread, setAt_ne _ _ (Nat.ne_of_lt hlt), hrdy], fun hl => ?_,
        by simpa [newThread] using hc⟩
      rcases mem_rqList_enqueue (show RingBounds (newThread s entry arg priority) from hb) hl
        with hl | hl
      · exact hq hl
      · omega
  | loadBalance =>
    simp only [MiniKernel.Scalability.runCall, loadBalance]
    split
    · exact ⟨hlt, hrdy, hq, hc⟩
    · split
      · exact ⟨hlt, hrdy, hq, hc⟩
      · rename_i i _
        refine ⟨hlt, ?_, hq, hc⟩
        by_cases hli : l = i
        · subst hli; simp [hrdy]
        · simp [setAt_ne _ _ hli, hrdy]

theorem Lost.runBody {s : Scheduler} {l : Nat} (h : Lost s l) (hi : Invariant s)
    (body : List Call) : Lost (runBody s body) l := by
  induction body generalizing s with
  | nil => exact h
  | cons c body ih => exact ih (h.runCall hi.ring c) (hi.runCall c)

/-- A lost thread is never the one `schedule_process` runs, and stays lost. -/
theorem Lost.scheduleProcess {s : Scheduler} {l : Nat} (h : Lost s l) (hs : Idle s)
    (closure : ScThread → List Call) :
    nextDispatch s ≠ some l ∧ Lost (scheduleProcess s closure) l := by
  unfold nextDispatch MiniKernel.Scalability.scheduleProcess
  rcases hp : popRq s with _ | ⟨id, s1⟩
  · exact ⟨by simp, h⟩
  · obtain ⟨-, hq, hs1⟩ := rqList_popRq hs.1.ring hp
    have hne : id ≠ l := by rintro rfl; exact h.2.2.1 (hq ▸ List.mem_cons_self _ _)
    obtain ⟨hrdy, hd⟩ := hs.1.dispatch hs.2 hp
    dsimp only
    rw [if_pos hrdy, if_neg (not_not.2 hrdy)]
    refine ⟨by simp [hne], ?_⟩
    have hl1 : Lost (MiniKernel.Scalability.dispatch s1 id) l := by
      subst hs1
      refine ⟨h.1, by simp [dispatch, setAt_ne _ _ (Ne.symm hne), h.2.1], fun hl => ?_,
        by simpa [dispatch] using hne⟩
      exact h.2.2.1 (hq ▸ List.mem_cons_of_mem _ hl)
    have hl2 := hl1.runBody hd (closure (s1.scThreads id))
    unfold finishSlice
    split
    · exact hl2.requeue (hd.runBody (.inr rfl) _).1.ring hne _
    · exact hl2

theorem Lost.runOps {s : Scheduler} {l : Nat} (h : Lost s l) (hs : Idle s) (ops : List Op) :
    nextDispatch (runOps s ops) ≠ some l ∧ Lost (runOps s ops) l := by
  induction ops generalizing s with
  | nil =>
    obtain ⟨h1, -⟩ := h.scheduleProcess hs fun _ => []
    exact ⟨h1, h⟩
  | cons op ops ih =>
    refine ih ?_ (hs.runOp op)
    cases op with
    | call c => exact h.runCall hs.1.ring c
    | scheduleProcess closure => exact (h.scheduleProcess hs closure).2

/-! ## Sixty-four threads -/

/-- `k` calls of `create_thread (entry, arg, priority)`. -/
def createMany (s : Scheduler) (entry arg : Nat) (priority : Int) : Nat → Scheduler
  | 0 => s
  | k + 1 => (createThread (createMany s entry arg priority k) entry arg priority).2

theorem createMany_succ (s : Scheduler) (entry arg : Nat) (priority : Int) (k : Nat) :
    createMany s entry arg priority (k + 1) =
      (createThread (createMany s entry arg priority k) entry arg priority).2 := rfl

/-- From `init_scheduler`, the first 63 threads are queued in order. -/
theorem createMany_queued (cpus : Int) (s0 : Scheduler) {entry : Nat} (he : entry ≠ 0)
    (arg : Nat) (priority : Int) {k : Nat} (hk : k < scMaxThreads) :
    let s := createMany (initScheduler cpus s0) entry arg priority k
    Idle s ∧ s.scThreadCount = k ∧ rqList s = List.range k := by
  induction k with
  | zero =>
    exact ⟨invariant_initScheduler cpus s0, rfl, by simp [createMany, rqList, initScheduler]⟩
  | succ k ih =>
    obtain ⟨hs, hn, hq⟩ := ih (by omega)
    have hfree :
        ¬scMaxThreads ≤ (createMany (initScheduler cpus s0) entry arg priority k).scThreadCount := by
      rw [hn]; omega
    refine ⟨hs.runOp (.call (.createThread entry arg priority)), ?_, ?_⟩
    · rw [createMany_succ, createThread, if_neg he, if_neg hfree]
      simp [newThread, hn]
    · rw [createMany_succ, createThread, if_neg he, if_neg hfree]
      rw [(rqList_enqueue (show RingBounds (newThread _ entry arg priority) from hs.1.ring) _).2,
        show rqList (newThread _ entry arg priority) = List.range k from hq,
        if_pos (by simp [scMaxThreads] at hk ⊢; omega), hn, List.range_succ]

/-- The 64th thread finds the ring full and is lost. -/
theorem createMany_lost (cpus : Int) (s0 : Scheduler) {entry : Nat} (he : entry ≠ 0)
    (arg : Nat) (priority : Int) :
    Idle (createMany (initScheduler cpus s0) entry arg priority 64) ∧
    Lost (createMany (initScheduler cpus s0) entry arg priority 64) 63 := by
  obtain ⟨hs, hn, hq⟩ :=
    createMany_queued cpus s0 he arg priority (show 63 < scMaxThreads by decide)
  have hfree :
      ¬scMaxThreads ≤ (createMany (initScheduler cpus s0) entry arg priority 63).scThreadCount := by
    rw [hn]; decide
  refine ⟨hs.runOp (.call (.createThread entry arg priority)), ?_⟩
  rw [createMany_succ, createThread, if_neg he, if_neg hfree]
  have hq' :=
    (rqList_enqueue (show RingBounds (newThread _ entry arg priority) from hs.1.ring) 63).2
  rw [show rqList (newThread _ entry arg priority) = List.range 63 from hq,
    if_neg (by simp [scMaxThreads])] at hq'
  refine ⟨by simp [newThread, hn], by simp [newThread, hn], ?_, by simp [newThread, hs.2]⟩
  rw [hn, hq']; simp

/-- After `init_scheduler` and 64 `create_thread` calls, whatever the driver does next
(`schedule_process` with any closures, `load_balance`, more calls), thread 63 is never
dispatched and `get_thread_count` never returns 0. -/
theorem sixtyFourth_thread_starves (cpus : Int) (s0 : Scheduler) {entry : Nat} (he : entry ≠ 0)
    (arg : Nat) (priority : Int) (ops : List Op) :
    0 < getThreadCount (runOps (createMany (initScheduler cpus s0) entry arg priority 64) ops) ∧
    nextDispatch (runOps (createMany (initScheduler cpus s0) entry arg priority 64) ops) ≠ some 63 := by
  obtain ⟨hs, hl⟩ := createMany_lost cpus s0 he arg priority
  obtain ⟨hd, hl'⟩ := hl.runOps hs ops
  exact ⟨hl'.getThreadCount_pos, hd⟩

/-- Sixty-four threads created on one CPU, each done on its first slice: 64 slices later one
thread is still live. -/
theorem sixtyFourth_thread_starves_witness :
    (1 : Nat) ≠ 0 ∧
    0 < getThreadCount (runOps (createMany (initScheduler 1 staticScheduler) 1 0 1 64)
      (List.replicate 64 (.scheduleProcess fun _ => [.completeCurrentThread]))) ∧
    nextDispatch (runOps (createMany (initScheduler 1 staticScheduler) 1 0 1 64)
      (List.replicate 64 (.scheduleProcess fun _ => [.completeCurrentThread]))) ≠ some 63 :=
  ⟨by decide, sixtyFourth_thread_starves 1 staticScheduler (by decide) 0 1 _⟩

end MiniKernel.Scalability
