import MiniKernel.Bitmap
import Mathlib.Data.BitVec

/-! The function profiler of `performance_profiler.c`: a session with a table of
`MAX_PROFILE_FUNCTIONS` metrics, `profiler_register_function`, which hands out the next
slot, and the pair `profiler_start_function` / `profiler_end_function`, which time one call
of a registered function. The clock `profiler_get_current_time_ns` is `rdtsc`; the model
takes each of its readings as an argument. Counters keep their uint64 arithmetic. The memory
and I/O statistics and the printers are left out.

The start of a call is parked in `total_time_ns`, the field that also accumulates the time,
so the end's `total_time_ns += duration` leaves there the end reading, not a sum.

* `profilerRegisterFunction_full`, `profilerRegisterFunction_room`: a full table returns
  `(uint32_t)-1` and changes nothing; otherwise the next id gets a fresh metric;
* `updateMetric_of_rejects`, `updateMetric_metrics_ne`: a start or an end that its guard
  rejects changes nothing, and an accepted one changes only the metric of its id;
* `runPairs_metric`: over any run of timed calls of an accepted id, its metric is the fold
  of the two metric bodies, and `foldCalls_totalCalls`, `foldCalls_totalTimeNs`,
  `foldCalls_minTimeNs`, `foldCalls_maxTimeNs`, `foldCalls_avgTimeNs` give that fold field
  by field: the count of calls, the last end reading, the least and the greatest duration,
  and the last end reading over the count;
* `registeredMetric_spec`: the same from registration;
* `single_call_total_is_clock`: one timed call with a non-zero start reading leaves in
  `total_time_ns` the end reading, not the call's duration, and an average above the
  maximum. -/

namespace MiniKernel.Profiler

/-- `MAX_PROFILE_FUNCTIONS`. -/
def maxProfileFunctions : Nat := 64

/-- `performance_metric_t`; `functionName` is the pointer. -/
structure Metric where
  totalCalls : BitVec 64
  totalTimeNs : BitVec 64
  minTimeNs : BitVec 64
  maxTimeNs : BitVec 64
  avgTimeNs : BitVec 64
  functionName : Nat
  functionId : BitVec 32
  deriving DecidableEq, Repr

/-- `profiler_session_t`; `profilingEnabled` is the C flag read as a truth value. -/
structure Session where
  metrics : Nat → Metric
  functionCount : BitVec 32
  sessionStartTime : BitVec 64
  sessionEndTime : BitVec 64
  profilingEnabled : Bool

/-- `profiler_init ()` at clock reading `now`: the session zeroed, then enabled. -/
def profilerInit (now : BitVec 64) : Session :=
  ⟨fun _ => ⟨0, 0, 0, 0, 0, 0, 0⟩, 0, now, 0, true⟩

/-- `profiler_enable ()`. -/
def profilerEnable (s : Session) : Session := { s with profilingEnabled := true }

/-- `profiler_disable ()`. -/
def profilerDisable (s : Session) : Session := { s with profilingEnabled := false }

/-- `profiler_register_function (function_name)`: the id handed out, `(uint32_t)-1` on a
full table, and the session after. -/
def profilerRegisterFunction (s : Session) (functionName : Nat) : BitVec 32 × Session :=
  if s.functionCount.toNat ≥ maxProfileFunctions then (-1, s)
  else
    let id := s.functionCount
    (id, { s with
      functionCount := id + 1
      metrics := setAt s.metrics id.toNat
        { totalCalls := 0, totalTimeNs := 0, minTimeNs := BitVec.allOnes 64, maxTimeNs := 0,
          avgTimeNs := 0, functionName, functionId := id } })

/-- The guard both timing functions open with:
`!profiling_enabled || function_id >= function_count`. -/
def rejects (s : Session) (functionId : BitVec 32) : Bool :=
  !s.profilingEnabled || decide (functionId ≥ s.functionCount)

/-- Behind the guard, rewrite the metric of `function_id` by `f`: the shape of both timing
functions. -/
def updateMetric (s : Session) (functionId : BitVec 32) (f : Metric → Metric) : Session :=
  if rejects s functionId then s
  else { s with metrics := setAt s.metrics functionId.toNat (f (s.metrics functionId.toNat)) }

/-- The body of `profiler_start_function` at clock reading `now`: the start time is kept
in `total_time_ns`, "Temporary storage". -/
def startMetric (now : BitVec 64) (m : Metric) : Metric := { m with totalTimeNs := now }

/-- The body of `profiler_end_function` at clock reading `now`. -/
def endMetric (now : BitVec 64) (m : Metric) : Metric :=
  let duration := now - m.totalTimeNs
  let totalCalls := m.totalCalls + 1
  let totalTimeNs := m.totalTimeNs + duration
  { m with
    totalCalls, totalTimeNs
    minTimeNs := if duration < m.minTimeNs then duration else m.minTimeNs
    maxTimeNs := if duration > m.maxTimeNs then duration else m.maxTimeNs
    avgTimeNs := if totalCalls > 0 then totalTimeNs / totalCalls else m.avgTimeNs }

/-- `profiler_start_function (function_id)` at clock reading `now`. -/
def profilerStartFunction (s : Session) (functionId : BitVec 32) (now : BitVec 64) :
    Session :=
  updateMetric s functionId (startMetric now)

/-- `profiler_end_function (function_id)` at clock reading `now`. -/
def profilerEndFunction (s : Session) (functionId : BitVec 32) (now : BitVec 64) :
    Session :=
  updateMetric s functionId (endMetric now)

/-- One timed call: `profiler_start_function` at the first reading of `p`, then
`profiler_end_function` at the second. -/
def timedCall (s : Session) (functionId : BitVec 32) (p : BitVec 64 × BitVec 64) : Session :=
  profilerEndFunction (profilerStartFunction s functionId p.1) functionId p.2

/-- A run of timed calls of one function. -/
def runPairs (s : Session) (functionId : BitVec 32) (ps : List (BitVec 64 × BitVec 64)) :
    Session :=
  ps.foldl (fun s p => timedCall s functionId p) s

/-! ## What a call leaves -/

/-- The duration of a call from its two clock readings, as `profiler_end_function`
computes it. -/
def duration (p : BitVec 64 × BitVec 64) : Nat := (p.2 - p.1).toNat

/-- The metric of a call timed from `startMetric` to `endMetric`. -/
def callMetric (m : Metric) (p : BitVec 64 × BitVec 64) : Metric :=
  endMetric p.2 (startMetric p.1 m)

/-- The metric of a function registered in `s` under `functionName`, then timed over
`ps`. -/
def registeredMetric (s : Session) (functionName : Nat) (ps : List (BitVec 64 × BitVec 64)) :
    Metric :=
  let r := profilerRegisterFunction s functionName
  (runPairs r.2 r.1 ps).metrics r.1.toNat

/-! ## Registration -/

/-- A full table: `(uint32_t)-1`, and the session untouched. -/
theorem profilerRegisterFunction_full {s : Session}
    (h : maxProfileFunctions ≤ s.functionCount.toNat) (name : Nat) :
    profilerRegisterFunction s name = (-1, s) :=
  if_pos h

/-- Room in the table: the id is the old count, the new id passes the timing guard of an
enabled session, it gets a fresh metric, and every other metric is kept. -/
theorem profilerRegisterFunction_room {s : Session}
    (h : s.functionCount.toNat < maxProfileFunctions) (name : Nat) :
    (profilerRegisterFunction s name).1 = s.functionCount ∧
      rejects (profilerRegisterFunction s name).2 s.functionCount = !s.profilingEnabled ∧
      (profilerRegisterFunction s name).2.metrics s.functionCount.toNat =
        { totalCalls := 0, totalTimeNs := 0, minTimeNs := BitVec.allOnes 64, maxTimeNs := 0,
          avgTimeNs := 0, functionName := name, functionId := s.functionCount } ∧
      ∀ j ≠ s.functionCount.toNat,
        (profilerRegisterFunction s name).2.metrics j = s.metrics j := by
  have hc : s.functionCount < s.functionCount + 1 := by
    rw [BitVec.lt_def, BitVec.toNat_add, show (1 : BitVec 32).toNat = 1 from rfl]
    unfold maxProfileFunctions at h
    omega
  simp only [profilerRegisterFunction, if_neg (Nat.not_le.2 h), rejects, setAt_same,
    decide_eq_false (BitVec.not_le.2 hc), Bool.or_false, true_and]
  exact fun j hj => setAt_ne _ _ hj

/-! ## The timing guard -/

section Update

variable {s : Session} {functionId : BitVec 32} {f : Metric → Metric}

/-- An accepted id: profiling on, and the id below the count. -/
theorem rejects_eq_false :
    rejects s functionId = false ↔
      s.profilingEnabled = true ∧ functionId.toNat < s.functionCount.toNat := by
  simp [rejects, BitVec.le_def]

/-- A rejected start or end changes nothing. -/
theorem updateMetric_of_rejects (h : rejects s functionId = true) :
    updateMetric s functionId f = s :=
  if_pos h

/-- An accepted start or end rewrites the metric of its id. -/
theorem updateMetric_metrics_self (h : rejects s functionId = false) :
    (updateMetric s functionId f).metrics functionId.toNat = f (s.metrics functionId.toNat) := by
  simp [updateMetric, h]

/-- No start or end touches the metric of another id. -/
theorem updateMetric_metrics_ne {j : Nat} (h : j ≠ functionId.toNat) :
    (updateMetric s functionId f).metrics j = s.metrics j := by
  unfold updateMetric; split
  · rfl
  · exact setAt_ne _ _ h

/-- The guard reads the count and the flag, which no start or end changes. -/
@[simp] theorem rejects_updateMetric (i : BitVec 32) :
    rejects (updateMetric s functionId f) i = rejects s i := by
  unfold updateMetric; split <;> rfl

end Update

/-! ## Runs of timed calls -/

section Run

variable {s : Session} {functionId : BitVec 32}

@[simp] theorem rejects_timedCall (p : BitVec 64 × BitVec 64) (i : BitVec 32) :
    rejects (timedCall s functionId p) i = rejects s i := by
  simp [timedCall, profilerEndFunction, profilerStartFunction]

/-- A run of a rejected id changes nothing: profiling off, or an id never handed out. -/
theorem runPairs_of_rejects (h : rejects s functionId = true) (ps : List (BitVec 64 × BitVec 64)) :
    runPairs s functionId ps = s := by
  induction ps with
  | nil => rfl
  | cons p ps ih =>
    have hc : timedCall s functionId p = s := by
      rw [timedCall, profilerStartFunction, updateMetric_of_rejects h, profilerEndFunction,
        updateMetric_of_rejects h]
    rw [runPairs, List.foldl_cons, hc]
    exact ih

/-- A run leaves the metrics of the other ids as they were. -/
theorem runPairs_metrics_ne {j : Nat} (h : j ≠ functionId.toNat) :
    ∀ (ps : List (BitVec 64 × BitVec 64)) (s : Session),
      (runPairs s functionId ps).metrics j = s.metrics j
  | [], _ => rfl
  | p :: ps, s => by
    rw [runPairs, List.foldl_cons, ← runPairs, runPairs_metrics_ne h ps, timedCall,
      profilerEndFunction, updateMetric_metrics_ne h, profilerStartFunction,
      updateMetric_metrics_ne h]

/-- The run lemma: over a run of an accepted id, its metric is the fold of `callMetric`. -/
theorem runPairs_metric :
    ∀ (ps : List (BitVec 64 × BitVec 64)) (s : Session), rejects s functionId = false →
      (runPairs s functionId ps).metrics functionId.toNat =
        ps.foldl callMetric (s.metrics functionId.toNat)
  | [], _, _ => rfl
  | p :: ps, s, h => by
    have hp : (timedCall s functionId p).metrics functionId.toNat =
        callMetric (s.metrics functionId.toNat) p := by
      have hs : rejects (profilerStartFunction s functionId p.1) functionId = false := by
        rwa [profilerStartFunction, rejects_updateMetric]
      rw [timedCall, profilerEndFunction, updateMetric_metrics_self hs, profilerStartFunction,
        updateMetric_metrics_self h, callMetric]
    rw [runPairs, List.foldl_cons, ← runPairs,
      runPairs_metric ps _ (by rwa [rejects_timedCall]), hp, List.foldl_cons]

end Run

/-! ## The fold of `callMetric` -/

theorem toNat_zero : (0 : BitVec 64).toNat = 0 :=
  rfl

theorem toNat_one : (1 : BitVec 64).toNat = 1 :=
  rfl

section Fold

/-- The end of a call adds the duration to the start reading parked in `total_time_ns`,
which leaves the end reading there. -/
@[simp] theorem callMetric_totalTimeNs (m : Metric) (p : BitVec 64 × BitVec 64) :
    (callMetric m p).totalTimeNs = p.2 :=
  add_sub_cancel p.1 p.2

@[simp] theorem callMetric_totalCalls (m : Metric) (p : BitVec 64 × BitVec 64) :
    (callMetric m p).totalCalls = m.totalCalls + 1 :=
  rfl

theorem callMetric_minTimeNs (m : Metric) (p : BitVec 64 × BitVec 64) :
    (callMetric m p).minTimeNs.toNat = min m.minTimeNs.toNat (duration p) := by
  simp only [callMetric, endMetric, startMetric, duration]
  split_ifs with h <;> rw [BitVec.lt_def] at h <;> omega

theorem callMetric_maxTimeNs (m : Metric) (p : BitVec 64 × BitVec 64) :
    (callMetric m p).maxTimeNs.toNat = max m.maxTimeNs.toNat (duration p) := by
  simp only [callMetric, endMetric, startMetric, duration]
  split_ifs with h <;> rw [gt_iff_lt, BitVec.lt_def] at h <;> omega

/-- While the call count does not wrap, the average a call leaves is the total over the
count. -/
theorem callMetric_avgTimeNs (m : Metric) (p : BitVec 64 × BitVec 64)
    (h : m.totalCalls.toNat + 1 < 2 ^ 64) :
    (callMetric m p).avgTimeNs = (callMetric m p).totalTimeNs / (callMetric m p).totalCalls := by
  have hpos : 0 < m.totalCalls + 1 := by
    rw [BitVec.lt_def, BitVec.toNat_add, toNat_one, toNat_zero]; omega
  simp only [callMetric, endMetric, startMetric, gt_iff_lt, if_pos hpos]

theorem calls_add_succ (x : BitVec 64) (k : Nat) :
    x + 1 + BitVec.ofNat 64 k = x + BitVec.ofNat 64 (k + 1) := by
  rw [BitVec.add_assoc, show (1 : BitVec 64) = BitVec.ofNat 64 1 from rfl,
    BitVec.ofNat_add_ofNat, Nat.add_comm]

theorem foldCalls_totalCalls : ∀ (ps : List (BitVec 64 × BitVec 64)) (m : Metric),
    (ps.foldl callMetric m).totalCalls = m.totalCalls + BitVec.ofNat 64 ps.length
  | [], m => (BitVec.add_zero _).symm
  | p :: ps, m => by
    rw [List.foldl_cons, foldCalls_totalCalls ps, callMetric_totalCalls, calls_add_succ,
      List.length_cons]

theorem foldCalls_totalTimeNs : ∀ (ps : List (BitVec 64 × BitVec 64)) (m : Metric),
    (ps.foldl callMetric m).totalTimeNs = (ps.getLast?.map Prod.snd).getD m.totalTimeNs
  | [], _ => rfl
  | p :: ps, m => by
    rw [List.foldl_cons, foldCalls_totalTimeNs ps, callMetric_totalTimeNs, List.getLast?_cons]
    cases ps.getLast? <;> rfl

theorem foldCalls_minTimeNs : ∀ (ps : List (BitVec 64 × BitVec 64)) (m : Metric),
    (ps.foldl callMetric m).minTimeNs.toNat = (ps.map duration).foldl min m.minTimeNs.toNat
  | [], _ => rfl
  | p :: ps, m => by
    rw [List.foldl_cons, foldCalls_minTimeNs ps, callMetric_minTimeNs, List.map_cons,
      List.foldl_cons]

theorem foldCalls_maxTimeNs : ∀ (ps : List (BitVec 64 × BitVec 64)) (m : Metric),
    (ps.foldl callMetric m).maxTimeNs.toNat = (ps.map duration).foldl max m.maxTimeNs.toNat
  | [], _ => rfl
  | p :: ps, m => by
    rw [List.foldl_cons, foldCalls_maxTimeNs ps, callMetric_maxTimeNs, List.map_cons,
      List.foldl_cons]

/-- After a non-empty run in which the call count does not wrap, the average is the total
over the count: the last call sets it. -/
theorem foldCalls_avgTimeNs : ∀ (ps : List (BitVec 64 × BitVec 64)) (m : Metric), ps ≠ [] →
    m.totalCalls.toNat + ps.length < 2 ^ 64 →
    (ps.foldl callMetric m).avgTimeNs =
      (ps.foldl callMetric m).totalTimeNs / (ps.foldl callMetric m).totalCalls
  | [], _, h, _ => absurd rfl h
  | [p], m, _, hc => callMetric_avgTimeNs m p hc
  | p :: q :: ps, m, _, hc => by
    rw [List.foldl_cons]
    refine foldCalls_avgTimeNs (q :: ps) _ (List.cons_ne_nil q ps) ?_
    rw [callMetric_totalCalls, BitVec.toNat_add, toNat_one]
    simp only [List.length_cons] at hc ⊢
    omega

end Fold

/-! ## From registration -/

/-- The metric `profiler_register_function` writes for a new id `id`. -/
theorem registeredMetric_eq {s : Session} (hen : s.profilingEnabled = true)
    (hroom : s.functionCount.toNat < maxProfileFunctions) (name : Nat)
    (ps : List (BitVec 64 × BitVec 64)) :
    registeredMetric s name ps =
      ps.foldl callMetric
        { totalCalls := 0, totalTimeNs := 0, minTimeNs := BitVec.allOnes 64, maxTimeNs := 0,
          avgTimeNs := 0, functionName := name, functionId := s.functionCount } := by
  obtain ⟨hid, hrej, hfresh, -⟩ := profilerRegisterFunction_room hroom name
  rw [registeredMetric, runPairs_metric ps _ (by rw [hid, hrej, hen]; rfl), hid, hfresh]

/-- A function registered in an enabled session and timed over any run `ps` holds the number
of calls, the last end reading (`0` before any call), the least and the greatest duration
(`UINT64_MAX` and `0` before any call) and, while the count does not wrap, the total over
the count. -/
theorem registeredMetric_spec {s : Session} (hen : s.profilingEnabled = true)
    (hroom : s.functionCount.toNat < maxProfileFunctions) (name : Nat)
    (ps : List (BitVec 64 × BitVec 64)) :
    (registeredMetric s name ps).totalCalls = BitVec.ofNat 64 ps.length ∧
      (registeredMetric s name ps).totalTimeNs = (ps.getLast?.map Prod.snd).getD 0 ∧
      (registeredMetric s name ps).minTimeNs.toNat = (ps.map duration).foldl min (2 ^ 64 - 1) ∧
      (registeredMetric s name ps).maxTimeNs.toNat = (ps.map duration).foldl max 0 ∧
      (ps ≠ [] → ps.length < 2 ^ 64 →
        (registeredMetric s name ps).avgTimeNs =
          (registeredMetric s name ps).totalTimeNs / (registeredMetric s name ps).totalCalls) := by
  rw [registeredMetric_eq hen hroom]
  refine ⟨?_, foldCalls_totalTimeNs ps _, foldCalls_minTimeNs ps _, foldCalls_maxTimeNs ps _,
    fun hne hlen => foldCalls_avgTimeNs ps _ hne (by simpa using hlen)⟩
  rw [foldCalls_totalCalls]
  exact BitVec.zero_add _

/-- Two calls, of 10 and 30 ticks, of the first function registered after `profiler_init`:
`total_time_ns` ends at the last end reading, 230. -/
theorem two_calls_registered_metric :
    (profilerInit 0).profilingEnabled = true ∧
      (profilerInit 0).functionCount.toNat < maxProfileFunctions ∧
      ((registeredMetric (profilerInit 0) 0 [(100, 110), (200, 230)]).totalCalls = 2 ∧
        (registeredMetric (profilerInit 0) 0 [(100, 110), (200, 230)]).totalTimeNs = 230 ∧
        (registeredMetric (profilerInit 0) 0 [(100, 110), (200, 230)]).minTimeNs.toNat = 10 ∧
        (registeredMetric (profilerInit 0) 0 [(100, 110), (200, 230)]).maxTimeNs.toNat = 30 ∧
        ([((100 : BitVec 64), (110 : BitVec 64)), (200, 230)] ≠ [] → 2 < 2 ^ 64 →
          (registeredMetric (profilerInit 0) 0 [(100, 110), (200, 230)]).avgTimeNs =
            (registeredMetric (profilerInit 0) 0 [(100, 110), (200, 230)]).totalTimeNs /
              (registeredMetric (profilerInit 0) 0 [(100, 110), (200, 230)]).totalCalls)) :=
  ⟨rfl, by decide, registeredMetric_spec rfl (by decide) 0 [(100, 110), (200, 230)]⟩

/-- One timed call of a newly registered function with a non-zero start reading `ts` before
the end reading `te`: `total_time_ns` is not the call's duration, and the average exceeds the
maximum. -/
theorem single_call_total_is_clock {s : Session} (hen : s.profilingEnabled = true)
    (hroom : s.functionCount.toNat < maxProfileFunctions) (name : Nat) {ts te : BitVec 64}
    (hts : 0 < ts) (hle : ts ≤ te) :
    (registeredMetric s name [(ts, te)]).totalTimeNs ≠ te - ts ∧
      (registeredMetric s name [(ts, te)]).maxTimeNs <
        (registeredMetric s name [(ts, te)]).avgTimeNs := by
  rw [registeredMetric_eq hen hroom, List.foldl_cons, List.foldl_nil]
  refine ⟨fun h => ?_, ?_⟩
  · rw [callMetric_totalTimeNs, eq_comm, sub_eq_self] at h
    subst h
    exact absurd hts (by decide)
  · rw [callMetric_avgTimeNs, BitVec.lt_def, callMetric_totalTimeNs, BitVec.toNat_udiv,
      callMetric_maxTimeNs, callMetric_totalCalls]
    · rw [BitVec.lt_def, toNat_zero] at hts
      rw [duration, BitVec.toNat_sub_of_le hle, toNat_zero, Nat.zero_max]
      show te.toNat - ts.toNat < te.toNat / 1
      have := BitVec.le_def.1 hle
      omega
    · show (0 : BitVec 64).toNat + 1 < 2 ^ 64
      decide

/-- One call from 100 to 110 of the first function registered after `profiler_init`. -/
theorem one_call_total_is_clock :
    (profilerInit 0).profilingEnabled = true ∧
      (profilerInit 0).functionCount.toNat < maxProfileFunctions ∧
      (0 : BitVec 64) < 100 ∧ (100 : BitVec 64) ≤ 110 ∧
      ((registeredMetric (profilerInit 0) 0 [(100, 110)]).totalTimeNs ≠ 110 - 100 ∧
        (registeredMetric (profilerInit 0) 0 [(100, 110)]).maxTimeNs <
          (registeredMetric (profilerInit 0) 0 [(100, 110)]).avgTimeNs) :=
  ⟨rfl, by decide, by decide, by decide,
    single_call_total_is_clock rfl (by decide) 0 (by decide) (by decide)⟩

end MiniKernel.Profiler
