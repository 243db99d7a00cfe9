import MiniKernel.Scheduler.Core

/-! The ring `sc_run_queue` as the list of ids from `sc_rq_head` up to `sc_rq_tail`.
`push_rq` appends to that list unless 63 ids are queued, `pop_rq` takes its head, and
no other function moves the ring's cursors. -/

namespace MiniKernel.Scalability

/-- The queued ids, oldest first. -/
def rqList (s : Scheduler) : List Nat :=
  (List.range ((s.scRqTail + scMaxThreads - s.scRqHead) % scMaxThreads)).map
    fun k => s.scRunQueue ((s.scRqHead + k) % scMaxThreads)

/-- Both cursors inside the ring. -/
def RingBounds (s : Scheduler) : Prop := s.scRqHead < scMaxThreads ∧ s.scRqTail < scMaxThreads

theorem rqList_length (s : Scheduler) :
    (rqList s).length = (s.scRqTail + scMaxThreads - s.scRqHead) % scMaxThreads := by
  simp [rqList]

theorem rqList_length_lt (s : Scheduler) : (rqList s).length < scMaxThreads := by
  rw [rqList_length]; exact Nat.mod_lt _ (by decide)

section Ring

variable {s : Scheduler} (hb : RingBounds s)
include hb

theorem pushRq_eq_none_iff (id : Nat) :
    pushRq s id = none ↔ (rqList s).length + 1 = scMaxThreads := by
  have := hb
  simp only [RingBounds, pushRq, rqList_length, scMaxThreads] at *
  split <;> simp <;> omega

theorem rqList_eq_nil_iff : rqList s = [] ↔ s.scRqHead = s.scRqTail := by
  have := hb
  rw [← List.length_eq_zero, rqList_length]
  simp only [RingBounds, scMaxThreads] at *
  omega

/-- A push that finds room appends the id; one that does not leaves the ring as it was. -/
theorem rqList_enqueue (id : Nat) :
    RingBounds (enqueue s id) ∧
    rqList (enqueue s id) =
      if (rqList s).length + 1 < scMaxThreads then rqList s ++ [id] else rqList s := by
  have hl := rqList_length s
  have hlt := rqList_length_lt s
  by_cases hf : (rqList s).length + 1 < scMaxThreads
  · rw [if_pos hf, enqueue, pushRq]
    obtain ⟨hh, ht⟩ := hb
    simp only [scMaxThreads] at hh ht hf hl hlt ⊢
    rw [if_neg (by omega), Option.getD_some]
    refine ⟨⟨hh, Nat.mod_lt _ (by decide)⟩, ?_⟩
    unfold rqList
    simp only [scMaxThreads]
    rw [show ((s.scRqTail + 1) % 64 + 64 - s.scRqHead) % 64
        = (s.scRqTail + 64 - s.scRqHead) % 64 + 1 by omega,
      List.range_succ, List.map_append, List.map_singleton]
    congr 1
    · refine List.map_congr_left fun k hk => setAt_ne _ _ ?_
      rw [List.mem_range] at hk; omega
    · simp only [setAt]; rw [if_pos (by omega)]
  · have hn : pushRq s id = none := (pushRq_eq_none_iff hb id).2 (by omega)
    rw [if_neg hf, enqueue, hn, Option.getD_none]
    exact ⟨hb, rfl⟩

/-- `pop_rq` returns the oldest queued id and drops it. -/
theorem rqList_popRq {id : Nat} {s1 : Scheduler} (h : popRq s = some (id, s1)) :
    RingBounds s1 ∧ rqList s = id :: rqList s1 ∧
    s1 = { s with scRqHead := (s.scRqHead + 1) % scMaxThreads } := by
  unfold popRq at h
  split at h
  · cases h
  · rename_i hne
    cases h
    obtain ⟨hh, ht⟩ := hb
    simp only [scMaxThreads] at hh ht
    refine ⟨⟨Nat.mod_lt _ (by decide), ht⟩, ?_, rfl⟩
    unfold rqList
    simp only [scMaxThreads]
    rw [show (s.scRqTail + 64 - s.scRqHead) % 64
        = (s.scRqTail + 64 - (s.scRqHead + 1) % 64) % 64 + 1 by omega,
      List.range_succ_eq_map, List.map_cons, List.map_map]
    congr 1
    · rw [Nat.add_zero, Nat.mod_eq_of_lt hh]
    · exact List.map_congr_left fun k _ => by
        simp only [Function.comp, Nat.succ_eq_add_one]; congr 1; omega

theorem popRq_eq_none_iff : popRq s = none ↔ rqList s = [] := by
  rw [rqList_eq_nil_iff hb, popRq]
  split_ifs with h <;> simp [h]

/-- What `push_rq` can add to the ring: the pushed id. -/
theorem mem_rqList_enqueue {id j : Nat} (hj : j ∈ rqList (enqueue s id)) :
    j ∈ rqList s ∨ j = id := by
  rw [(rqList_enqueue hb id).2] at hj
  split at hj
  · simpa using hj
  · exact .inl hj

end Ring

/-- From any cursors inside the ring the queue is a FIFO of capacity 63: `push_rq` appends
while fewer than 63 ids are queued and refuses otherwise, and `pop_rq` refuses exactly on
an empty queue and otherwise returns its oldest id and drops it. -/
theorem runQueue_fifo {s : Scheduler} (hb : RingBounds s) (x : Nat) :
    ((rqList s).length < scMaxThreads - 1 →
      ∃ s', pushRq s x = some s' ∧ RingBounds s' ∧ rqList s' = rqList s ++ [x]) ∧
    (scMaxThreads - 1 ≤ (rqList s).length → pushRq s x = none) ∧
    (popRq s = none ↔ rqList s = []) ∧
    (∀ id s', popRq s = some (id, s') → RingBounds s' ∧ rqList s = id :: rqList s') := by
  have hlt := rqList_length_lt s
  refine ⟨fun hroom => ?_, fun hfull => (pushRq_eq_none_iff hb x).2 (by omega),
    popRq_eq_none_iff hb, fun id s' h => ⟨(rqList_popRq hb h).1, (rqList_popRq hb h).2.1⟩⟩
  obtain ⟨s', hs'⟩ := Option.ne_none_iff_exists'.1
    (mt (pushRq_eq_none_iff hb x).1 (by omega))
  have he : enqueue s x = s' := by rw [enqueue, hs', Option.getD_some]
  obtain ⟨hb', hl⟩ := rqList_enqueue hb x
  rw [he, if_pos (by omega)] at hl
  exact ⟨s', hs', he ▸ hb', hl⟩

/-- A ring whose cursors sit at 62 and 1, across the wrap. -/
theorem wrapped_ring_fifo :
    let s : Scheduler := { staticScheduler with scRqHead := 62, scRqTail := 1 }
    RingBounds s ∧
    (((rqList s).length < scMaxThreads - 1 →
      ∃ s', pushRq s 7 = some s' ∧ RingBounds s' ∧ rqList s' = rqList s ++ [7]) ∧
    (scMaxThreads - 1 ≤ (rqList s).length → pushRq s 7 = none) ∧
    (popRq s = none ↔ rqList s = []) ∧
    (∀ id s', popRq s = some (id, s') → RingBounds s' ∧ rqList s = id :: rqList s')) :=
  ⟨⟨by decide, by decide⟩, runQueue_fifo ⟨by decide, by decide⟩ 7⟩

end MiniKernel.Scalability
