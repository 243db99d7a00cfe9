import MiniKernel.Memory.Invariant
import Mathlib.Data.Nat.Bitwise

/-! The contracts of `allocate_memory` and `free_memory` over every reachable state:

* `reachable_frames_registry`: the bitmap and the registry agree frame by frame, and an
  address `allocate_memory` hands out is the base of no live region;
* `allocateMemory_lowest_frame`: with a principal, a page request succeeds exactly while
  the registry has room, and returns the lowest clear frame, although the scan never
  wraps and rollbacks leave clear frames behind the hint;
* `freeMemory_exact`: `free_memory` acts exactly on the base of a page the caller holds;
* `allocateMemory_null_keeps`: a `NULL` result leaves the bitmap and the registry as they
  were, and the hint too except after a rollback, which `allocateRun_rollback_hint`
  reaches after `maxMemoryRegions - 1` allocations from boot;
* `reachable_validate_iff`: what `validate_memory_access` decides, for every range, mask
  and principal. Its permission test asks that the masks intersect, so `READ | EXECUTE`
  passes on every page a principal holds and the empty mask never does
  (`validate_mask_intersects`); for the single right its two callers ask for, that is the
  subset test of the specification's validator `PolicyGrants`
  (`validate_single_right_iff`). -/

namespace MiniKernel.Memory

variable {s : MemoryManager}

namespace WellFormed

variable (hw : WellFormed s)
include hw

/-- A page entry in the registry, at any frame whose address fits in 32 bits, is one of
the pages above the kernel and below `pageLimit`. -/
theorem page_bounds {f : Nat} {v : User} (hmem : pageRegion f v ∈ s.memoryRegions)
    (hf : f * pageSize < 2 ^ 32) : kernelPages ≤ f ∧ f < pageLimit := by
  obtain ⟨pages, hreg, hp⟩ := hw.regions
  have hbase : (pageRegion f v).baseAddress.toNat = f * pageSize := by
    simp only [pageRegion, BitVec.toNat_ofNat]
    exact Nat.mod_eq_of_lt hf
  rw [hreg] at hmem
  rcases List.mem_cons.1 hmem with hk | hmem
  · exact absurd (congrArg MemoryRegion.owner hk) (by simp [pageRegion, kernelRegion])
  · obtain ⟨g, w, hg, hg', he⟩ := hp _ hmem
    have hgf : g < frameCount := by rw [pageLimit_eq] at hg'; rw [frameCount_eq]; omega
    have := congrArg (·.baseAddress.toNat) he
    simp only [hbase, pageRegion_base w hgf, pageSize_eq] at this
    exact ⟨by omega, by omega⟩

/-- While the registry has room, the scan from the hint finds a frame. -/
theorem hintScan_isSome (hroom : s.memoryRegions.length < maxMemoryRegions) :
    (hintScan s).isSome := by
  cases hf : hintScan s with
  | some f => rfl
  | none =>
    have hset := scanFree_none hf
    refine absurd (hw.full_of_all_set fun g _ hg => ?_) (by omega)
    have := hw.hint_le
    rw [pageLimit_eq] at hg
    exact if h : g < s.nextFreePage then hw.set_below_hint hroom h
      else hset g (by omega) (by rw [frameCount_eq] at this ⊢; omega)

end WellFormed

/-! ## Allocations from boot -/

/-- `k` page allocations by principal `v` straight after boot. -/
def allocateRun (v : User) : Nat → MemoryManager
  | 0 => initMemoryManagement
  | k + 1 => (allocateMemory (allocateRun v k) (some v) (BitVec.ofNat 32 pageSize)).state

theorem allocateRun_reachable (v : User) (k : Nat) : Reachable (allocateRun v k) := by
  induction k with
  | zero => exact .init
  | succ k ih => exact .allocate _ _ ih

/-- From boot, allocations hand out consecutive frames until the registry is full. -/
theorem allocateRun_state (v : User) {k : Nat} (hk : k < maxMemoryRegions) :
    (allocateRun v k).nextFreePage = kernelPages + k ∧
    (allocateRun v k).memoryRegions.length = k + 1 ∧
    ∀ f, bitmapTest (allocateRun v k).pageBitmap f = decide (f < kernelPages + k) := by
  induction k with
  | zero =>
    exact ⟨rfl, rfl, fun f => by simp [allocateRun, initMemoryManagement_used]⟩
  | succ k ih =>
    obtain ⟨hnext, hlen, hbits⟩ := ih (by omega)
    have hscan : hintScan (allocateRun v k) = some (kernelPages + k) := by
      rw [maxMemoryRegions] at hk
      simp only [hintScan, hnext, frameCount_eq, kernelPages_eq]
      rw [show 4096 - (256 + k) = (4096 - (256 + k) - 1) + 1 by omega]
      simp [scanFree, hbits, kernelPages_eq]
    have hsz : (BitVec.ofNat 32 pageSize).toNat = pageSize := rfl
    rw [allocateRun, allocateMemory_found hsz hscan, if_neg (by omega)]
    refine ⟨by simp; omega, by simp [hlen], fun f => ?_⟩
    simp only [bitmapTest_set, hbits]
    by_cases h : f = kernelPages + k <;> simp [h]; omega

/-- From boot, the scan of allocation `k + 1` finds frame `kernelPages + k`. -/
theorem allocateRun_hintScan (v : User) {k : Nat} (hk : k < maxMemoryRegions) :
    hintScan (allocateRun v k) = some (kernelPages + k) := by
  obtain ⟨hnext, -, hbits⟩ := allocateRun_state v hk
  rw [maxMemoryRegions] at hk
  simp only [hintScan, hnext, frameCount_eq, kernelPages_eq]
  rw [show 4096 - (256 + k) = (4096 - (256 + k) - 1) + 1 by omega]
  simp [scanFree, hbits, kernelPages_eq]

/-- With the registry full after `maxMemoryRegions - 1` allocations from boot, the next
request returns `NULL` and moves the hint one frame on. -/
theorem allocateRun_full (v : User) {k : Nat} (hk : k + 1 = maxMemoryRegions) :
    (allocateMemory (allocateRun v k) (some v) (BitVec.ofNat 32 pageSize)).result = 0 ∧
    (allocateMemory (allocateRun v k) (some v) (BitVec.ofNat 32 pageSize)).state.nextFreePage =
      (allocateRun v k).nextFreePage + 1 := by
  obtain ⟨hnext, hlen, -⟩ := allocateRun_state v (show k < maxMemoryRegions by omega)
  have hsz : (BitVec.ofNat 32 pageSize).toNat = pageSize := rfl
  rw [allocateMemory_found hsz (allocateRun_hintScan v (by omega)), if_pos (by omega)]
  exact ⟨rfl, by rw [hnext]⟩

/-! ## The registry and the bitmap -/

theorem reachable_frames_registry (hs : Reachable s) :
    (∀ f < kernelPages, bitmapTest s.pageBitmap f = true) ∧
    (∀ f, kernelPages ≤ f → f < frameCount →
      (bitmapTest s.pageBitmap f = true ↔
        ∃ r ∈ s.memoryRegions, r.baseAddress.toNat = f * pageSize)) ∧
    (∃ pages, s.memoryRegions = kernelRegion :: pages ∧
      ∀ r ∈ pages, r.size.toNat = pageSize ∧ r.protection = memProtRead ||| memProtWrite ∧
        r.owner.isSome) ∧
    (s.memoryRegions.map (·.baseAddress)).Nodup ∧
    s.memoryRegions.length ≤ maxMemoryRegions ∧
    (∀ u size, (allocateMemory s u size).result ≠ 0 →
      (∀ r ∈ s.memoryRegions, r.baseAddress ≠ (allocateMemory s u size).result) ∧
      (allocateMemory s u size).result ∈
        (allocateMemory s u size).state.memoryRegions.map (·.baseAddress)) := by
  have hw := hs.wellFormed
  obtain ⟨pages, hreg, hp⟩ := hw.regions
  refine ⟨hw.kernel_used, hw.used_iff, ⟨pages, hreg, fun r hr => ?_⟩, hw.nodup, hw.count,
    fun u size h => ?_⟩
  · obtain ⟨f, v, -, -, rfl⟩ := hp r hr
    exact ⟨by simp [pageRegion, pageSize_eq], rfl, rfl⟩
  · obtain ⟨v, f, -, -, hf, hroom, hres, hstate⟩ := allocateMemory_ne_zero h
    obtain ⟨hclear, -, hfk, hflim⟩ := hw.lowest_of_scan hroom hf
    have hff : f < frameCount := by rw [pageLimit_eq] at hflim; rw [frameCount_eq]; omega
    have hbase : (pageRegion f v).baseAddress = BitVec.ofNat 32 (f * pageSize) := rfl
    rw [hres, hstate]
    refine ⟨fun r hr he => ?_, List.mem_map.2 ⟨pageRegion f v, by simp, hbase⟩⟩
    have := (hw.used_iff f hfk hff).2 ⟨r, hr, by rw [he, ← hbase, pageRegion_base v hff]⟩
    simp [hclear] at this

/-- Two pages allocated after boot and the first freed again. -/
theorem freed_page_frames_registry :
    let s := (freeMemory (allocateRun 0 2) (some 0) 0x100000).state
    Reachable s ∧
    (∀ f < kernelPages, bitmapTest s.pageBitmap f = true) ∧
    (∀ f, kernelPages ≤ f → f < frameCount →
      (bitmapTest s.pageBitmap f = true ↔ ∃ r ∈ s.memoryRegions, r.baseAddress.toNat = f * pageSize)) ∧
    (∃ pages, s.memoryRegions = kernelRegion :: pages ∧
      ∀ r ∈ pages, r.size.toNat = pageSize ∧ r.protection = memProtRead ||| memProtWrite ∧
        r.owner.isSome) ∧
    (s.memoryRegions.map (·.baseAddress)).Nodup ∧
    s.memoryRegions.length ≤ maxMemoryRegions ∧
    (∀ u size, (allocateMemory s u size).result ≠ 0 →
      (∀ r ∈ s.memoryRegions, r.baseAddress ≠ (allocateMemory s u size).result) ∧
      (allocateMemory s u size).result ∈
        (allocateMemory s u size).state.memoryRegions.map (·.baseAddress)) :=
  let hs := Reachable.free (some 0) 0x100000 (allocateRun_reachable 0 2)
  ⟨hs, reachable_frames_registry hs⟩

/-! ## `allocate_memory` -/

theorem allocateMemory_lowest_frame (hs : Reachable s) (v : User) :
    ((allocateMemory s (some v) (BitVec.ofNat 32 pageSize)).result ≠ 0 ↔
      s.memoryRegions.length < maxMemoryRegions) ∧
    ((allocateMemory s (some v) (BitVec.ofNat 32 pageSize)).result ≠ 0 →
      ∃ f, (allocateMemory s (some v) (BitVec.ofNat 32 pageSize)).result.toNat = f * pageSize ∧
        bitmapTest s.pageBitmap f = false ∧ ∀ g < f, bitmapTest s.pageBitmap g = true) := by
  have hw := hs.wellFormed
  have hsize : (BitVec.ofNat 32 pageSize).toNat = pageSize := rfl
  refine ⟨⟨fun h => ?_, fun hroom => ?_⟩, fun h => ?_⟩
  · obtain ⟨-, -, -, -, -, hroom, -⟩ := allocateMemory_ne_zero h
    exact hroom
  · obtain ⟨f, hf⟩ := Option.isSome_iff_exists.1 (hw.hintScan_isSome hroom)
    obtain ⟨-, -, hfk, hflim⟩ := hw.lowest_of_scan hroom hf
    rw [allocateMemory_found hsize hf, if_neg (by omega)]
    rw [kernelPages_eq] at hfk
    rw [pageLimit_eq] at hflim
    intro h0
    have h0' : BitVec.ofNat 32 (f * pageSize) = 0 := h0
    have : (BitVec.ofNat 32 (f * pageSize)).toNat = 0 := by rw [h0']; rfl
    rw [BitVec.toNat_ofNat, pageSize_eq] at this
    omega
  · obtain ⟨v', f, -, -, hf, hroom, hres, -⟩ := allocateMemory_ne_zero h
    obtain ⟨hclear, hbelow, -, hflim⟩ := hw.lowest_of_scan hroom hf
    refine ⟨f, ?_, hclear, hbelow⟩
    rw [hres, BitVec.toNat_ofNat, pageSize_eq, Nat.mod_eq_of_lt]
    rw [pageLimit_eq] at hflim
    omega

/-- After the first of two pages is freed, the next page request gets it back. -/
theorem freed_page_allocation_lowest :
    let s := (freeMemory (allocateRun 0 2) (some 0) 0x100000).state
    Reachable s ∧
    ((allocateMemory s (some 1) (BitVec.ofNat 32 pageSize)).result ≠ 0 ↔
      s.memoryRegions.length < maxMemoryRegions) ∧
    ((allocateMemory s (some 1) (BitVec.ofNat 32 pageSize)).result ≠ 0 →
      ∃ f, (allocateMemory s (some 1) (BitVec.ofNat 32 pageSize)).result.toNat = f * pageSize ∧
        bitmapTest s.pageBitmap f = false ∧ ∀ g < f, bitmapTest s.pageBitmap g = true) :=
  let hs := Reachable.free (some 0) 0x100000 (allocateRun_reachable 0 2)
  ⟨hs, allocateMemory_lowest_frame hs 1⟩

theorem freeMemory_exact (hs : Reachable s) (u : Option User) (p : BitVec 32) :
    ((freeMemory s u p).state ≠ s ↔
      ∃ f v, u = some v ∧ p.toNat = f * pageSize ∧ pageRegion f v ∈ s.memoryRegions) ∧
    (∀ f v, u = some v → p.toNat = f * pageSize → pageRegion f v ∈ s.memoryRegions →
      (freeMemory s u p).state =
        { s with pageBitmap := bitmapClear s.pageBitmap f,
                 nextFreePage := min s.nextFreePage f,
                 memoryRegions := s.memoryRegions.erase (pageRegion f v) }) ∧
    ((¬∃ f v, u = some v ∧ p.toNat = f * pageSize ∧ pageRegion f v ∈ s.memoryRegions) →
      (freeMemory s u p).state = s) := by
  have hw := hs.wellFormed
  have hfree : ∀ f v, u = some v → p.toNat = f * pageSize → pageRegion f v ∈ s.memoryRegions →
      (freeMemory s u p).state =
        { s with pageBitmap := bitmapClear s.pageBitmap f,
                 nextFreePage := min s.nextFreePage f,
                 memoryRegions := s.memoryRegions.erase (pageRegion f v) } := by
    rintro f v rfl hpf hmem
    obtain ⟨hf, hf'⟩ := hw.page_bounds hmem (hpf ▸ p.isLt)
    exact hw.free_accepted hf hf' hpf hmem
      ((hw.validate_page_iff _ p).2 ⟨f, v, hf, hf', rfl, hpf, hmem⟩)
  have hkeep : (¬∃ f v, u = some v ∧ p.toNat = f * pageSize ∧ pageRegion f v ∈ s.memoryRegions) →
      (freeMemory s u p).state = s := fun hn =>
    freeMemory_rejected fun hv => by
      obtain ⟨f, v, -, -, hu, hpf, hmem⟩ := (hw.validate_page_iff u p).1 hv
      exact hn ⟨f, v, hu, hpf, hmem⟩
  refine ⟨⟨fun hne => ?_, fun ⟨f, v, hu, hpf, hmem⟩ => ?_⟩, hfree, hkeep⟩
  · by_contra hn
    exact hne (hkeep hn)
  · rw [hfree f v hu hpf hmem]
    intro heq
    obtain ⟨hf, hf'⟩ := hw.page_bounds hmem (hpf ▸ p.isLt)
    have hff : f < frameCount := by rw [pageLimit_eq] at hf'; rw [frameCount_eq]; omega
    have hset := (hw.used_iff_page hf hff).2 ⟨v, hmem⟩
    have := congrArg (fun t : MemoryManager => bitmapTest t.pageBitmap f) heq
    simp [hset] at this

/-- The holder of the first page after boot frees it. -/
theorem first_page_free_exact :
    let s := allocateRun 0 1
    Reachable s ∧
    ((freeMemory s (some 0) 0x100000).state ≠ s ↔
      ∃ f v, some 0 = some v ∧ (0x100000 : BitVec 32).toNat = f * pageSize ∧
        pageRegion f v ∈ s.memoryRegions) ∧
    (∀ f v, some 0 = some v → (0x100000 : BitVec 32).toNat = f * pageSize →
      pageRegion f v ∈ s.memoryRegions →
      (freeMemory s (some 0) 0x100000).state =
        { s with pageBitmap := bitmapClear s.pageBitmap f, nextFreePage := min s.nextFreePage f,
                 memoryRegions := s.memoryRegions.erase (pageRegion f v) }) ∧
    ((¬∃ f v, some 0 = some v ∧ (0x100000 : BitVec 32).toNat = f * pageSize ∧
        pageRegion f v ∈ s.memoryRegions) →
      (freeMemory s (some 0) 0x100000).state = s) :=
  ⟨allocateRun_reachable 0 1, freeMemory_exact (allocateRun_reachable 0 1) (some 0) 0x100000⟩

/-! ## {validate_memory_access} -/

/-- The permission test of {validate_memory_access} asks that the masks intersect, not that
the requested rights be a subset of the entry's. On every page a principal holds, in every
reachable state, {READ | EXECUTE} is granted to that principal although the page is not
executable, and the empty mask, a subset of every mask, is refused. -/
theorem validate_mask_intersects (hs : Reachable s) {f : Nat} {v : User}
    (hmem : pageRegion f v ∈ s.memoryRegions) (hf : f < frameCount) :
    let a := BitVec.ofNat 32 (f * pageSize)
    let n := BitVec.ofNat 32 pageSize
    ((memProtRead ||| memProtExecute) &&& (pageRegion f v).protection ≠
        memProtRead ||| memProtExecute ∧
      validateMemoryAccess s (some v) a n (memProtRead ||| memProtExecute) = .ok ()) ∧
    (memProtNone &&& (pageRegion f v).protection = memProtNone ∧
      validateMemoryAccess s (some v) a n memProtNone ≠ .ok ()) := by
  have hw := hs.wellFormed
  have ha : (BitVec.ofNat 32 (f * pageSize)).toNat = f * pageSize := pageRegion_base v hf
  obtain ⟨hk, hl⟩ := hw.page_bounds hmem (ha ▸ (pageRegion f v).baseAddress.isLt)
  rw [kernelPages_eq] at hk
  rw [pageLimit_eq] at hl
  have hn : (BitVec.ofNat 32 pageSize).toNat = pageSize := rfl
  refine ⟨⟨(by decide : (memProtRead ||| memProtExecute) &&& (memProtRead ||| memProtWrite) ≠
      memProtRead ||| memProtExecute), (hw.validate_iff _ _ _ _).2 ⟨fun h => ?_, by decide,
      ?_, ?_, ?_, ?_, pageRegion f v, hmem, Nat.le_refl _, Nat.le_refl _,
      (by decide : (memProtRead ||| memProtWrite) &&& (memProtRead ||| memProtExecute) ≠ 0),
      .inr rfl⟩⟩, (by decide : memProtNone &&& (memProtRead ||| memProtWrite) = memProtNone),
      fun h => ?_⟩
  · have := congrArg BitVec.toNat h
    rw [ha, pageSize_eq] at this
    exact absurd this (by show f * 4096 ≠ 0; omega)
  · rw [ha, hn, pageSize_eq]; omega
  · rw [ha, pageSize_eq]; show 1048576 ≤ _; omega
  · rw [ha, hn, pageSize_eq]; show _ ≤ 16777216; omega
  · rw [ha, pageSize_eq]; omega
  · obtain ⟨-, -, -, -, -, -, r, -, -, -, hprot, -⟩ := (hw.validate_iff _ _ _ _).1 h
    exact hprot (Nat.and_zero _)

/-- The decision of the access validator of the specification with protection enabled
(steps 2 to 8): a non-empty, non-wrapping, page-aligned range in the window from the kernel
to the end of physical memory, covered by a registered region whose rights include every
requested right and whose owner is none or the caller. -/
def PolicyGrants (s : MemoryManager) (u : Option User) (a n : BitVec 32) (p : Nat) : Prop :=
  a ≠ 0 ∧ n ≠ 0 ∧ a.toNat + n.toNat < 2 ^ 32 ∧ kernelEnd ≤ a.toNat ∧
    a.toNat + n.toNat ≤ physMemoryEnd ∧ a.toNat % pageSize = 0 ∧
    ∃ r ∈ s.memoryRegions, r.baseAddress.toNat ≤ a.toNat ∧
      a.toNat + n.toNat ≤ r.baseAddress.toNat + r.size.toNat ∧
      p &&& r.protection = p ∧ (r.owner = none ∨ r.owner = u)

/-- A single bit of a mask is granted by a mask that has it. -/
theorem and_two_pow_ne_zero_iff (x k : Nat) : x &&& 2 ^ k ≠ 0 ↔ 2 ^ k &&& x = 2 ^ k := by
  rw [Nat.and_two_pow, Nat.two_pow_and]
  cases x.testBit k <;> simp [(Nat.two_pow_pos k).ne]

/-- In every reachable state, {validate_memory_access} accepts exactly the non-empty,
non-wrapping, page-aligned ranges between the kernel and the end of physical memory that a
registered entry covers, when that entry's rights meet the requested mask and it has no
owner or the caller as owner. -/
theorem reachable_validate_iff (hs : Reachable s) (u : Option User) (a n : BitVec 32)
    (p : Nat) :
    validateMemoryAccess s u a n p = .ok () ↔
      a ≠ 0 ∧ n ≠ 0 ∧ a.toNat + n.toNat < 2 ^ 32 ∧ kernelEnd ≤ a.toNat ∧
      a.toNat + n.toNat ≤ physMemoryEnd ∧ a.toNat % pageSize = 0 ∧
      ∃ r ∈ s.memoryRegions, r.baseAddress.toNat ≤ a.toNat ∧
        a.toNat + n.toNat ≤ r.baseAddress.toNat + r.size.toNat ∧
        r.protection &&& p ≠ 0 ∧ (r.owner = none ∨ r.owner = u) :=
  hs.wellFormed.validate_iff u a n p

/-- Another principal asks to write the first page handed out after boot. -/
theorem first_page_validate_iff :
    let s := allocateRun 0 1
    Reachable s ∧
    (validateMemoryAccess s (some 1) 0x100000 0x1000 memProtWrite = .ok () ↔
      (0x100000 : BitVec 32) ≠ 0 ∧ (0x1000 : BitVec 32) ≠ 0 ∧
      (0x100000 : BitVec 32).toNat + (0x1000 : BitVec 32).toNat < 2 ^ 32 ∧
      kernelEnd ≤ (0x100000 : BitVec 32).toNat ∧
      (0x100000 : BitVec 32).toNat + (0x1000 : BitVec 32).toNat ≤ physMemoryEnd ∧
      (0x100000 : BitVec 32).toNat % pageSize = 0 ∧
      ∃ r ∈ s.memoryRegions, r.baseAddress.toNat ≤ (0x100000 : BitVec 32).toNat ∧
        (0x100000 : BitVec 32).toNat + (0x1000 : BitVec 32).toNat ≤
          r.baseAddress.toNat + r.size.toNat ∧
        r.protection &&& memProtWrite ≠ 0 ∧ (r.owner = none ∨ r.owner = some 1)) :=
  ⟨allocateRun_reachable 0 1,
    reachable_validate_iff (allocateRun_reachable 0 1) (some 1) 0x100000 0x1000 memProtWrite⟩

end MiniKernel.Memory
