import MiniKernel.Memory.Manager
import Mathlib.Order.Interval.Finset.Nat

/-! The invariant of the allocator over every state reachable from
`init_memory_management` by `allocate_memory` and `free_memory`, under any sequence of
current principals:

* `WellFormed`: the kernel frames stay used, a frame above them is used exactly when
  the registry holds a region based at it, the registry is the kernel's entry followed
  by page entries with distinct bases, and every clear frame the hint has moved past
  lies above every allocated frame (`skipped`, the consequence of rollbacks);
* `wellFormed_init`, `wellFormed_allocate`, `wellFormed_free`, and so
  `Reachable.wellFormed`;
* `WellFormed.validate_iff`: what `validate_memory_access` decides in such a state, of
  which the page check of `free_memory` is a case (`validate_page_iff`).

The counting lemmas `full_of_all_set` and `all_set_of_full` tie the bitmap to the
registry's capacity: the `maxMemoryRegions - 1` page entries fit exactly into the frames
below `pageLimit`. -/

namespace MiniKernel.Memory

/-- A full registry holds `maxMemoryRegions - 1` pages; lowest-first allocation keeps
them all below this frame. -/
def pageLimit : Nat := kernelPages + maxMemoryRegions - 1

/-- A registry entry made by a successful `allocate_memory`. -/
def IsPageRegion (r : MemoryRegion) : Prop :=
  ∃ f user, kernelPages ≤ f ∧ f < pageLimit ∧ r = pageRegion f user

structure WellFormed (s : MemoryManager) : Prop where
  enabled : s.memoryProtectionEnabled = true
  kernel_used : ∀ f < kernelPages, bitmapTest s.pageBitmap f = true
  used_iff : ∀ f, kernelPages ≤ f → f < frameCount →
    (bitmapTest s.pageBitmap f = true ↔
      ∃ r ∈ s.memoryRegions, r.baseAddress.toNat = f * pageSize)
  regions : ∃ pages, s.memoryRegions = kernelRegion :: pages ∧ ∀ r ∈ pages, IsPageRegion r
  nodup : (s.memoryRegions.map (·.baseAddress)).Nodup
  count : s.memoryRegions.length ≤ maxMemoryRegions
  hint_ge : kernelPages ≤ s.nextFreePage
  hint_le : s.nextFreePage ≤ frameCount
  skipped : ∀ f, kernelPages ≤ f → f < s.nextFreePage →
    bitmapTest s.pageBitmap f = false → pageLimit ≤ f

inductive Reachable : MemoryManager → Prop
  | init : Reachable initMemoryManagement
  | allocate {s : MemoryManager} (u : Option User) (size : BitVec 32) :
      Reachable s → Reachable (allocateMemory s u size).state
  | free {s : MemoryManager} (u : Option User) (ptr : BitVec 32) :
      Reachable s → Reachable (freeMemory s u ptr).state

/-! ## Frames and addresses -/

theorem kernelPages_eq : kernelPages = 256 := rfl
theorem frameCount_eq : frameCount = 4096 := rfl
theorem pageLimit_eq : pageLimit = 1279 := rfl
theorem pageSize_eq : pageSize = 4096 := rfl

theorem pageRegion_base {f : Nat} (u : User) (hf : f < frameCount) :
    (pageRegion f u).baseAddress.toNat = f * pageSize := by
  simp only [pageRegion, BitVec.toNat_ofNat]
  rw [frameCount_eq] at hf
  rw [pageSize_eq, Nat.mod_eq_of_lt (by omega)]

theorem kernelRegion_base : kernelRegion.baseAddress.toNat = 0 := rfl

/-- Among the entries of a well-formed registry, those based at a frame above the
kernel are the page entries of that frame. -/
theorem base_eq_iff {pages : List MemoryRegion} (hp : ∀ r ∈ pages, IsPageRegion r)
    {f : Nat} (hf : kernelPages ≤ f) (hf' : f < frameCount) :
    (∃ r ∈ kernelRegion :: pages, r.baseAddress.toNat = f * pageSize) ↔
      ∃ u, pageRegion f u ∈ pages := by
  constructor
  · rintro ⟨r, hr, hb⟩
    rcases List.mem_cons.1 hr with rfl | hr
    · rw [kernelRegion_base, pageSize_eq] at hb
      rw [kernelPages_eq] at hf
      omega
    · obtain ⟨g, u, -, hg, rfl⟩ := hp r hr
      rw [pageRegion_base u (by rw [pageLimit_eq] at hg; rw [frameCount_eq]; omega),
        pageSize_eq] at hb
      exact ⟨u, by rwa [show g = f by omega] at hr⟩
  · rintro ⟨u, hu⟩
    exact ⟨_, List.mem_cons_of_mem _ hu, pageRegion_base u hf'⟩

/-! ## Counting frames -/

theorem length_ge_of_forall_mem {l : List Nat} {a b : Nat}
    (h : ∀ x, a ≤ x → x < b → x ∈ l) : b - a ≤ l.length :=
  calc b - a = (Finset.Ico a b).card := (Nat.card_Ico a b).symm
    _ ≤ l.toFinset.card := Finset.card_le_card fun x hx => by
        simp only [Finset.mem_Ico] at hx
        exact List.mem_toFinset.2 (h x hx.1 hx.2)
    _ ≤ l.length := List.toFinset_card_le l

theorem mem_of_length_ge {l : List Nat} {a b x : Nat} (hn : l.Nodup)
    (hr : ∀ y ∈ l, a ≤ y ∧ y < b) (hl : b - a ≤ l.length) (hx : a ≤ x) (hx' : x < b) :
    x ∈ l := by
  have hsub : l.toFinset ⊆ Finset.Ico a b := fun y hy => by
    simpa using hr y (List.mem_toFinset.1 hy)
  have hcard : (Finset.Ico a b).card ≤ l.toFinset.card := by
    rwa [Nat.card_Ico, List.toFinset_card_of_nodup hn]
  have hx'' : x ∈ l.toFinset := Finset.eq_of_subset_of_card_le hsub hcard ▸ (by simp [hx, hx'])
  exact List.mem_toFinset.1 hx''

/-- The frames of the page entries. -/
def pageFrames (pages : List MemoryRegion) : List Nat :=
  pages.map fun r => r.baseAddress.toNat / pageSize

section
variable {pages : List MemoryRegion} (hp : ∀ r ∈ pages, IsPageRegion r)
include hp

theorem mem_pageFrames {f : Nat} (hf : f < frameCount) :
    f ∈ pageFrames pages ↔ ∃ u, pageRegion f u ∈ pages := by
  simp only [pageFrames, List.mem_map]
  constructor
  · rintro ⟨r, hr, rfl⟩
    obtain ⟨g, u, -, hg, rfl⟩ := hp _ hr
    rw [pageRegion_base u (by rw [pageLimit_eq] at hg; rw [frameCount_eq]; omega),
      Nat.mul_div_cancel _ (by decide)]
    exact ⟨u, hr⟩
  · rintro ⟨u, hu⟩
    exact ⟨_, hu, by rw [pageRegion_base u hf, Nat.mul_div_cancel _ (by decide)]⟩

theorem pageFrames_nodup (hn : (pages.map (·.baseAddress)).Nodup) :
    (pageFrames pages).Nodup := by
  have he : pageFrames pages = (pages.map (·.baseAddress)).map fun b => b.toNat / pageSize := by
    simp [pageFrames, Function.comp_def]
  rw [he]
  refine hn.map_on fun x hx y hy hxy => ?_
  obtain ⟨r, hr, rfl⟩ := List.mem_map.1 hx
  obtain ⟨r', hr', rfl⟩ := List.mem_map.1 hy
  obtain ⟨g, u, -, hg, rfl⟩ := hp _ hr
  obtain ⟨g', u', -, hg', rfl⟩ := hp _ hr'
  rw [pageLimit_eq] at hg hg'
  simp only [pageRegion_base u (show g < frameCount by rw [frameCount_eq]; omega),
    pageRegion_base u' (show g' < frameCount by rw [frameCount_eq]; omega),
    Nat.mul_div_cancel _ (show 0 < pageSize by decide)] at hxy
  simp [pageRegion, hxy]

theorem pageFrames_range {g : Nat} (hg : g ∈ pageFrames pages) :
    kernelPages ≤ g ∧ g < pageLimit := by
  obtain ⟨r, hr, rfl⟩ := List.mem_map.1 hg
  obtain ⟨f, u, hf, hf', rfl⟩ := hp _ hr
  rw [pageRegion_base u (by rw [pageLimit_eq] at hf'; rw [frameCount_eq]; omega),
    Nat.mul_div_cancel _ (by decide)]
  exact ⟨hf, hf'⟩

end

/-! ## The access check -/

/-- The loop finds the one entry of a registry that covers the range. -/
theorem findCoveringRegion_unique {a b : BitVec 32} {l : List MemoryRegion} {r : MemoryRegion}
    (hr : r ∈ l) (hc : r.baseAddress ≤ a ∧ b ≤ r.baseAddress + r.size)
    (hu : ∀ r' ∈ l, r'.baseAddress ≤ a ∧ b ≤ r'.baseAddress + r'.size → r' = r) :
    findCoveringRegion a b l = some r := by
  obtain ⟨r', hr'⟩ := Option.isSome_iff_exists.1 (findCoveringRegion_isSome hr hc)
  obtain ⟨hm, hc'⟩ := findCoveringRegion_some hr'
  rw [hr', hu r' hm hc']

theorem owner_allows_iff (owner u : Option User) :
    ¬(owner.isSome ∧ owner ≠ u) ↔ owner = none ∨ owner = u := by
  cases owner <;> simp

namespace WellFormed

variable {s : MemoryManager} (hw : WellFormed s)
include hw

/-- Above the kernel, a frame is used exactly when some principal holds its page. -/
theorem used_iff_page {f : Nat} (hf : kernelPages ≤ f) (hf' : f < frameCount) :
    bitmapTest s.pageBitmap f = true ↔ ∃ u, pageRegion f u ∈ s.memoryRegions := by
  obtain ⟨pages, hreg, hp⟩ := hw.regions
  rw [hw.used_iff f hf hf', hreg, base_eq_iff hp hf hf']
  constructor
  · rintro ⟨u, hu⟩; exact ⟨u, List.mem_cons_of_mem _ hu⟩
  · rintro ⟨u, hu⟩
    rcases List.mem_cons.1 hu with hk | hu
    · have := congrArg (·.baseAddress.toNat) hk
      simp only [pageRegion_base u hf', kernelRegion_base, pageSize_eq] at this
      rw [kernelPages_eq] at hf
      omega
    · exact ⟨u, hu⟩

/-- If every frame below `pageLimit` is used, the registry is full. -/
theorem full_of_all_set
    (h : ∀ g, kernelPages ≤ g → g < pageLimit → bitmapTest s.pageBitmap g = true) :
    maxMemoryRegions ≤ s.memoryRegions.length := by
  obtain ⟨pages, hreg, hp⟩ := hw.regions
  have hmem : ∀ g, kernelPages ≤ g → g < pageLimit → g ∈ pageFrames pages := fun g hg hg' => by
    have hgf : g < frameCount := by rw [pageLimit_eq] at hg'; rw [frameCount_eq]; omega
    obtain ⟨u, hu⟩ := (hw.used_iff_page hg hgf).1 (h g hg hg')
    rw [hreg] at hu
    rcases List.mem_cons.1 hu with hk | hu
    · have := congrArg (·.baseAddress.toNat) hk
      simp only [pageRegion_base u hgf, kernelRegion_base, pageSize_eq] at this
      rw [kernelPages_eq] at hg
      omega
    · exact (mem_pageFrames hp hgf).2 ⟨u, hu⟩
  have hlen := length_ge_of_forall_mem hmem
  simp only [pageFrames, List.length_map, pageLimit] at hlen
  rw [hreg, List.length_cons]
  omega

/-- A full registry has used every frame below `pageLimit`. -/
theorem all_set_of_full (hfull : maxMemoryRegions ≤ s.memoryRegions.length)
    {g : Nat} (hg : kernelPages ≤ g) (hg' : g < pageLimit) :
    bitmapTest s.pageBitmap g = true := by
  obtain ⟨pages, hreg, hp⟩ := hw.regions
  have hn : (pages.map (·.baseAddress)).Nodup := by
    have := hw.nodup
    rw [hreg, List.map_cons] at this
    exact (List.nodup_cons.1 this).2
  have hlen : pageLimit - kernelPages ≤ (pageFrames pages).length := by
    have := hw.count
    rw [hreg, List.length_cons] at this hfull
    simp only [pageFrames, List.length_map, pageLimit]
    omega
  have hgf : g < frameCount := by rw [pageLimit_eq] at hg'; rw [frameCount_eq]; omega
  have hm := mem_of_length_ge (pageFrames_nodup hp hn) (fun y hy => pageFrames_range hp hy)
    hlen hg hg'
  obtain ⟨u, hu⟩ := (mem_pageFrames hp hgf).1 hm
  exact (hw.used_iff_page hg hgf).2 ⟨u, hreg ▸ List.mem_cons_of_mem _ hu⟩

/-- While the registry has room, the hint has skipped no clear frame. -/
theorem set_below_hint (hroom : s.memoryRegions.length < maxMemoryRegions) {g : Nat}
    (hg : g < s.nextFreePage) : bitmapTest s.pageBitmap g = true := by
  by_cases hk : g < kernelPages
  · exact hw.kernel_used g hk
  by_contra hc
  have hlim := hw.skipped g (by omega) hg (by simpa using hc)
  refine absurd (hw.full_of_all_set fun h hh hh' => ?_) (by omega)
  by_contra hc'
  have := hw.skipped h hh (by omega) (by simpa using hc')
  omega

/-- With room in the registry, the scan from the hint finds the lowest clear frame, and
that frame lies below `pageLimit`. -/
theorem lowest_of_scan (hroom : s.memoryRegions.length < maxMemoryRegions) {f : Nat}
    (hf : hintScan s = some f) :
    bitmapTest s.pageBitmap f = false ∧ (∀ g < f, bitmapTest s.pageBitmap g = true) ∧
      kernelPages ≤ f ∧ f < pageLimit := by
  obtain ⟨hlo, -, hclear, hset⟩ := scanFree_some hf
  have hbelow : ∀ g < f, bitmapTest s.pageBitmap g = true := fun g hg =>
    if h : g < s.nextFreePage then hw.set_below_hint hroom h else hset g (by omega) hg
  refine ⟨hclear, hbelow, le_trans hw.hint_ge hlo, ?_⟩
  by_contra hf'
  exact absurd (hw.full_of_all_set fun g _ hg => hbelow g (by omega)) (by omega)

/-- With a full registry, a frame found by the scan lies at or above `pageLimit`. -/
theorem limit_le_of_scan (hfull : maxMemoryRegions ≤ s.memoryRegions.length) {f : Nat}
    (hf : hintScan s = some f) : pageLimit ≤ f := by
  obtain ⟨hlo, -, hclear, -⟩ := scanFree_some hf
  by_contra hlt
  have := hw.all_set_of_full hfull (le_trans hw.hint_ge hlo) (by omega)
  simp [hclear] at this

/-- Every entry of the registry ends inside physical memory. -/
theorem region_end {r : MemoryRegion} (hr : r ∈ s.memoryRegions) :
    r.baseAddress.toNat + r.size.toNat ≤ physMemoryEnd := by
  obtain ⟨pages, hreg, hp⟩ := hw.regions
  rw [hreg] at hr
  rcases List.mem_cons.1 hr with rfl | hr
  · decide
  · obtain ⟨f, v, -, hf, rfl⟩ := hp r hr
    rw [pageLimit_eq] at hf
    rw [pageRegion_base v (by rw [frameCount_eq]; omega)]
    simp only [pageRegion, BitVec.toNat_ofNat, pageSize_eq, physMemoryEnd]
    omega

/-- For a range that does not wrap, an entry covers it in 32-bit arithmetic exactly when it
covers it as numbers. -/
theorem covers_toNat {a n : BitVec 32} (hnw : a.toNat + n.toNat < 2 ^ 32) {r : MemoryRegion}
    (hr : r ∈ s.memoryRegions) :
    (r.baseAddress ≤ a ∧ a + n ≤ r.baseAddress + r.size) ↔
      r.baseAddress.toNat ≤ a.toNat ∧ a.toNat + n.toNat ≤ r.baseAddress.toNat + r.size.toNat := by
  have := hw.region_end hr
  simp only [physMemoryEnd] at this
  simp only [BitVec.le_def, BitVec.toNat_add, Nat.mod_eq_of_lt hnw,
    Nat.mod_eq_of_lt (show r.baseAddress.toNat + r.size.toNat < 2 ^ 32 by omega)]

/-- Above the kernel, the entry covering a non-empty page-aligned range is based at its
start; so at most one entry covers it. -/
theorem covering_base {a n : Nat} (hk : kernelEnd ≤ a) (hn : 0 < n) (hal : a % pageSize = 0)
    {r : MemoryRegion} (hr : r ∈ s.memoryRegions)
    (hc : r.baseAddress.toNat ≤ a ∧ a + n ≤ r.baseAddress.toNat + r.size.toNat) :
    r.baseAddress.toNat = a := by
  obtain ⟨pages, hreg, hp⟩ := hw.regions
  rw [hreg] at hr
  rcases List.mem_cons.1 hr with rfl | hr
  · have hsize : kernelRegion.size.toNat = kernelEnd := rfl
    rw [kernelRegion_base, hsize] at hc
    omega
  · obtain ⟨f, v, -, hf, rfl⟩ := hp r hr
    rw [pageLimit_eq] at hf
    rw [pageRegion_base v (by rw [frameCount_eq]; omega)] at hc ⊢
    simp only [pageRegion, BitVec.toNat_ofNat, pageSize_eq] at hc hal ⊢
    omega

/-- What {validate_memory_access} decides in a well-formed state: the range is non-empty,
does not wrap, lies page-aligned between the kernel and the end of physical memory, and
the entry covering it shares a right with the requested mask (the masks intersect) and
has no owner or the caller as owner. -/
theorem validate_iff (u : Option User) (a n : BitVec 32) (p : Nat) :
    validateMemoryAccess s u a n p = .ok () ↔
      a ≠ 0 ∧ n ≠ 0 ∧ a.toNat + n.toNat < 2 ^ 32 ∧ kernelEnd ≤ a.toNat ∧
      a.toNat + n.toNat ≤ physMemoryEnd ∧ a.toNat % pageSize = 0 ∧
      ∃ r ∈ s.memoryRegions, r.baseAddress.toNat ≤ a.toNat ∧
        a.toNat + n.toNat ≤ r.baseAddress.toNat + r.size.toNat ∧
        r.protection &&& p ≠ 0 ∧ (r.owner = none ∨ r.owner = u) := by
  have hwrap : a + n < a ↔ 2 ^ 32 ≤ a.toNat + n.toNat := by
    have := a.isLt; have := n.isLt
    rw [BitVec.lt_def, BitVec.toNat_add]; omega
  constructor
  · intro h
    simp only [validateMemoryAccess, hw.enabled, Bool.not_true, Bool.false_eq_true, if_false,
      ite_eq_iff, reduceCtorEq, and_false, false_or] at h
    obtain ⟨h0, hov, hb, hal, h⟩ := h
    split at h
    · cases h
    rename_i r hf
    simp only [ite_eq_iff, reduceCtorEq, and_false, false_or, and_true] at h
    obtain ⟨hprot, hown⟩ := h
    have hnw : a.toNat + n.toNat < 2 ^ 32 := by rw [hwrap] at hov; omega
    have hsum : (a + n).toNat = a.toNat + n.toNat := by
      rw [BitVec.toNat_add]; exact Nat.mod_eq_of_lt hnw
    obtain ⟨hr, hc⟩ := findCoveringRegion_some hf
    rw [not_or] at h0 hb
    rw [hsum] at hb
    exact ⟨h0.1, h0.2, hnw, by omega, by omega, by simpa using hal,
      r, hr, (hw.covers_toNat hnw hr).1 hc |>.1, (hw.covers_toNat hnw hr).1 hc |>.2, hprot,
      (owner_allows_iff _ _).1 hown⟩
  · rintro ⟨ha0, hn0, hnw, hk, hend, hal, r, hr, hc1, hc2, hprot, hown⟩
    have hsum : (a + n).toNat = a.toNat + n.toNat := by
      rw [BitVec.toNat_add]; exact Nat.mod_eq_of_lt hnw
    have hn : 0 < n.toNat := by
      rcases Nat.eq_zero_or_pos n.toNat with h | h
      · exact absurd (BitVec.eq_of_toNat_eq (by rw [h]; rfl)) hn0
      · exact h
    have hbase := hw.covering_base hk hn hal hr ⟨hc1, hc2⟩
    have hf : findCoveringRegion a (a + n) s.memoryRegions = some r :=
      findCoveringRegion_unique hr ((hw.covers_toNat hnw hr).2 ⟨hc1, hc2⟩) fun r' hr' hc' =>
        List.inj_on_of_nodup_map hw.nodup hr' hr (BitVec.eq_of_toNat_eq (by
          rw [hbase, hw.covering_base hk hn hal hr' ((hw.covers_toNat hnw hr').1 hc')]))
    have hov : ¬(a + n < a) := by rw [hwrap]; omega
    have hb : ¬(a.toNat < kernelEnd ∨ physMemoryEnd < (a + n).toNat) := by rw [hsum]; omega
    simp only [validateMemoryAccess, hw.enabled, Bool.not_true, Bool.false_eq_true, if_false,
      ha0, hn0, or_self, hov, hb, hal, ne_eq, not_true_eq_false, hf, hprot,
      (owner_allows_iff _ _).2 hown]

/-- A page-sized write check above the kernel passes exactly on the base of a page the
caller holds. -/
theorem validate_page_iff (u : Option User) (p : BitVec 32) :
    validateMemoryAccess s u p (BitVec.ofNat 32 pageSize) memProtWrite = .ok () ↔
      ∃ f v, kernelPages ≤ f ∧ f < pageLimit ∧ u = some v ∧ p.toNat = f * pageSize ∧
        pageRegion f v ∈ s.memoryRegions := by
  have hsz : (BitVec.ofNat 32 pageSize).toNat = pageSize := rfl
  obtain ⟨pages, hreg, hps⟩ := hw.regions
  rw [hw.validate_iff, hsz]
  constructor
  · rintro ⟨-, -, -, hk, -, hal, r, hr, hc1, hc2, -, hown⟩
    have hbase := hw.covering_base hk (by decide : 0 < pageSize) hal hr ⟨hc1, hc2⟩
    rw [hreg] at hr
    rcases List.mem_cons.1 hr with rfl | hr
    · rw [kernelRegion_base] at hbase
      exact absurd hk (by rw [← hbase]; decide)
    · obtain ⟨f, v, hf, hf', rfl⟩ := hps _ hr
      rw [pageRegion_base v (by rw [frameCount_eq]; rw [pageLimit_eq] at hf'; omega)] at hbase
      exact ⟨f, v, hf, hf', by simpa [pageRegion, eq_comm] using hown, hbase.symm,
        hreg ▸ List.mem_cons_of_mem _ hr⟩
  · rintro ⟨f, v, hf, hf', rfl, hpf, hmem⟩
    rw [pageLimit_eq] at hf'
    rw [kernelPages_eq] at hf
    rw [pageSize_eq] at hpf ⊢
    have hbase := pageRegion_base v (show f < frameCount by rw [frameCount_eq]; omega)
    have hsize : (pageRegion f v).size.toNat = 4096 := rfl
    refine ⟨fun h => ?_, by decide, by omega, by show 1048576 ≤ _; omega,
      by show _ ≤ 16777216; omega, by omega, pageRegion f v, hmem, by rw [hbase, pageSize_eq]; omega,
      by rw [hbase, hsize, pageSize_eq]; omega, by simp [pageRegion, memProtRead, memProtWrite],
      .inr rfl⟩
    rw [h] at hpf
    simp at hpf
    omega

/-! ### One call -/

/-- The rollback of a full registry only moves the hint past the frame it found. -/
theorem rollback (hfull : maxMemoryRegions ≤ s.memoryRegions.length) {f : Nat}
    (hf : hintScan s = some f) : WellFormed { s with nextFreePage := f + 1 } := by
  obtain ⟨hlo, hhi, -, hset⟩ := scanFree_some hf
  have := hw.hint_ge
  have := hw.hint_le
  refine { hw with hint_ge := by dsimp only; omega, hint_le := by dsimp only; omega,
                   skipped := fun g hg hgf hc => ?_ }
  by_cases hgh : g < s.nextFreePage
  · exact hw.skipped g hg hgh hc
  by_cases hgf' : g < f
  · simp [hset g (by omega) hgf'] at hc
  · exact (show g = f by simp at hgf; omega) ▸ hw.limit_le_of_scan hfull hf

/-- A successful allocation sets the lowest clear frame and registers its page. -/
theorem alloc (hroom : s.memoryRegions.length < maxMemoryRegions) {f : Nat}
    (hf : hintScan s = some f) (v : User) :
    WellFormed { s with pageBitmap := bitmapSet s.pageBitmap f, nextFreePage := f + 1,
                        memoryRegions := s.memoryRegions ++ [pageRegion f v] } := by
  obtain ⟨hlo, hhi, -, hset⟩ := scanFree_some hf
  obtain ⟨hclear, hbelow, hfk, hflim⟩ := hw.lowest_of_scan hroom hf
  obtain ⟨pages, hreg, hp⟩ := hw.regions
  have hff : f < frameCount := by rw [pageLimit_eq] at hflim; rw [frameCount_eq]; omega
  have hfresh : ∀ r ∈ s.memoryRegions, r.baseAddress ≠ (pageRegion f v).baseAddress :=
    fun r hr he => by
      have := (hw.used_iff f hfk hff).2 ⟨r, hr, by rw [he, pageRegion_base v hff]⟩
      simp [hclear] at this
  refine ⟨hw.enabled, fun g hg => by simp [hw.kernel_used g hg], fun g hg hg' => ?_,
    ⟨pages ++ [pageRegion f v], by rw [hreg]; rfl, fun r hr => ?_⟩, ?_, ?_, ?_, ?_, ?_⟩
  · simp only [bitmapTest_set, Bool.or_eq_true, decide_eq_true_eq, hw.used_iff g hg hg',
      List.mem_append, List.mem_singleton, pageRegion_base v hff]
    constructor
    · rintro (rfl | ⟨r, hr, hb⟩)
      · exact ⟨_, .inr rfl, pageRegion_base v hff⟩
      · exact ⟨r, .inl hr, hb⟩
    · rintro ⟨r, hr | rfl, hb⟩
      · exact .inr ⟨r, hr, hb⟩
      · rw [pageRegion_base v hff, pageSize_eq] at hb; exact .inl (by omega)
  · rcases List.mem_append.1 hr with hr | hr
    · exact hp r hr
    · exact ⟨f, v, hfk, hflim, List.mem_singleton.1 hr⟩
  · rw [List.map_append, List.nodup_append]
    refine ⟨hw.nodup, List.nodup_singleton _, fun a ha hb => ?_⟩
    obtain ⟨r, hr, rfl⟩ := List.mem_map.1 ha
    rw [List.map_singleton, List.mem_singleton] at hb
    exact hfresh r hr hb
  · simp only [List.length_append, List.length_singleton]; omega
  · exact le_trans hw.hint_ge (Nat.le_succ_of_le hlo)
  · have := hw.hint_le; dsimp only; omega
  · intro g hg hgf hc
    obtain ⟨hne, hc⟩ : g ≠ f ∧ bitmapTest s.pageBitmap g = false := by simpa using hc
    simp [hbelow g (by dsimp only at hgf; omega)] at hc

/-- Freeing a page clears its frame, lowers the hint to it and drops its entry. -/
theorem release {f : Nat} {v : User} (hf : kernelPages ≤ f) (hf' : f < pageLimit)
    (hmem : pageRegion f v ∈ s.memoryRegions) :
    WellFormed { s with pageBitmap := bitmapClear s.pageBitmap f,
                        nextFreePage := min s.nextFreePage f,
                        memoryRegions := s.memoryRegions.erase (pageRegion f v) } := by
  obtain ⟨pages, hreg, hp⟩ := hw.regions
  have hff : f < frameCount := by rw [pageLimit_eq] at hf'; rw [frameCount_eq]; omega
  have hnd : s.memoryRegions.Nodup := List.Nodup.of_map _ hw.nodup
  have hne : kernelRegion ≠ pageRegion f v := fun h => by
    have := congrArg (·.baseAddress.toNat) h
    simp only [pageRegion_base v hff, kernelRegion_base, pageSize_eq] at this
    rw [kernelPages_eq] at hf
    omega
  have huniq : ∀ r ∈ s.memoryRegions, r.baseAddress.toNat = f * pageSize → r = pageRegion f v :=
    fun r hr hb => List.inj_on_of_nodup_map hw.nodup hr hmem
      (BitVec.eq_of_toNat_eq (by rw [hb, pageRegion_base v hff]))
  have := hw.hint_ge
  have := hw.hint_le
  refine ⟨hw.enabled, fun g hg => ?_, fun g hg hg' => ?_,
    ⟨pages.erase (pageRegion f v), ?_, fun r hr => hp r (List.mem_of_mem_erase hr)⟩,
    hw.nodup.sublist ((List.erase_sublist _ _).map _),
    le_trans (List.length_erase_le _ _) hw.count, by dsimp only; omega, by dsimp only; omega,
    fun g hg hgh hc => ?_⟩
  · have : g ≠ f := by omega
    simp [this, hw.kernel_used g hg]
  · simp only [bitmapTest_clear, Bool.and_eq_true, Bool.not_eq_true', decide_eq_false_iff_not,
      hw.used_iff g hg hg', hnd.mem_erase_iff]
    constructor
    · rintro ⟨hgf, r, hr, hb⟩
      refine ⟨r, ⟨fun h => hgf ?_, hr⟩, hb⟩
      rw [h, pageRegion_base v hff, pageSize_eq] at hb
      omega
    · rintro ⟨r, ⟨hrf, hr⟩, hb⟩
      exact ⟨fun hgf => hrf (huniq r hr (hgf ▸ hb)), r, hr, hb⟩
  · have : (kernelRegion :: pages).erase (pageRegion f v) =
        kernelRegion :: pages.erase (pageRegion f v) :=
      List.erase_cons_tail (by simpa using hne)
    rw [← this, ← hreg]
  · dsimp only at hgh
    have hgf : g ≠ f := by omega
    simp only [bitmapTest_clear, hgf, decide_False, Bool.not_false, Bool.true_and] at hc
    exact hw.skipped g hg (by omega) hc

/-- The state an accepted `free_memory` leaves. -/
theorem free_accepted {p : BitVec 32} {f : Nat} {v : User} (hf : kernelPages ≤ f)
    (hf' : f < pageLimit) (hpf : p.toNat = f * pageSize) (hmem : pageRegion f v ∈ s.memoryRegions)
    (hv : validateMemoryAccess s (some v) p (BitVec.ofNat 32 pageSize) memProtWrite = .ok ()) :
    (freeMemory s (some v) p).state =
      { s with pageBitmap := bitmapClear s.pageBitmap f,
               nextFreePage := min s.nextFreePage f,
               memoryRegions := s.memoryRegions.erase (pageRegion f v) } := by
  have hff : f < frameCount := by rw [pageLimit_eq] at hf'; rw [frameCount_eq]; omega
  have hdiv : p.toNat / pageSize = f := by rw [hpf, Nat.mul_div_cancel _ (by decide)]
  have hp0 : p ≠ 0 := by
    rintro rfl
    rw [kernelPages_eq] at hf
    simp [pageSize_eq] at hpf
    omega
  have hbase : (pageRegion f v).baseAddress = p :=
    BitVec.eq_of_toNat_eq (by rw [pageRegion_base v hff, hpf])
  rw [freeMemory_accepted hp0 hv (by rw [hdiv]; exact hff), hdiv,
    unregisterMemoryRegion_eq_erase hw.nodup hmem hbase]
  rfl

end WellFormed

/-! ## Every reachable state -/

theorem bitmapTest_range_foldl (n b : Nat) :
    bitmapTest ((List.range n).foldl bitmapSet fun _ => 0) b = decide (b < n) := by
  induction n with
  | zero => simp [bitmapTest_eq]
  | succ n ih =>
    simp only [List.range_succ, List.foldl_append, List.foldl_cons, List.foldl_nil,
      bitmapTest_set, ih]
    by_cases h : b = n <;> simp [h]
    omega

theorem initMemoryManagement_used (f : Nat) :
    bitmapTest initMemoryManagement.pageBitmap f = decide (f < kernelPages) := by
  unfold initMemoryManagement
  rw [bitmapTest_range_foldl]

theorem initMemoryManagement_regions : initMemoryManagement.memoryRegions = [kernelRegion] := rfl

theorem wellFormed_init : WellFormed initMemoryManagement where
  enabled := rfl
  kernel_used f hf := by simp [initMemoryManagement_used, hf]
  used_iff f hf _ := by
    rw [initMemoryManagement_used, initMemoryManagement_regions, kernelPages_eq] at *
    simp [kernelRegion_base, pageSize_eq]
    omega
  regions := ⟨[], rfl, by simp⟩
  nodup := by simp [initMemoryManagement_regions]
  count := by simp [initMemoryManagement_regions, maxMemoryRegions]
  hint_ge := le_rfl
  hint_le := by decide
  skipped f hf hf' := absurd hf' (by simp [initMemoryManagement]; omega)



theorem wellFormed_allocate {s : MemoryManager} (hw : WellFormed s) (u : Option User)
    (size : BitVec 32) : WellFormed (allocateMemory s u size).state := by
  rcases u with _ | v
  · rw [(allocateMemory_unchanged (.inl rfl)).2]; exact hw
  by_cases hsize : size.toNat = pageSize
  · cases hf : hintScan s with
    | none => rw [(allocateMemory_unchanged (.inr (.inr hf))).2]; exact hw
    | some f =>
      rw [allocateMemory_found hsize hf]
      split
      · exact hw.rollback ‹_› hf
      · exact hw.alloc (by omega) hf v
  · rw [(allocateMemory_unchanged (.inr (.inl hsize))).2]; exact hw

theorem wellFormed_free {s : MemoryManager} (hw : WellFormed s) (u : Option User)
    (p : BitVec 32) : WellFormed (freeMemory s u p).state := by
  by_cases hv : validateMemoryAccess s u p (BitVec.ofNat 32 pageSize) memProtWrite = .ok ()
  · obtain ⟨f, v, hf, hf', rfl, hpf, hmem⟩ := (hw.validate_page_iff u p).1 hv
    rw [hw.free_accepted hf hf' hpf hmem hv]
    exact hw.release hf hf' hmem
  · rw [freeMemory_rejected hv]; exact hw

theorem Reachable.wellFormed {s : MemoryManager} (h : Reachable s) : WellFormed s := by
  induction h with
  | init => exact wellFormed_init
  | allocate u size _ ih => exact wellFormed_allocate ih u size
  | free u ptr _ ih => exact wellFormed_free ih u ptr

end MiniKernel.Memory
