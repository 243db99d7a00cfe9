import MiniKernel.Bitmap

/-! The page-frame allocator of `memory_management.c` with its region registry and the
access check `validate_memory_access` that gates `free_memory`.

The process-wide statics become one `MemoryManager` record. The registry keeps only its
first `region_count` entries, as a list: the entries past the count are never read. The
current principal (`security_get_current_user()`) is an argument of every call, and
each call returns, besides its result and the new state, the security events it logged
in order (`log_memory_security_event`, without the hex formatting of the address). -/

namespace MiniKernel.Memory

def pageSize : Nat := 4096
def kernelEnd : Nat := 0x100000
def physMemoryEnd : Nat := 0x1000000
def maxMemoryRegions : Nat := 1024

/-- Frames tracked by the bitmap, `PHYS_MEMORY_END / PAGE_SIZE`. -/
def frameCount : Nat := physMemoryEnd / pageSize

/-- `kernel_pages` of `init_memory_management`, the frames below `KERNEL_END`. -/
def kernelPages : Nat := (kernelEnd + pageSize - 1) / pageSize

def memProtNone : Nat := 0
def memProtRead : Nat := 1
def memProtWrite : Nat := 2
def memProtExecute : Nat := 4

/-- A `user_t *`; the memory manager compares principals only by identity. -/
abbrev User := Nat

/-- `memory_region_t`. -/
structure MemoryRegion where
  baseAddress : BitVec 32
  size : BitVec 32
  protection : Nat
  owner : Option User
  isAllocated : Bool
  deriving DecidableEq, Repr

structure MemoryManager where
  pageBitmap : Bytes
  nextFreePage : Nat
  memoryRegions : List MemoryRegion
  memoryProtectionEnabled : Bool

/-- One call of `log_memory_security_event (event, details, address)`. -/
structure SecurityEvent where
  event : String
  details : String
  address : BitVec 32
  deriving DecidableEq, Repr

/-- What a call of the allocator returns, leaves behind and logs. -/
structure Outcome (α : Type) where
  result : α
  state : MemoryManager
  log : List SecurityEvent

/-! ## The region registry -/

/-- `register_memory_region`: `none` is the `false` of a full table. -/
def registerMemoryRegion (regions : List MemoryRegion) (address size : BitVec 32)
    (protection : Nat) (owner : Option User) : Option (List MemoryRegion) :=
  if maxMemoryRegions ≤ regions.length then none
  else some (regions ++ [⟨address, size, protection, owner, true⟩])

/-- `unregister_memory_region`: drop the first entry based at `address`, shifting the
rest down; `none` when there is none. -/
def unregisterMemoryRegion (address : BitVec 32) :
    List MemoryRegion → Option (List MemoryRegion)
  | [] => none
  | r :: rs =>
    if r.baseAddress = address then some rs
    else (unregisterMemoryRegion address rs).map (r :: ·)

theorem unregisterMemoryRegion_eq_erase {a : BitVec 32} {l : List MemoryRegion} {r : MemoryRegion}
    (hn : (l.map (·.baseAddress)).Nodup) (hr : r ∈ l) (ha : r.baseAddress = a) :
    unregisterMemoryRegion a l = some (l.erase r) := by
  induction l with
  | nil => simp at hr
  | cons x xs ih =>
    simp only [List.map_cons, List.nodup_cons, List.mem_map] at hn
    simp only [unregisterMemoryRegion]
    by_cases hx : x = r
    · subst hx; simp [ha]
    · have hr' : r ∈ xs := (List.mem_cons.1 hr).resolve_left (Ne.symm hx)
      have hxa : x.baseAddress ≠ a := fun h => hn.1 ⟨r, hr', ha.trans h.symm⟩
      have he : (x :: xs).erase r = x :: xs.erase r := List.erase_cons_tail (by simpa using hx)
      simp [hxa, ih hn.2 hr', he]

/-- The region loop of `validate_memory_access`: the first entry whose range contains
`[start, stop)`, in 32-bit arithmetic. -/
def findCoveringRegion (start stop : BitVec 32) : List MemoryRegion → Option MemoryRegion
  | [] => none
  | r :: rs =>
    if r.baseAddress ≤ start ∧ stop ≤ r.baseAddress + r.size then some r
    else findCoveringRegion start stop rs

/-- `validate_memory_access`: `.ok ()` is `true`, `.error e` is `false` after logging `e`. -/
def validateMemoryAccess (s : MemoryManager) (currentUser : Option User)
    (address size : BitVec 32) (accessType : Nat) : Except SecurityEvent Unit :=
  if !s.memoryProtectionEnabled then .ok ()
  else if address = 0 ∨ size = 0 then
    .error ⟨"INVALID_ACCESS", "Null address or zero size", address⟩
  else if address + size < address then
    .error ⟨"ADDRESS_OVERFLOW", "Address calculation overflow", address⟩
  else if address.toNat < kernelEnd ∨ physMemoryEnd < (address + size).toNat then
    .error ⟨"OUT_OF_BOUNDS", "Memory access out of bounds", address⟩
  else if address.toNat % pageSize ≠ 0 then
    .error ⟨"MISALIGNED_ACCESS", "Misaligned memory access", address⟩
  else
    match findCoveringRegion address (address + size) s.memoryRegions with
    | none => .error ⟨"UNREGISTERED_REGION", "Access to unregistered memory region", address⟩
    | some r =>
      if r.protection &&& accessType = 0 then
        .error ⟨"PERMISSION_DENIED", "Insufficient permissions for memory access", address⟩
      else if r.owner.isSome ∧ r.owner ≠ currentUser then
        .error ⟨"WRONG_OWNER", "Memory access by wrong user", address⟩
      else .ok ()

theorem findCoveringRegion_some {a b : BitVec 32} {l : List MemoryRegion} {r : MemoryRegion}
    (h : findCoveringRegion a b l = some r) :
    r ∈ l ∧ r.baseAddress ≤ a ∧ b ≤ r.baseAddress + r.size := by
  induction l with
  | nil => simp [findCoveringRegion] at h
  | cons x xs ih =>
    simp only [findCoveringRegion] at h
    split at h
    · cases h; exact ⟨List.mem_cons_self _ _, ‹_›⟩
    · obtain ⟨h1, h2⟩ := ih h
      exact ⟨List.mem_cons_of_mem _ h1, h2⟩

theorem findCoveringRegion_isSome {a b : BitVec 32} {l : List MemoryRegion} {r : MemoryRegion}
    (hr : r ∈ l) (hc : r.baseAddress ≤ a ∧ b ≤ r.baseAddress + r.size) :
    (findCoveringRegion a b l).isSome := by
  induction l with
  | nil => simp at hr
  | cons x xs ih =>
    simp only [findCoveringRegion]
    split
    · rfl
    · rcases List.mem_cons.1 hr with rfl | hr
      · contradiction
      · exact ih hr

/-! ## Frames -/

/-- The loop of `find_free_page`: the first clear frame among the `n` frames from `i`. -/
def scanFree (bm : Bytes) (i : Nat) : Nat → Option Nat
  | 0 => none
  | n + 1 => if bitmapTest bm i then scanFree bm (i + 1) n else some i

theorem scanFree_some {bm : Bytes} {i n f : Nat} (h : scanFree bm i n = some f) :
    i ≤ f ∧ f < i + n ∧ bitmapTest bm f = false ∧ ∀ g, i ≤ g → g < f → bitmapTest bm g = true := by
  induction n generalizing i with
  | zero => simp [scanFree] at h
  | succ n ih =>
    by_cases hb : bitmapTest bm i
    · simp only [scanFree, hb, if_true] at h
      obtain ⟨h1, h2, h3, h4⟩ := ih h
      refine ⟨by omega, by omega, h3, fun g hg hgf => ?_⟩
      rcases Nat.eq_or_lt_of_le hg with rfl | hg
      · exact hb
      · exact h4 g hg hgf
    · simp only [scanFree, hb] at h
      cases h
      exact ⟨le_rfl, by omega, by simpa using hb, fun g hg hgf => absurd hgf (by omega)⟩

theorem scanFree_none {bm : Bytes} {i n : Nat} (h : scanFree bm i n = none) :
    ∀ g, i ≤ g → g < i + n → bitmapTest bm g = true := by
  induction n generalizing i with
  | zero => intro g _ _; omega
  | succ n ih =>
    by_cases hb : bitmapTest bm i
    · simp only [scanFree, hb, if_true] at h
      intro g hg hgn
      rcases Nat.eq_or_lt_of_le hg with rfl | hg
      · exact hb
      · exact ih h g hg (by omega)
    · simp [scanFree, hb] at h

/-- `find_free_page`: scan upward from the hint, and move the hint past a frame found;
`none` is the `(uint32_t)-1` of an exhausted scan. -/
def findFreePage (s : MemoryManager) : Option Nat × MemoryManager :=
  match scanFree s.pageBitmap s.nextFreePage (frameCount - s.nextFreePage) with
  | some i => (some i, { s with nextFreePage := i + 1 })
  | none => (none, s)

/-- The kernel's own entry, registered first by `init_memory_management`. -/
def kernelRegion : MemoryRegion :=
  ⟨0, BitVec.ofNat 32 kernelEnd, memProtRead ||| memProtWrite ||| memProtExecute, none, true⟩

/-- `init_memory_management`: every field is overwritten, so the result does not depend
on the state before. -/
def initMemoryManagement : MemoryManager where
  pageBitmap := (List.range kernelPages).foldl bitmapSet fun _ => 0
  nextFreePage := kernelPages
  memoryRegions :=
    (registerMemoryRegion [] 0 (BitVec.ofNat 32 kernelEnd)
      (memProtRead ||| memProtWrite ||| memProtExecute) none).getD []
  memoryProtectionEnabled := true

/-- `allocate_memory (size)`; `0` is `NULL`. -/
def allocateMemory (s : MemoryManager) (currentUser : Option User) (size : BitVec 32) :
    Outcome (BitVec 32) :=
  match currentUser with
  | none =>
    ⟨0, s, [⟨"NO_USER", "Memory allocation attempted without authenticated user", 0⟩]⟩
  | some user =>
    if size.toNat ≠ pageSize then
      ⟨0, s, [⟨"INVALID_SIZE", "Invalid memory allocation size", 0⟩]⟩
    else
      match findFreePage s with
      | (none, s1) => ⟨0, s1, [⟨"OUT_OF_MEMORY", "No free pages available", 0⟩]⟩
      | (some frame, s1) =>
        let bm := bitmapSet s1.pageBitmap frame
        let address := BitVec.ofNat 32 (frame * pageSize)
        match registerMemoryRegion s1.memoryRegions address (BitVec.ofNat 32 pageSize)
            (memProtRead ||| memProtWrite) (some user) with
        | none =>
          ⟨0, { s1 with pageBitmap := bitmapClear bm frame },
            [⟨"REGION_REGISTRATION_FAILED", "Failed to register memory region", address⟩]⟩
        | some regions =>
          ⟨address, { s1 with pageBitmap := bm, memoryRegions := regions },
            [⟨"MEMORY_ALLOCATED", "Memory page allocated successfully", address⟩]⟩

/-- `free_memory (ptr)`. -/
def freeMemory (s : MemoryManager) (currentUser : Option User) (ptr : BitVec 32) :
    Outcome Unit :=
  if ptr = 0 then ⟨(), s, [⟨"NULL_POINTER_FREE", "Attempted to free null pointer", 0⟩]⟩
  else
    match validateMemoryAccess s currentUser ptr (BitVec.ofNat 32 pageSize) memProtWrite with
    | .error e => ⟨(), s, [e, ⟨"INVALID_FREE", "Invalid memory access during free", ptr⟩]⟩
    | .ok () =>
      if currentUser.isNone then
        ⟨(), s, [⟨"NO_USER_FREE", "Memory free attempted without authenticated user", ptr⟩]⟩
      else
        let frame := ptr.toNat / pageSize
        if frame < frameCount then
          ⟨(), { s with
              pageBitmap := bitmapClear s.pageBitmap frame
              nextFreePage := if frame < s.nextFreePage then frame else s.nextFreePage
              memoryRegions := (unregisterMemoryRegion ptr s.memoryRegions).getD s.memoryRegions },
            [⟨"MEMORY_FREED", "Memory page freed successfully", ptr⟩]⟩
        else ⟨(), s, [⟨"INVALID_FRAME", "Invalid page frame during free", ptr⟩]⟩

/-! ## What one call does -/

/-- The entry `allocate_memory` registers for frame `f` on behalf of `user`. -/
def pageRegion (f : Nat) (user : User) : MemoryRegion :=
  ⟨BitVec.ofNat 32 (f * pageSize), BitVec.ofNat 32 pageSize, memProtRead ||| memProtWrite,
    some user, true⟩

/-- The scan `find_free_page` runs from the hint. -/
abbrev hintScan (s : MemoryManager) : Option Nat :=
  scanFree s.pageBitmap s.nextFreePage (frameCount - s.nextFreePage)

/-- Without a principal, with a size other than a page, or with no clear frame above the
hint, `allocate_memory` returns `NULL` and changes nothing. -/
theorem allocateMemory_unchanged {s : MemoryManager} {u : Option User} {size : BitVec 32}
    (h : u = none ∨ size.toNat ≠ pageSize ∨ hintScan s = none) :
    (allocateMemory s u size).result = 0 ∧ (allocateMemory s u size).state = s := by
  rcases u with _ | v
  · exact ⟨rfl, rfl⟩
  by_cases hs : size.toNat = pageSize
  · have hn : hintScan s = none := by simpa [hs] using h
    simp [allocateMemory, hs, findFreePage, hn]
  · simp [allocateMemory, hs]

/-- Once the scan has found frame `f`: the rolled-back call of a full registry, which
keeps the advanced hint, and the successful call. -/
theorem allocateMemory_found {s : MemoryManager} {v : User} {size : BitVec 32} {f : Nat}
    (hsize : size.toNat = pageSize) (hf : hintScan s = some f) :
    allocateMemory s (some v) size =
      if maxMemoryRegions ≤ s.memoryRegions.length then
        ⟨0, { s with nextFreePage := f + 1 },
          [⟨"REGION_REGISTRATION_FAILED", "Failed to register memory region",
            BitVec.ofNat 32 (f * pageSize)⟩]⟩
      else
        ⟨BitVec.ofNat 32 (f * pageSize),
          { s with pageBitmap := bitmapSet s.pageBitmap f, nextFreePage := f + 1,
                   memoryRegions := s.memoryRegions ++ [pageRegion f v] },
          [⟨"MEMORY_ALLOCATED", "Memory page allocated successfully",
            BitVec.ofNat 32 (f * pageSize)⟩]⟩ := by
  have hclear := bitmapClear_set s.pageBitmap (scanFree_some hf).2.2.1
  by_cases hfull : maxMemoryRegions ≤ s.memoryRegions.length <;>
    simp [allocateMemory, hsize, findFreePage, hf, registerMemoryRegion, hfull, hclear,
      pageRegion]

/-- A call that returns a non-`NULL` address took the success path. -/
theorem allocateMemory_ne_zero {s : MemoryManager} {u : Option User} {size : BitVec 32}
    (h : (allocateMemory s u size).result ≠ 0) :
    ∃ v f, u = some v ∧ size.toNat = pageSize ∧ hintScan s = some f ∧
      s.memoryRegions.length < maxMemoryRegions ∧
      (allocateMemory s u size).result = BitVec.ofNat 32 (f * pageSize) ∧
      (allocateMemory s u size).state =
        { s with pageBitmap := bitmapSet s.pageBitmap f, nextFreePage := f + 1,
                 memoryRegions := s.memoryRegions ++ [pageRegion f v] } := by
  have hcases := @allocateMemory_unchanged s u size
  rcases u with _ | v
  · exact absurd (hcases (.inl rfl)).1 h
  by_cases hsize : size.toNat = pageSize
  · cases hf : hintScan s with
    | none => exact absurd (hcases (.inr (.inr hf))).1 h
    | some f =>
      rw [allocateMemory_found hsize hf] at h ⊢
      by_cases hfull : maxMemoryRegions ≤ s.memoryRegions.length
      · simp [hfull] at h
      · simp only [hfull, if_false] at h ⊢
        exact ⟨v, f, rfl, hsize, rfl, by omega, rfl, rfl⟩
  · exact absurd (hcases (.inr (.inl hsize))).1 h

/-- A rejected `free_memory` changes nothing. -/
theorem freeMemory_rejected {s : MemoryManager} {u : Option User} {ptr : BitVec 32}
    (h : validateMemoryAccess s u ptr (BitVec.ofNat 32 pageSize) memProtWrite ≠ .ok ()) :
    (freeMemory s u ptr).state = s := by
  unfold freeMemory
  split
  · rfl
  · split
    · rfl
    · contradiction

/-- An accepted `free_memory` by a principal of a frame in range. -/
theorem freeMemory_accepted {s : MemoryManager} {v : User} {ptr : BitVec 32}
    (hp : ptr ≠ 0)
    (h : validateMemoryAccess s (some v) ptr (BitVec.ofNat 32 pageSize) memProtWrite = .ok ())
    (hf : ptr.toNat / pageSize < frameCount) :
    (freeMemory s (some v) ptr).state =
      { s with
        pageBitmap := bitmapClear s.pageBitmap (ptr.toNat / pageSize)
        nextFreePage := min s.nextFreePage (ptr.toNat / pageSize)
        memoryRegions := (unregisterMemoryRegion ptr s.memoryRegions).getD s.memoryRegions } := by
  have hmin : (if ptr.toNat / pageSize < s.nextFreePage then ptr.toNat / pageSize
      else s.nextFreePage) = min s.nextFreePage (ptr.toNat / pageSize) := by
    split <;> omega
  simp only [freeMemory, hp, h, hf, hmin, if_false, if_true, Option.isNone_some,
    Bool.false_eq_true]

end MiniKernel.Memory
