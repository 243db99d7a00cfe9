import Mathlib.Data.List.Nodup
import MiniKernel.Memory.Optimized

/-! The small-object pool of `memory_management_optimized.c`: 16 KiB carved into blocks,
each a 12-byte `small_alloc_block_t` header followed by its payload, linked through
`next` from `small_alloc_list`. Requests up to 256 bytes are rounded up to 8 and served
first fit, splitting off the rest of a block when more than a header and 16 bytes remain;
a free marks the block unused and merges it with the next block if that one is unused.

The pool memory is modelled by the header stored at each offset (`Pool.headers`), the
address of `small_alloc_pool` by a parameter `poolBase`, and pointers by `BitVec 32`.
The abstract pool is the list of blocks laid end to end (`layout`); `Tiled` says the
headers describe such a list that fills the pool, and `Tiled.replace` is the one frame
lemma each call uses. `smallPool_tiles` shows that after every call of a run of small
requests and frees of live allocations the pool is tiled from offset 0 to its end and the
live allocations are disjoint;
`free_order_matters` shows that the state after freeing everything depends on the order
of the frees. -/

namespace MiniKernel.SmallPool

open Memory Optimized

def smallAllocPoolSize : Nat := 16384
def smallAllocMaxSize : Nat := 256

/-- `sizeof (small_alloc_block_t)` on the 32-bit target: two `uint32_t` and a pointer. -/
def headerSize : Nat := 12

/-- `small_alloc_block_t`; `next` is the pool offset of the next header, `none` for
`NULL`. -/
structure Block where
  size : Nat
  used : Bool
  next : Option Nat
  deriving DecidableEq

/-- `small_alloc_pool` (the header at each offset), `small_alloc_list` as an offset, and
`small_alloc_initialized`. -/
structure Pool where
  headers : Nat → Block
  list : Option Nat
  initialized : Bool

/-- The zeroed statics before any call. -/
def Pool.zero : Pool := ⟨fun _ => ⟨0, false, none⟩, none, false⟩

/-- `init_small_alloc_pool`: one free block over the whole pool. -/
def initSmallAllocPool (p : Pool) : Pool :=
  if p.initialized then p
  else ⟨setAt p.headers 0 ⟨smallAllocPoolSize - headerSize, false, none⟩, some 0, true⟩

/-- The first-fit loop: the first unused block from `cur` whose size is at least `size`.
It follows `next` at most `fuel` times; a list that tiles the pool has fewer blocks than
the pool has bytes. -/
def firstFit (h : Nat → Block) (size : Nat) : Nat → Option Nat → Option Nat
  | 0, _ => none
  | _ + 1, none => none
  | fuel + 1, some o =>
    if !(h o).used ∧ size ≤ (h o).size then some o else firstFit h size fuel (h o).next

/-- `size = (size + 7) & ~7` on a 32-bit `size_t`. -/
def alignSize (size : BitVec 32) : Nat := ((size + 7) &&& ~~~7).toNat

/-- The pool path of `optimized_allocate_small_memory` on an aligned size: take the first
fit, split off the rest when more than a header and 16 bytes remain, mark it used and
return the address of its payload. -/
def allocateFromPool (poolBase : Nat) (p : Pool) (size : Nat) : BitVec 32 × Pool :=
  match firstFit p.headers size smallAllocPoolSize p.list with
  | none => (0, p)
  | some o =>
    let b := p.headers o
    let headers :=
      if b.size > size + headerSize + 16 then
        let newBlock := o + headerSize + size
        setAt (setAt p.headers newBlock ⟨b.size - size - headerSize, false, b.next⟩) o
          ⟨size, true, some newBlock⟩
      else setAt p.headers o { b with used := true }
    (BitVec.ofNat 32 (poolBase + o + headerSize), { p with headers := headers })

/-- The statics of the file: the page allocator and the pool. -/
structure Statics where
  pages : OptState
  pool : Pool

/-- `optimized_allocate_small_memory (size)`; larger requests take a whole page. -/
def optimizedAllocateSmallMemory (poolBase : Nat) (st : Statics) (size : BitVec 32) :
    BitVec 32 × Statics :=
  if size.toNat > smallAllocMaxSize then
    let r := optimizedAllocateMemory st.pages (BitVec.ofNat 32 pageSize)
    (r.1, { st with pages := r.2 })
  else
    let r := allocateFromPool poolBase (initSmallAllocPool st.pool) (alignSize size)
    (r.1, { st with pool := r.2 })

/-- The pool path of `optimized_free_small_memory` on the header at offset `o`: mark it
unused and merge the next block into it if that one is unused. -/
def releaseBlock (p : Pool) (o : Nat) : Pool :=
  let h := setAt p.headers o { p.headers o with used := false }
  let b := h o
  let h := match b.next with
    | some n =>
      if !(h n).used then
        setAt h o { b with size := b.size + headerSize + (h n).size, next := (h n).next }
      else h
    | none => h
  { p with headers := h }

/-- `optimized_free_small_memory (ptr)`: pointers whose header would lie outside the pool
are ignored. -/
def optimizedFreeSmallMemory (poolBase : Nat) (st : Statics) (ptr : BitVec 32) : Statics :=
  if ptr = 0 then st
  else
    let block := (ptr - BitVec.ofNat 32 headerSize).toNat
    if block < poolBase ∨ poolBase + smallAllocPoolSize ≤ block then st
    else { st with pool := releaseBlock st.pool (block - poolBase) }

/-! ## The blocks laid end to end -/

/-- The bytes of a list of blocks (size and use each): their headers and payloads. -/
def span : List (Nat × Bool) → Nat
  | [] => 0
  | (sz, _) :: bs => headerSize + sz + span bs

/-- The blocks `bs` laid end to end from offset `o`: each block's offset, size and use. -/
def layout : Nat → List (Nat × Bool) → List (Nat × Nat × Bool)
  | _, [] => []
  | o, (sz, u) :: bs => (o, sz, u) :: layout (o + headerSize + sz) bs

/-- The `next` of a block whose payload ends at `e`: the block after it, or `NULL` at the
end of the pool. -/
def nextAt (e : Nat) : Option Nat := if e = smallAllocPoolSize then none else some e

/-- The header of a laid-out block. -/
def header (e : Nat × Nat × Bool) : Block := ⟨e.2.1, e.2.2, nextAt (e.1 + headerSize + e.2.1)⟩

/-- The headers describe the blocks `bs`, which fill the pool from offset 0. -/
def Tiled (h : Nat → Block) (bs : List (Nat × Bool)) : Prop :=
  span bs = smallAllocPoolSize ∧ ∀ e ∈ layout 0 bs, h e.1 = header e

/-- The blocks met following `next` from `cur`, at most `fuel` of them. -/
def blockList (h : Nat → Block) : Nat → Option Nat → List (Nat × Nat × Bool)
  | 0, _ => []
  | _ + 1, none => []
  | fuel + 1, some o => (o, (h o).size, (h o).used) :: blockList h fuel (h o).next

@[simp] theorem span_append (l₁ l₂ : List (Nat × Bool)) : span (l₁ ++ l₂) = span l₁ + span l₂ := by
  induction l₁ with
  | nil => simp [span]
  | cons b l ih =>
    obtain ⟨sz, u⟩ := b
    rw [List.cons_append, span, span, ih]; omega

theorem layout_append (o : Nat) (l₁ l₂ : List (Nat × Bool)) :
    layout o (l₁ ++ l₂) = layout o l₁ ++ layout (o + span l₁) l₂ := by
  induction l₁ generalizing o with
  | nil => simp [layout, span]
  | cons b l ih =>
    obtain ⟨sz, u⟩ := b
    rw [List.cons_append, layout, layout, ih, span, List.cons_append,
      show o + headerSize + sz + span l = o + (headerSize + sz + span l) by omega]

theorem mem_layout_bounds {o : Nat} {bs : List (Nat × Bool)} {e : Nat × Nat × Bool}
    (he : e ∈ layout o bs) : o ≤ e.1 ∧ e.1 + headerSize + e.2.1 ≤ o + span bs := by
  induction bs generalizing o with
  | nil => simp [layout] at he
  | cons b bs ih =>
    obtain ⟨sz, u⟩ := b
    simp only [layout, List.mem_cons] at he
    rcases he with rfl | he
    · simp only [span]; omega
    · have := ih he; simp only [span]; omega

/-- A laid-out block sits between the blocks before it and those after it. -/
theorem mem_layout_iff {o : Nat} {bs : List (Nat × Bool)} {e : Nat × Nat × Bool} :
    e ∈ layout o bs ↔ ∃ pre post, bs = pre ++ (e.2.1, e.2.2) :: post ∧ e.1 = o + span pre := by
  constructor
  · intro he
    induction bs generalizing o with
    | nil => simp [layout] at he
    | cons b bs ih =>
      obtain ⟨sz, u⟩ := b
      simp only [layout, List.mem_cons] at he
      rcases he with rfl | he
      · exact ⟨[], bs, rfl, by simp [span]⟩
      · obtain ⟨pre, post, rfl, h⟩ := ih he
        exact ⟨(sz, u) :: pre, post, rfl, by simp only [span]; omega⟩
  · rintro ⟨pre, post, rfl, h⟩
    rw [layout_append, List.mem_append, layout]
    exact .inr (List.mem_cons.2 (.inl (by rw [← h])))

/-- Two blocks of one layout at different offsets do not overlap. -/
theorem layout_disjoint {o : Nat} {bs : List (Nat × Bool)} {e e' : Nat × Nat × Bool}
    (he : e ∈ layout o bs) (he' : e' ∈ layout o bs) (hne : e.1 ≠ e'.1) :
    e.1 + headerSize + e.2.1 ≤ e'.1 ∨ e'.1 + headerSize + e'.2.1 ≤ e.1 := by
  induction bs generalizing o with
  | nil => simp [layout] at he
  | cons b bs ih =>
    obtain ⟨sz, u⟩ := b
    simp only [layout, List.mem_cons] at he he'
    rcases he with rfl | he <;> rcases he' with rfl | he'
    · exact absurd rfl hne
    · exact .inl (mem_layout_bounds he').1
    · exact .inr (mem_layout_bounds he).1
    · exact ih he he'

theorem length_le_span (bs : List (Nat × Bool)) : bs.length ≤ span bs := by
  induction bs with
  | nil => simp [span]
  | cons b bs ih => simp only [List.length_cons, span, headerSize]; omega

theorem mem_layout_append3 {pre mid post : List (Nat × Bool)} {e : Nat × Nat × Bool} :
    e ∈ layout 0 (pre ++ mid ++ post) ↔
      e ∈ layout 0 pre ∨ e ∈ layout (span pre) mid ∨ e ∈ layout (span pre + span mid) post := by
  simp only [layout_append, span_append, List.mem_append, or_assoc, Nat.zero_add]

/-- The offsets of a layout grow, so an offset names at most one block. -/
theorem eq_of_mem_layout {o : Nat} {bs : List (Nat × Bool)} {e e' : Nat × Nat × Bool}
    (he : e ∈ layout o bs) (he' : e' ∈ layout o bs) (h : e.1 = e'.1) : e = e' := by
  induction bs generalizing o with
  | nil => simp [layout] at he
  | cons b bs ih =>
    obtain ⟨sz, u⟩ := b
    simp only [layout, List.mem_cons] at he he'
    rcases he with rfl | he <;> rcases he' with rfl | he'
    · rfl
    · have := (mem_layout_bounds he').1; rw [headerSize] at this; simp only at h; omega
    · have := (mem_layout_bounds he).1; rw [headerSize] at this; simp only at h; omega
    · exact ih he he'

theorem mem_layout_mem {o : Nat} {bs : List (Nat × Bool)} {e : Nat × Nat × Bool}
    (he : e ∈ layout o bs) : (e.2.1, e.2.2) ∈ bs := by
  obtain ⟨pre, post, rfl, -⟩ := mem_layout_iff.1 he
  simp

/-- Replacing a stretch of blocks by one of the same span keeps every block outside it. -/
theorem mem_layout_of_replace {pre mid mid' post : List (Nat × Bool)} {e : Nat × Nat × Bool}
    (hspan : span mid' = span mid) (he : e ∈ layout 0 (pre ++ mid ++ post))
    (hmid : e ∉ layout (span pre) mid) : e ∈ layout 0 (pre ++ mid' ++ post) := by
  rcases mem_layout_append3.1 he with he | he | he
  · exact mem_layout_append3.2 (.inl he)
  · exact absurd he hmid
  · exact mem_layout_append3.2 (.inr (.inr (by rwa [hspan])))

/-- The one frame lemma of the pool: headers that are unchanged outside a stretch of the
blocks and describe a replacement of the same span inside it tile the pool with that
stretch replaced. -/
theorem Tiled.replace {h h' : Nat → Block} {pre mid mid' post : List (Nat × Bool)}
    (ht : Tiled h (pre ++ mid ++ post)) (hspan : span mid' = span mid)
    (hout : ∀ y, y < span pre ∨ span pre + span mid ≤ y → h' y = h y)
    (hmid : ∀ e ∈ layout (span pre) mid', h' e.1 = header e) :
    Tiled h' (pre ++ mid' ++ post) := by
  obtain ⟨hs, hh⟩ := ht
  refine ⟨by simpa only [span_append, hspan] using hs, fun e he => ?_⟩
  rcases mem_layout_append3.1 he with he' | he' | he'
  · have := (mem_layout_bounds he').2
    rw [hout _ (.inl (by rw [headerSize] at this; omega))]
    exact hh e (mem_layout_append3.2 (.inl he'))
  · exact hmid e he'
  · rw [hout _ (.inr (hspan ▸ (mem_layout_bounds he').1))]
    exact hh e (mem_layout_append3.2 (.inr (.inr (hspan ▸ he'))))

/-- The header of a block of a tiling, and where the blocks from it on end. -/
theorem Tiled.at {h : Nat → Block} {pre post : List (Nat × Bool)} {sz : Nat} {u : Bool}
    (ht : Tiled h (pre ++ (sz, u) :: post)) :
    h (span pre) = ⟨sz, u, nextAt (span pre + headerSize + sz)⟩ ∧
      span pre + headerSize + sz + span post = smallAllocPoolSize := by
  refine ⟨ht.2 (span pre, sz, u) (mem_layout_iff.2 ⟨pre, post, rfl, (Nat.zero_add _).symm⟩), ?_⟩
  have := ht.1
  rw [span_append, span] at this
  omega

/-- Rewriting the use flag of one block of a tiling. -/
theorem Tiled.setUsed {h : Nat → Block} {pre post : List (Nat × Bool)} {sz : Nat} {u : Bool}
    (u' : Bool) (ht : Tiled h (pre ++ [(sz, u)] ++ post)) :
    Tiled (setAt h (span pre) ⟨sz, u', nextAt (span pre + headerSize + sz)⟩)
      (pre ++ [(sz, u')] ++ post) :=
  ht.replace rfl (fun y hy => setAt_ne _ _ (by simp only [span, headerSize] at hy; omega))
    fun e he => by simp only [layout, List.mem_singleton] at he; subst he; exact setAt_same ..

theorem mk_eq_header {x sz sz' e : Nat} {u : Bool} (hs : sz = sz')
    (he : e = x + headerSize + sz') : (⟨sz, u, nextAt e⟩ : Block) = header (x, sz', u) := by
  subst hs he; rfl

theorem nextAt_of_lt {o : Nat} (h : o < smallAllocPoolSize) : nextAt o = some o :=
  if_neg (Nat.ne_of_lt h)

@[simp] theorem nextAt_poolSize : nextAt smallAllocPoolSize = none := if_pos rfl

/-! ## Walking the list -/

section Walk

variable {h : Nat → Block} {o fuel : Nat} {bs : List (Nat × Bool)}

/-- Following {next} from the first of the blocks laid from {o} to the end of the pool meets
exactly those blocks. -/
theorem blockList_layout (hs : o + span bs = smallAllocPoolSize)
    (hh : ∀ e ∈ layout o bs, h e.1 = header e) (hf : bs.length ≤ fuel) :
    blockList h fuel (nextAt o) = layout o bs := by
  induction bs generalizing o fuel with
  | nil =>
    rw [span, Nat.add_zero] at hs
    subst hs
    cases fuel <;> simp [blockList, layout]
  | cons b bs ih =>
    obtain ⟨sz, u⟩ := b
    cases fuel with
    | zero => simp at hf
    | succ fuel =>
      rw [span] at hs
      have hho : h o = header (o, sz, u) := hh _ (List.mem_cons_self _ _)
      rw [nextAt_of_lt (by rw [headerSize] at hs; omega), blockList, layout, hho]
      dsimp only [header]
      rw [ih (by omega) (fun e he => hh e (List.mem_cons_of_mem _ he)) (by simpa using hf)]

/-- First fit over such headers is the first unused block of the layout that is large
enough. -/
theorem firstFit_layout (size : Nat) (hs : o + span bs = smallAllocPoolSize)
    (hh : ∀ e ∈ layout o bs, h e.1 = header e) (hf : bs.length ≤ fuel) :
    firstFit h size fuel (nextAt o) =
      ((layout o bs).find? fun e => !e.2.2 && decide (size ≤ e.2.1)).map Prod.fst := by
  induction bs generalizing o fuel with
  | nil =>
    rw [span, Nat.add_zero] at hs
    subst hs
    cases fuel <;> simp [firstFit, layout]
  | cons b bs ih =>
    obtain ⟨sz, u⟩ := b
    cases fuel with
    | zero => simp at hf
    | succ fuel =>
      rw [span] at hs
      have hho : h o = header (o, sz, u) := hh _ (List.mem_cons_self _ _)
      have ih := ih (by omega) (fun e he => hh e (List.mem_cons_of_mem _ he))
        (by simpa using hf)
      rw [nextAt_of_lt (by rw [headerSize] at hs; omega), firstFit, layout, List.find?_cons,
        hho]
      cases u <;> by_cases hsz : size ≤ sz <;> simp [header, hsz, ih]

end Walk

/-! ## What each call does to a tiling -/

@[simp] theorem allocateFromPool_list (poolBase : Nat) (p : Pool) (size : Nat) :
    (allocateFromPool poolBase p size).2.list = p.list := by
  unfold allocateFromPool; split <;> rfl

@[simp] theorem allocateFromPool_initialized (poolBase : Nat) (p : Pool) (size : Nat) :
    (allocateFromPool poolBase p size).2.initialized = p.initialized := by
  unfold allocateFromPool; split <;> rfl

@[simp] theorem releaseBlock_list (p : Pool) (o : Nat) : (releaseBlock p o).list = p.list := rfl

@[simp] theorem releaseBlock_initialized (p : Pool) (o : Nat) :
    (releaseBlock p o).initialized = p.initialized := rfl

section Calls

variable {p : Pool} {bs : List (Nat × Bool)}

/-- A pool request on tiling headers fails and changes nothing, or takes the first fit
{(span pre, sz, false)}: that block becomes a used block of at least {size} bytes,
followed by a free rest when it is split, and the address of its payload is returned. -/
theorem allocateFromPool_spec (poolBase size : Nat) (ht : Tiled p.headers bs)
    (hl : p.list = some 0) :
    allocateFromPool poolBase p size = (0, p) ∨
    ∃ pre sz post sz' rest, bs = pre ++ (sz, false) :: post ∧ size ≤ sz' ∧
      (∀ e ∈ rest, e.2 = false) ∧
      (allocateFromPool poolBase p size).1 = BitVec.ofNat 32 (poolBase + span pre + headerSize) ∧
      Tiled (allocateFromPool poolBase p size).2.headers (pre ++ (sz', true) :: rest ++ post) := by
  have hff : firstFit p.headers size smallAllocPoolSize (nextAt 0) = _ :=
    firstFit_layout size ((Nat.zero_add _).trans ht.1) ht.2 (ht.1 ▸ length_le_span bs)
  unfold allocateFromPool
  rw [hl, show some 0 = nextAt 0 from rfl, hff]
  cases hfind : (layout 0 bs).find? (fun e => !e.2.2 && decide (size ≤ e.2.1)) with
  | none => exact .inl rfl
  | some e =>
    right
    obtain ⟨pre, post, hbs, hx⟩ := mem_layout_iff.1 (List.mem_of_find?_eq_some hfind)
    have hP := List.find?_some hfind
    obtain ⟨x, sz, u⟩ := e
    simp only [Bool.and_eq_true, Bool.not_eq_true', decide_eq_true_eq] at hP hbs hx
    obtain ⟨rfl, hsz⟩ := hP
    obtain rfl : x = span pre := by omega
    have ht' : Tiled p.headers (pre ++ [(sz, false)] ++ post) := by
      simpa only [hbs, List.append_assoc, List.singleton_append] using ht
    obtain ⟨hat, hend⟩ := Tiled.at (hbs ▸ ht)
    have h12 : headerSize = 12 := rfl
    simp only [Option.map_some', hat]
    by_cases hsplit : sz > size + headerSize + 16
    · refine ⟨pre, sz, post, size, [(sz - size - headerSize, false)], hbs, Nat.le_refl _,
        by simp, by simp only [if_pos hsplit], ?_⟩
      simp only [if_pos hsplit]
      refine ht'.replace (by simp only [span]; omega) (fun y hy => ?_) fun e he => ?_
      · simp only [span] at hy
        rw [setAt_ne _ _ (by omega), setAt_ne _ _ (by omega)]
      · simp only [layout, List.mem_cons, List.not_mem_nil, or_false] at he
        rcases he with rfl | rfl
        · rw [setAt_same, header, nextAt_of_lt (by simp only [smallAllocPoolSize] at hend ⊢; omega)]
        · rw [setAt_ne _ _ (by omega), setAt_same]
          exact mk_eq_header rfl (by omega)
    · refine ⟨pre, sz, post, sz, [], hbs, hsz, by simp, by simp only [if_neg hsplit], ?_⟩
      simp only [if_neg hsplit]
      exact ht'.setUsed true

/-- Releasing the used block {(span pre, sz, true)} of tiling headers frees it and merges
into it the block after it when that one is free: the blocks {free} it swallows (none,
or that one) are free. -/
theorem releaseBlock_spec {pre post : List (Nat × Bool)} {sz : Nat}
    (ht : Tiled p.headers (pre ++ (sz, true) :: post)) :
    ∃ free rest, post = free ++ rest ∧ (∀ e ∈ free, e.2 = false) ∧
      Tiled (releaseBlock p (span pre)).headers (pre ++ [(sz + span free, false)] ++ rest) := by
  obtain ⟨hat, hend⟩ := Tiled.at ht
  have h12 : headerSize = 12 := rfl
  have ht' : Tiled p.headers (pre ++ [(sz, true)] ++ post) := by
    simpa only [List.append_assoc, List.singleton_append] using ht
  simp only [releaseBlock, setAt_same, hat]
  cases post with
  | nil =>
    have hlast : span pre + headerSize + sz = smallAllocPoolSize := by
      simp only [span] at hend; omega
    refine ⟨[], [], rfl, by simp, ?_⟩
    have := ht'.setUsed false
    rwa [hlast, nextAt_poolSize] at this ⊢
  | cons b post =>
    obtain ⟨sz2, u2⟩ := b
    have hnext : p.headers (span pre + headerSize + sz) =
        ⟨sz2, u2, nextAt (span pre + headerSize + sz + headerSize + sz2)⟩ := by
      have ht2 : Tiled p.headers (pre ++ [(sz, true)] ++ (sz2, u2) :: post) := by
        simpa only [List.append_assoc, List.singleton_append] using ht
      have := (Tiled.at ht2).1
      simpa only [span_append, span, Nat.add_zero, ← Nat.add_assoc] using this
    simp only [span] at hend
    rw [nextAt_of_lt (by omega)]
    dsimp only
    rw [setAt_ne _ _ (by omega), hnext]
    dsimp only
    cases u2
    · refine ⟨[(sz2, false)], post, rfl, by simp, ?_⟩
      rw [Bool.not_false, if_pos rfl]
      have ht'' : Tiled p.headers (pre ++ [(sz, true), (sz2, false)] ++ post) := by
        simpa only [List.append_assoc, List.cons_append, List.singleton_append] using ht
      refine ht''.replace (by simp only [span]; omega) (fun y hy => ?_) fun e he => ?_
      · simp only [span] at hy
        rw [setAt_ne _ _ (by omega), setAt_ne _ _ (by omega)]
      · simp only [layout, List.mem_singleton] at he
        subst he
        rw [setAt_same]
        exact mk_eq_header (by simp only [span]; omega) (by simp only [span]; omega)
    · refine ⟨[], (sz2, true) :: post, rfl, by simp, ?_⟩
      rw [Bool.not_true, if_neg Bool.false_ne_true]
      have := ht'.setUsed false
      rwa [nextAt_of_lt (by omega)] at this

end Calls

/-- Below {SMALL_ALLOC_MAX_SIZE} the mask rounds up to a multiple of 8. -/
theorem alignSize_eq {size : BitVec 32} (h : size.toNat ≤ smallAllocMaxSize) :
    alignSize size = (size.toNat + 7) / 8 * 8 := by
  simp only [smallAllocMaxSize] at h
  have ht : (size + 7).toNat = 2 ^ 3 * ((size.toNat + 7) / 8) + (size.toNat + 7) % 8 := by
    rw [BitVec.toNat_add]; simp; omega
  have hq : (size.toNat + 7) / 8 < 2 ^ 29 := by omega
  rw [alignSize, BitVec.toNat_and, BitVec.toNat_not, ht, Nat.mul_comm ((size.toNat + 7) / 8) 8]
  show _ = 2 ^ 3 * ((size.toNat + 7) / 8)
  apply Nat.eq_of_testBit_eq
  intro j
  rw [Nat.testBit_and, Nat.testBit_mul_pow_two_add _ (Nat.mod_lt _ (by decide)),
    show 2 ^ 32 - 1 - (7 : BitVec 32).toNat = 2 ^ 3 * (2 ^ 29 - 1) + 0 from rfl,
    Nat.testBit_mul_pow_two_add _ (by decide), Nat.testBit_mul_pow_two]
  by_cases hj : j < 3
  · rw [if_pos hj, if_pos hj, Nat.zero_testBit, Bool.and_false, decide_eq_false (by omega),
      Bool.false_and]
  · rw [if_neg hj, if_neg hj, Nat.testBit_two_pow_sub_one, decide_eq_true (by omega : j ≥ 3),
      Bool.true_and]
    by_cases hj' : j - 3 < 29
    · rw [decide_eq_true hj', Bool.and_true]
    · rw [decide_eq_false hj', Bool.and_false, Nat.testBit_lt_two_pow
        (Nat.lt_of_lt_of_le hq (Nat.pow_le_pow_right (by decide) (by omega)))]

/-- Freeing the payload address of the block at offset {x} releases that block. -/
theorem optimizedFreeSmallMemory_payload {poolBase x : Nat} {st : Statics} {ptr : BitVec 32}
    (hfit : poolBase + smallAllocPoolSize < 2 ^ 32) (hx : x < smallAllocPoolSize)
    (hptr : ptr.toNat = poolBase + x + headerSize) :
    optimizedFreeSmallMemory poolBase st ptr = { st with pool := releaseBlock st.pool x } := by
  have h12 : headerSize = 12 := rfl
  have hne : ptr ≠ 0 := fun h => by subst h; simp at hptr; omega
  have hb : (ptr - BitVec.ofNat 32 headerSize).toNat = poolBase + x := by
    rw [BitVec.toNat_sub, hptr]; simp [h12, smallAllocPoolSize] at hfit hx ⊢; omega
  simp only [optimizedFreeSmallMemory, if_neg hne, hb]
  rw [if_neg (by omega), Nat.add_sub_cancel_left]

/-! ## Runs of small requests and frees -/

/-- Live allocation {a} (its address and the size requested) is the payload of a used
block of the layout of {bs}, with room for the request. -/
def Serves (poolBase : Nat) (bs : List (Nat × Bool)) (a : BitVec 32 × Nat) : Prop :=
  ∃ x sz, (x, sz, true) ∈ layout 0 bs ∧ a.1.toNat = poolBase + x + headerSize ∧ a.2 ≤ sz

/-- The pool once initialized: its list starts at offset 0, its headers tile it as the
blocks {bs}, and each live allocation is served by its own used block. -/
structure PoolInv (poolBase : Nat) (p : Pool) (live : List (BitVec 32 × Nat))
    (bs : List (Nat × Bool)) : Prop where
  initialized : p.initialized = true
  list : p.list = some 0
  tiled : Tiled p.headers bs
  serves : ∀ a ∈ live, Serves poolBase bs a
  nodup : (live.map Prod.fst).Nodup

theorem poolInv_init (poolBase : Nat) :
    PoolInv poolBase (initSmallAllocPool Pool.zero) [] [(smallAllocPoolSize - headerSize, false)] :=
  ⟨rfl, rfl, ⟨by decide, by decide⟩, by simp, List.nodup_nil⟩

section Preservation

variable {poolBase : Nat} {p : Pool} {live : List (BitVec 32 × Nat)} {bs : List (Nat × Bool)}

theorem PoolInv.allocate (hfit : poolBase + smallAllocPoolSize < 2 ^ 32)
    (hi : PoolInv poolBase p live bs) {size n : Nat} (hn : n ≤ size) :
    let r := allocateFromPool poolBase p size
    ∃ bs', PoolInv poolBase r.2 (if r.1 = 0 then live else (r.1, n) :: live) bs' := by
  rcases allocateFromPool_spec poolBase size hi.tiled hi.list with
    h0 | ⟨pre, sz, post, sz', rest, rfl, hsz', -, hptr, ht'⟩
  · simp only [h0, if_pos]; exact ⟨bs, hi⟩
  have h12 : headerSize = 12 := rfl
  have hend := (Tiled.at hi.tiled).2
  have hspan : span ((sz', true) :: rest) = span [(sz, false)] := by
    have h1 := ht'.1; have h2 := hi.tiled.1
    simp only [span_append, span] at h1 h2 ⊢; omega
  have hptr' : (allocateFromPool poolBase p size).1.toNat = poolBase + span pre + headerSize := by
    rw [hptr, BitVec.toNat_ofNat]
    apply Nat.mod_eq_of_lt
    simp only [span, smallAllocPoolSize] at hend hfit; omega
  have hne : (allocateFromPool poolBase p size).1 ≠ 0 := fun h => by
    rw [h] at hptr'; simp at hptr'; omega
  dsimp only
  rw [if_neg hne]
  refine ⟨_, ⟨by simp [hi.initialized], by simp [hi.list], ht', fun a ha => ?_, ?_⟩⟩
  · rcases List.mem_cons.1 ha with rfl | ha
    · exact ⟨span pre, sz', mem_layout_iff.2 ⟨pre, rest ++ post, by simp, by simp⟩, hptr',
        Nat.le_trans hn hsz'⟩
    · obtain ⟨x, szx, hx, hax, hsx⟩ := hi.serves a ha
      refine ⟨x, szx, mem_layout_of_replace hspan
        (show (x, szx, true) ∈ layout 0 (pre ++ [(sz, false)] ++ post) by
          rwa [List.append_assoc, List.singleton_append]) (by simp [layout]), hax, hsx⟩
  · refine List.nodup_cons.2 ⟨fun hmem => ?_, hi.nodup⟩
    obtain ⟨a, ha, hfst⟩ := List.mem_map.1 hmem
    obtain ⟨x, szx, hx, hax, -⟩ := hi.serves a ha
    obtain rfl : x = span pre := by rw [hfst, hptr'] at hax; omega
    have := eq_of_mem_layout hx (mem_layout_iff.2 ⟨pre, post, rfl, by simp⟩ :
      (span pre, sz, false) ∈ layout 0 (pre ++ (sz, false) :: post)) rfl
    simp at this

theorem PoolInv.free (hfit : poolBase + smallAllocPoolSize < 2 ^ 32) {st : Statics}
    (hi : PoolInv poolBase st.pool live bs) {a : BitVec 32 × Nat} (ha : a ∈ live) :
    ∃ bs', PoolInv poolBase (optimizedFreeSmallMemory poolBase st a.1).pool (live.erase a) bs' := by
  obtain ⟨x, sz, hx, hax, -⟩ := hi.serves a ha
  obtain ⟨pre, post, rfl, hxpre⟩ := mem_layout_iff.1 hx
  obtain rfl : x = span pre := by simpa using hxpre
  have hend := (Tiled.at hi.tiled).2
  rw [optimizedFreeSmallMemory_payload hfit (by simp only [headerSize] at hend; omega) hax]
  obtain ⟨free, rest, rfl, hfree, ht'⟩ := releaseBlock_spec hi.tiled
  have hlive : live.Nodup := hi.nodup.of_map _
  refine ⟨_, ⟨hi.initialized, hi.list, ht', fun b hb => ?_,
    hi.nodup.sublist ((List.erase_sublist _ _).map _)⟩⟩
  obtain ⟨hba, hb⟩ := hlive.mem_erase_iff.1 hb
  obtain ⟨y, szy, hy, hby, hsy⟩ := hi.serves b hb
  have hyx : y ≠ span pre := fun hyx => hba (List.inj_on_of_nodup_map hi.nodup hb ha
    (BitVec.eq_of_toNat_eq (by rw [hby, hax, hyx])))
  refine ⟨y, szy, mem_layout_of_replace (by simp only [span]; omega)
    (show (y, szy, true) ∈ layout 0 (pre ++ (sz, true) :: free ++ rest) by
      rwa [List.append_assoc, List.cons_append]) fun hm => ?_, hby, hsy⟩
  simp only [layout, List.mem_cons] at hm
  rcases hm with h | h
  · exact hyx (congrArg Prod.fst h)
  · simpa using hfree _ (mem_layout_mem h)

theorem Serves.bounds (ht : Tiled p.headers bs) {a : BitVec 32 × Nat}
    (hs : Serves poolBase bs a) :
    poolBase + headerSize ≤ a.1.toNat ∧ a.1.toNat + a.2 ≤ poolBase + smallAllocPoolSize := by
  obtain ⟨x, sz, hx, hax, hsz⟩ := hs
  have := (mem_layout_bounds hx).2
  rw [ht.1] at this
  simp only [Nat.zero_add] at this
  omega

theorem Serves.disjoint {a b : BitVec 32 × Nat} (ha : Serves poolBase bs a)
    (hb : Serves poolBase bs b) (hne : a.1 ≠ b.1) :
    a.1.toNat + a.2 ≤ b.1.toNat ∨ b.1.toNat + b.2 ≤ a.1.toNat := by
  obtain ⟨x, sz, hx, hax, hsz⟩ := ha
  obtain ⟨y, sz', hy, hby, hsz'⟩ := hb
  have := layout_disjoint hx hy fun (h : x = y) => hne (BitVec.eq_of_toNat_eq (by rw [hax, hby, h]))
  simp only [headerSize] at this hax hby
  omega

theorem PoolInv.blockList (hi : PoolInv poolBase p live bs) :
    blockList p.headers smallAllocPoolSize p.list = layout 0 bs := by
  rw [hi.list]
  exact blockList_layout ((Nat.zero_add _).trans hi.tiled.1) hi.tiled.2
    (hi.tiled.1 ▸ length_le_span bs)

theorem PoolInv.pairwise (hi : PoolInv poolBase p live bs) :
    live.Pairwise fun a b => a.1 ≠ b.1 ∧
      (a.1.toNat + a.2 ≤ b.1.toNat ∨ b.1.toNat + b.2 ≤ a.1.toNat) :=
  (List.pairwise_map.1 hi.nodup).imp_of_mem fun ha hb hne =>
    ⟨hne, (hi.serves _ ha).disjoint (hi.serves _ hb) hne⟩

/-- A request of at most {SMALL_ALLOC_MAX_SIZE} bytes keeps the invariant that
{init_small_alloc_pool} gives or finds. -/
theorem PoolInv.allocateSmall (hfit : poolBase + smallAllocPoolSize < 2 ^ 32) {st : Statics}
    (hi : PoolInv poolBase (initSmallAllocPool st.pool) live bs) {size : BitVec 32}
    (hsize : size.toNat ≤ smallAllocMaxSize) :
    let r := optimizedAllocateSmallMemory poolBase st size
    ∃ bs', PoolInv poolBase r.2.pool (if r.1 = 0 then live else (r.1, size.toNat) :: live) bs' := by
  have halign := alignSize_eq hsize
  simp only [smallAllocMaxSize] at hsize
  rw [optimizedAllocateSmallMemory, if_neg (by simp only [smallAllocMaxSize]; omega)]
  exact hi.allocate hfit (by omega)

end Preservation

/-- The runs the pool is specified for: requests of at most {SMALL_ALLOC_MAX_SIZE} bytes,
frees of an address that an earlier request returned and that has not been freed since,
and frees of {NULL}. A run starts with its first request, before which no free has an
address to free. {live} holds each address returned and not freed since, with the size
requested. -/
inductive SmallRun (poolBase : Nat) : Statics → List (BitVec 32 × Nat) → Prop
  | first (pages : OptState) (size : BitVec 32) (hsize : size.toNat ≤ smallAllocMaxSize) :
      SmallRun poolBase (optimizedAllocateSmallMemory poolBase ⟨pages, Pool.zero⟩ size).2
        (if (optimizedAllocateSmallMemory poolBase ⟨pages, Pool.zero⟩ size).1 = 0 then []
         else [((optimizedAllocateSmallMemory poolBase ⟨pages, Pool.zero⟩ size).1, size.toNat)])
  | allocate {st live} (size : BitVec 32) (hsize : size.toNat ≤ smallAllocMaxSize) :
      SmallRun poolBase st live →
      SmallRun poolBase (optimizedAllocateSmallMemory poolBase st size).2
        (if (optimizedAllocateSmallMemory poolBase st size).1 = 0 then live
         else ((optimizedAllocateSmallMemory poolBase st size).1, size.toNat) :: live)
  | free {st live} (a : BitVec 32 × Nat) (ha : a ∈ live) : SmallRun poolBase st live →
      SmallRun poolBase (optimizedFreeSmallMemory poolBase st a.1) (live.erase a)
  | freeNull {st live} : SmallRun poolBase st live →
      SmallRun poolBase (optimizedFreeSmallMemory poolBase st 0) live

/-- After every call of a run the pool is initialized with its invariant. -/
theorem SmallRun.inv {poolBase : Nat} {st : Statics} {live : List (BitVec 32 × Nat)}
    (hfit : poolBase + smallAllocPoolSize < 2 ^ 32) (hr : SmallRun poolBase st live) :
    ∃ bs, PoolInv poolBase st.pool live bs := by
  induction hr with
  | first pages size hsize => exact PoolInv.allocateSmall hfit (poolInv_init poolBase) hsize
  | @allocate st live size hsize _ ih =>
    obtain ⟨bs, hi⟩ := ih
    exact PoolInv.allocateSmall hfit (by rwa [initSmallAllocPool, if_pos hi.initialized]) hsize
  | free a ha _ ih =>
    obtain ⟨bs, hi⟩ := ih
    exact hi.free hfit ha
  | freeNull _ ih => rwa [optimizedFreeSmallMemory, if_pos rfl]

theorem smallPool_tiles {poolBase : Nat} {st : Statics} {live : List (BitVec 32 × Nat)}
    (hfit : poolBase + smallAllocPoolSize < 2 ^ 32) (hr : SmallRun poolBase st live) :
    ∃ bs, st.pool.list = some 0 ∧ Tiled st.pool.headers bs ∧
      blockList st.pool.headers smallAllocPoolSize st.pool.list = layout 0 bs ∧
      (∀ a ∈ live, Serves poolBase bs a ∧ poolBase + headerSize ≤ a.1.toNat ∧
        a.1.toNat + a.2 ≤ poolBase + smallAllocPoolSize) ∧
      live.Pairwise fun a b => a.1 ≠ b.1 ∧
        (a.1.toNat + a.2 ≤ b.1.toNat ∨ b.1.toNat + b.2 ≤ a.1.toNat) :=
  let ⟨bs, hi⟩ := hr.inv hfit
  ⟨bs, hi.list, hi.tiled, hi.blockList,
    fun a ha => ⟨hi.serves a ha, (hi.serves a ha).bounds hi.tiled⟩, hi.pairwise⟩

/-- Requests of 8 and 200 bytes, then a free of the first: the pool at `0x10000` holds a
free block, the 200-byte block and the rest. -/
theorem small_requests_free_tile :
    let a := optimizedAllocateSmallMemory 0x10000 ⟨optimizedInitMemoryManagement, Pool.zero⟩ 8
    let b := optimizedAllocateSmallMemory 0x10000 a.2 200
    let st := optimizedFreeSmallMemory 0x10000 b.2 a.1
    0x10000 + smallAllocPoolSize < 2 ^ 32 ∧ SmallRun 0x10000 st [(b.1, 200)] ∧
    ∃ bs, st.pool.list = some 0 ∧ Tiled st.pool.headers bs ∧
      blockList st.pool.headers smallAllocPoolSize st.pool.list = layout 0 bs ∧
      (∀ a ∈ [(b.1, 200)], Serves 0x10000 bs a ∧ 0x10000 + headerSize ≤ a.1.toNat ∧
        a.1.toNat + a.2 ≤ 0x10000 + smallAllocPoolSize) ∧
      [(b.1, 200)].Pairwise fun a b => a.1 ≠ b.1 ∧
        (a.1.toNat + a.2 ≤ b.1.toNat ∨ b.1.toNat + b.2 ≤ a.1.toNat) := by
  intro a b st
  have run : SmallRun 0x10000 st [(b.1, 200)] :=
    (SmallRun.allocate 200 (by decide) (.first optimizedInitMemoryManagement 8 (by decide))).free
      (a.1, 8) (by decide)
  exact ⟨by decide, run, smallPool_tiles (by decide) run⟩

/-- Two 8-byte requests, both freed. A freed block merges only with a successor that is
already free, so freeing the first one first leaves two free blocks, while the other order
leaves the single free block the pool started with. -/
theorem free_order_matters {poolBase : Nat} (hfit : poolBase + smallAllocPoolSize < 2 ^ 32)
    (pages : OptState) :
    let a := optimizedAllocateSmallMemory poolBase ⟨pages, Pool.zero⟩ 8
    let b := optimizedAllocateSmallMemory poolBase a.2 8
    let ab := optimizedFreeSmallMemory poolBase (optimizedFreeSmallMemory poolBase b.2 a.1) b.1
    let ba := optimizedFreeSmallMemory poolBase (optimizedFreeSmallMemory poolBase b.2 b.1) a.1
    SmallRun poolBase ab [] ∧ SmallRun poolBase ba [] ∧
      blockList ab.pool.headers smallAllocPoolSize ab.pool.list =
        [(0, 8, false), (20, 16352, false)] ∧
      blockList ba.pool.headers smallAllocPoolSize ba.pool.list = [(0, 16372, false)] := by
  intro a b ab ba
  -- the payloads of the blocks at offsets 0 and 20 do not wrap
  have hpay : ∀ off ≤ 20, (BitVec.ofNat 32 (poolBase + off + headerSize)).toNat =
      poolBase + off + headerSize := fun off h => by
    rw [BitVec.toNat_ofNat]
    exact Nat.mod_eq_of_lt (by simp only [smallAllocPoolSize, headerSize] at hfit ⊢; omega)
  have hA : a.1.toNat = poolBase + 0 + headerSize := hpay 0 (by decide)
  have hB : b.1.toNat = poolBase + 20 + headerSize := hpay 20 (by decide)
  have ha0 : a.1 ≠ 0 := fun h => by rw [h] at hA; simp [headerSize] at hA
  have hb0 : b.1 ≠ 0 := fun h => by rw [h] at hB; simp [headerSize] at hB
  have hab : a.1 ≠ b.1 := fun h => by rw [h, hB] at hA; omega
  have run := @SmallRun.allocate poolBase _ _ 8 (by decide) (.first pages 8 (by decide))
  change SmallRun poolBase b.2 (if b.1 = 0 then (if a.1 = 0 then [] else [(a.1, 8)])
    else (b.1, 8) :: (if a.1 = 0 then [] else [(a.1, 8)])) at run
  rw [if_neg ha0, if_neg hb0] at run
  have hpool : b.2.pool =
      (allocateFromPool 0 (allocateFromPool 0 (initSmallAllocPool Pool.zero) 8).2 8).2 := rfl
  have hne : ((b.1, 8) : BitVec 32 × Nat) ≠ (a.1, 8) := fun h => hab (congrArg Prod.fst h).symm
  refine ⟨?_, ?_, ?_, ?_⟩
  · have := (run.free (a.1, 8) (by simp)).free (b.1, 8) ((List.mem_erase_of_ne hne).2 (by simp))
    rwa [List.erase_cons_tail (by simpa using hne), List.erase_cons_head,
      List.erase_cons_head] at this
  · have := (run.free (b.1, 8) (by simp)).free (a.1, 8) (by simp)
    rwa [List.erase_cons_head, List.erase_cons_head] at this
  · unfold ab
    rw [optimizedFreeSmallMemory_payload hfit (by decide) hA,
      optimizedFreeSmallMemory_payload hfit (by decide) hB]
    dsimp only
    rw [hpool]
    decide
  · unfold ba
    rw [optimizedFreeSmallMemory_payload hfit (by decide) hB,
      optimizedFreeSmallMemory_payload hfit (by decide) hA]
    dsimp only
    rw [hpool]
    decide

theorem free_order_matters_at_boot :
    let a := optimizedAllocateSmallMemory 0x10000 ⟨optimizedInitMemoryManagement, Pool.zero⟩ 8
    let b := optimizedAllocateSmallMemory 0x10000 a.2 8
    let ab := optimizedFreeSmallMemory 0x10000 (optimizedFreeSmallMemory 0x10000 b.2 a.1) b.1
    let ba := optimizedFreeSmallMemory 0x10000 (optimizedFreeSmallMemory 0x10000 b.2 b.1) a.1
    0x10000 + smallAllocPoolSize < 2 ^ 32 ∧
    (SmallRun 0x10000 ab [] ∧ SmallRun 0x10000 ba [] ∧
      blockList ab.pool.headers smallAllocPoolSize ab.pool.list =
        [(0, 8, false), (20, 16352, false)] ∧
      blockList ba.pool.headers smallAllocPoolSize ba.pool.list = [(0, 16372, false)]) :=
  ⟨by decide, free_order_matters (by decide) optimizedInitMemoryManagement⟩

end MiniKernel.SmallPool
