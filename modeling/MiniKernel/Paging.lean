import MiniKernel.Bitmap

/-! `paging.c`. `init_paging` clears the page directory, fills the first page table with
the frames `i * 0x1000`, links that table from directory entry 0, loads `CR3` and sets
`CR0.PG`. What the tables are for is what the MMU makes of them: `translate` is the walk
of 32-bit paging with 4 KiB pages over a physical memory that holds the two tables, and
`initPaging_translate` says that after `init_paging` it maps every address below 4 MiB to
itself, writable, and faults on every other address, whatever the memory holds elsewhere.
The bit fields of entries and addresses are read through their values (`toNat`), so the
proofs are arithmetic closed by `omega`. -/

namespace MiniKernel.Paging

def pagePresent : BitVec 32 := 0x001
def pageWrite : BitVec 32 := 0x002

/-- The statics `page_directory` and `first_page_table`, and the control registers that
`init_paging` writes. -/
structure PagingState where
  pageDirectory : Nat → BitVec 32
  firstPageTable : Nat → BitVec 32
  cr3 : BitVec 32
  cr0 : BitVec 32

/-- Where the two tables lie: `__attribute__((aligned(4096)))` starts each on a page. -/
structure Layout where
  directoryAddr : BitVec 32
  tableAddr : BitVec 32
  directory_aligned : directoryAddr.toNat % 4096 = 0
  table_aligned : tableAddr.toNat % 4096 = 0

/-- `init_paging ()`, with the tables at the addresses of `l`. -/
def initPaging (l : Layout) (p : PagingState) : PagingState :=
  let pd := (List.range 1024).foldl (fun pd i => setAt pd i 0) p.pageDirectory
  let pt := (List.range 1024).foldl
    (fun pt i => setAt pt i (BitVec.ofNat 32 (i * 0x1000) ||| pagePresent ||| pageWrite))
    p.firstPageTable
  { pageDirectory := setAt pd 0 (l.tableAddr ||| pagePresent ||| pageWrite)
    firstPageTable := pt
    cr3 := l.directoryAddr
    cr0 := p.cr0 ||| 0x80000000 }

/-! ## The MMU -/

/-- Bits 31..12 of an entry or of `CR3`: the physical page it names. -/
def frameBase (e : BitVec 32) : BitVec 32 := e >>> 12 <<< 12

/-- The walk of 32-bit paging with 4 KiB pages; `mem a` is the word at physical address
`a`. The directory entry is indexed by bits 31..22 of the address, the table entry by bits
21..12, and bits 11..0 are the offset. `none` is a page fault; otherwise the physical
address and whether both entries allow writes. With `CR0.PG` clear, addresses are
physical. -/
def translate (mem : BitVec 32 → BitVec 32) (cr0 cr3 va : BitVec 32) :
    Option (BitVec 32 × Bool) :=
  if !cr0.getLsbD 31 then some (va, true)
  else
    let pde := mem (frameBase cr3 + (va >>> 22) * 4)
    if !pde.getLsbD 0 then none
    else
      let pte := mem (frameBase pde + ((va >>> 12) &&& 0x3FF) * 4)
      if !pte.getLsbD 0 then none
      else some (frameBase pte ||| (va &&& 0xFFF), pde.getLsbD 1 && pte.getLsbD 1)

/-- The physical memory `mem` holds the tables of `p` where `l` puts them. -/
def Resident (l : Layout) (p : PagingState) (mem : BitVec 32 → BitVec 32) : Prop :=
  ∀ i < 1024, mem (l.directoryAddr + BitVec.ofNat 32 (4 * i)) = p.pageDirectory i ∧
    mem (l.tableAddr + BitVec.ofNat 32 (4 * i)) = p.firstPageTable i

/-- A physical memory that holds the tables of `p` where `l` puts them, and zero
elsewhere. -/
def loaded (l : Layout) (p : PagingState) (a : BitVec 32) : BitVec 32 :=
  if a.toNat / 4096 = l.directoryAddr.toNat / 4096 then p.pageDirectory (a.toNat % 4096 / 4)
  else if a.toNat / 4096 = l.tableAddr.toNat / 4096 then p.firstPageTable (a.toNat % 4096 / 4)
  else 0

/-! ## Bit fields as values -/

theorem getLsbD_eq (e : BitVec 32) (i : Nat) :
    e.getLsbD i = decide (e.toNat / 2 ^ i % 2 = 1) :=
  Nat.testBit_to_div_mod

/-- Or-ing low bits into a page-aligned word adds them. -/
theorem toNat_or_low {a b : BitVec 32} (ha : a.toNat % 4096 = 0) (hb : b.toNat < 4096) :
    (a ||| b).toNat = a.toNat + b.toNat := by
  have h := Nat.mul_add_lt_is_or (show b.toNat < 2 ^ 12 from hb) (a.toNat / 4096)
  rw [BitVec.toNat_or, show a.toNat = 2 ^ 12 * (a.toNat / 4096) by omega, ← h]

theorem toNat_entry {a : BitVec 32} (ha : a.toNat % 4096 = 0) :
    (a ||| pagePresent ||| pageWrite).toNat = a.toNat + 3 := by
  rw [BitVec.or_assoc, toNat_or_low ha (by decide)]
  rfl

theorem toNat_frameBase (e : BitVec 32) : (frameBase e).toNat = e.toNat / 4096 * 4096 := by
  simp only [frameBase, BitVec.toNat_shiftLeft, BitVec.toNat_ushiftRight, Nat.shiftLeft_eq,
    Nat.shiftRight_eq_div_pow]
  have := e.isLt
  exact Nat.mod_eq_of_lt (by omega)

theorem toNat_offset (va : BitVec 32) : (va &&& 0xFFF).toNat = va.toNat % 4096 := by
  simpa using Nat.and_pow_two_sub_one_eq_mod va.toNat 12

theorem toNat_tableIndex (va : BitVec 32) :
    ((va >>> 12) &&& 0x3FF).toNat = va.toNat / 4096 % 1024 := by
  simpa [Nat.shiftRight_eq_div_pow] using Nat.and_pow_two_sub_one_eq_mod (va.toNat >>> 12) 10

theorem toNat_directoryIndex (va : BitVec 32) : (va >>> 22).toNat = va.toNat / 4194304 := by
  simp [Nat.shiftRight_eq_div_pow]

theorem mul_four (x : BitVec 32) : x * 4 = BitVec.ofNat 32 (4 * x.toNat) := by
  apply BitVec.eq_of_toNat_eq; simp [Nat.mul_comm]

/-- The entry `i * 0x1000 | PAGE_PRESENT | PAGE_WRITE` of the first page table. -/
theorem toNat_tableEntry {i : Nat} (hi : i < 1024) :
    (BitVec.ofNat 32 (i * 0x1000) ||| pagePresent ||| pageWrite).toNat = i * 4096 + 3 := by
  rw [toNat_entry] <;> simp only [BitVec.toNat_ofNat] <;> omega

/-- Two distinct tables never overlap, so a memory holding both exists. -/
theorem resident_loaded (l : Layout) (p : PagingState) (h : l.directoryAddr ≠ l.tableAddr) :
    Resident l p (loaded l p) := by
  intro i hi
  have hne : l.directoryAddr.toNat ≠ l.tableAddr.toNat := fun e => h (BitVec.eq_of_toNat_eq e)
  have hd := l.directory_aligned
  have ht := l.table_aligned
  have add (a : BitVec 32) (ha : a.toNat % 4096 = 0) :
      (a + BitVec.ofNat 32 (4 * i)).toNat = a.toNat + 4 * i := by
    have := a.isLt
    rw [BitVec.toNat_add, BitVec.toNat_ofNat]
    omega
  simp only [loaded, add _ hd, add _ ht]
  constructor
  · rw [if_pos (by omega)]; congr 1; omega
  · rw [if_neg (by omega), if_pos (by omega)]; congr 1; omega

/-! ## The tables `init_paging` builds -/

section Tables

variable (l : Layout) (p : PagingState)

theorem initPaging_directory (i : Nat) : (initPaging l p).pageDirectory i =
    if i = 0 then l.tableAddr ||| pagePresent ||| pageWrite
    else if i < 1024 then 0 else p.pageDirectory i := by
  simp only [initPaging, setAt, foldl_setAt_range]

theorem initPaging_table (i : Nat) : (initPaging l p).firstPageTable i =
    if i < 1024 then BitVec.ofNat 32 (i * 0x1000) ||| pagePresent ||| pageWrite
    else p.firstPageTable i := by
  simp only [initPaging, foldl_setAt_range]

theorem initPaging_enabled : (initPaging l p).cr0.getLsbD 31 = true := by
  simp [initPaging, BitVec.getLsbD_or]

end Tables

/-- A present, writable entry naming the page at `a`. -/
theorem present_entry {e : BitVec 32} {a : Nat} (ha : a % 4096 = 0) (he : e.toNat = a + 3) :
    e.getLsbD 0 = true ∧ e.getLsbD 1 = true ∧ (frameBase e).toNat = a := by
  refine ⟨?_, ?_, ?_⟩
  · simp only [getLsbD_eq, he, decide_eq_true_eq]; omega
  · simp only [getLsbD_eq, he, decide_eq_true_eq]; omega
  · rw [toNat_frameBase, he]; omega

/-- After `init_paging`, the walk over any memory holding the two tables maps each address
below 4 MiB to itself, with writes allowed, and faults on every address above. -/
theorem initPaging_translate (l : Layout) (p : PagingState) {mem : BitVec 32 → BitVec 32}
    (hm : Resident l (initPaging l p) mem) (va : BitVec 32) :
    translate mem (initPaging l p).cr0 (initPaging l p).cr3 va =
      if va.toNat < 0x400000 then some (va, true) else none := by
  have hva := va.isLt
  have hcr3 : frameBase (initPaging l p).cr3 = l.directoryAddr := BitVec.eq_of_toNat_eq (by
    rw [toNat_frameBase]; have := l.directory_aligned; dsimp only [initPaging]; omega)
  have hk : va.toNat / 4194304 < 1024 := by omega
  unfold translate
  rw [initPaging_enabled, hcr3, mul_four, toNat_directoryIndex, (hm _ hk).1,
    initPaging_directory]
  simp only [Bool.not_true, Bool.false_eq_true, if_false]
  by_cases hlow : va.toNat < 0x400000
  case neg =>
    have h0 : va.toNat / 4194304 ≠ 0 := by omega
    rw [if_neg h0, if_pos hk, if_neg hlow]
    rfl
  case pos =>
    have h0 : va.toNat / 4194304 = 0 := by omega
    obtain ⟨hp, hw, hb⟩ := present_entry l.table_aligned (toNat_entry l.table_aligned)
    have hj : va.toNat / 4096 % 1024 < 1024 := Nat.mod_lt _ (by decide)
    have htab : frameBase (l.tableAddr ||| pagePresent ||| pageWrite) = l.tableAddr :=
      BitVec.eq_of_toNat_eq hb
    rw [if_pos h0, if_pos hlow, hp, hw, htab, mul_four, toNat_tableIndex, (hm _ hj).2,
      initPaging_table, if_pos hj]
    obtain ⟨hp', hw', hb'⟩ := @present_entry _ (va.toNat / 4096 % 1024 * 4096) (by omega)
      (toNat_tableEntry hj)
    simp only [hp', hw', Bool.not_true, Bool.false_eq_true, if_false, Bool.and_self]
    refine congrArg (fun x => some (x, true)) (BitVec.eq_of_toNat_eq ?_)
    rw [toNat_or_low (by omega) (by rw [toNat_offset]; omega), hb', toNat_offset]
    omega

/-- `page_directory` at `0x9000` and `first_page_table` at `0xA000`. -/
def bootLayout : Layout := ⟨0x9000, 0xA000, by decide, by decide⟩

/-- Tables holding stale entries, and `CR0` with protection bits already set. -/
theorem stale_tables_identity_map :
    let p : PagingState :=
      ⟨fun i => BitVec.ofNat 32 (i * 0x1003), fun _ => 0xFFFFFFFF, 0x7000, 0x11⟩
    let q := initPaging bootLayout p
    Resident bootLayout q (loaded bootLayout q) ∧
      translate (loaded bootLayout q) q.cr0 q.cr3 0x123456 =
        if (0x123456 : BitVec 32).toNat < 0x400000 then some (0x123456, true) else none :=
  ⟨resident_loaded _ _ (by decide),
    initPaging_translate bootLayout _ (resident_loaded _ _ (by decide)) 0x123456⟩

end MiniKernel.Paging
