import MiniKernel.FileSystem.Step

/-! The block cursor of `file_system.c`. `allocate_blocks` hands out block numbers from
`next_free_block`, which only `fs_init`, `fs_format` and `free_blocks` move back.

Proved here:

* `reachable_blocks_exist`: in every reachable state the cursor stays at or below
  `total_blocks`, no entry lists more than `MAX_BLOCKS_PER_FILE` blocks, and every listed
  block exists;
* `rewound_blocks_collide`: the cursor does not stay above the blocks in use.
  `free_blocks` rewinds it to a deleted file's first block whenever that file's last
  block abuts it, below blocks other files still hold, and the next allocation hands
  those out again: a write to one file changes what another reads, and a file can list
  one block twice;
* `wrapped_offset_write_corrupts`: `offset + size` wraps in `uint32_t`, so a one-byte
  write at offset `0xFFFFFFFF` allocates nothing, returns 0 and leaves a size past the
  file's blocks, in every reachable state.
-/

namespace MiniKernel.Fs

/-! ## Block arithmetic -/

theorem toNat_div_blockSize (x : BitVec 32) : (x / blockSize).toNat = x.toNat / 512 := by
  simp [blockSize, BitVec.toNat_udiv]

theorem toNat_mod_blockSize (x : BitVec 32) : (x % blockSize).toNat = x.toNat % 512 := by
  simp [blockSize, BitVec.toNat_umod]

theorem toNat_le_of_le_maxBlocksPerFile {x : BitVec 32} (h : x ≤ maxBlocksPerFile) :
    x.toNat ≤ 8 := by
  simpa [maxBlocksPerFile, BitVec.le_def] using h

/-- `n * BLOCK_SIZE` does not wrap for a block number or a block count below `2 ^ 23`. -/
theorem toNat_mul_blockSize {x : BitVec 32} (h : x.toNat < 2 ^ 23) :
    (x * blockSize).toNat = x.toNat * 512 := by
  rw [BitVec.toNat_mul]
  simp [blockSize]
  omega

/-! ## allocate_blocks -/

/-- The loop of `allocate_blocks` stores `next, next + 1, ...` from index `base` on. -/
theorem foldl_allocate (blocks : Nat → BitVec 32) (base : Nat) (next : BitVec 32) (k : Nat) :
    (List.range k).foldl
      (fun (acc : (Nat → BitVec 32) × BitVec 32) i => (setAt acc.1 (base + i) acc.2, acc.2 + 1))
      (blocks, next) =
    (fun j => if base ≤ j ∧ j < base + k then next + BitVec.ofNat 32 (j - base) else blocks j,
      next + BitVec.ofNat 32 k) := by
  induction k with
  | zero =>
    refine Prod.ext (funext fun j => ?_) (by simp)
    simp only [List.range_zero, List.foldl_nil, Nat.add_zero]
    rw [if_neg (by omega)]
  | succ k ih =>
    rw [List.range_succ, List.foldl_append, ih]
    refine Prod.ext (funext fun j => ?_) (by simp [BitVec.ofNat_add, BitVec.add_assoc])
    by_cases hj : j = base + k
    · simp [hj]
    · simp only [List.foldl_cons, List.foldl_nil, setAt_ne _ _ hj]
      split_ifs <;> first | rfl | omega

theorem allocateBlocks_eq_some {s : FileSystem} {blocks : Nat → BitVec 32} {base : Nat}
    {count : BitVec 32} {b : Nat → BitVec 32} {next : BitVec 32}
    (h : allocateBlocks s blocks base count = some (b, next)) :
    s.nextFreeBlock + count ≤ s.totalBlocks ∧ next = s.nextFreeBlock + count ∧
    ∀ j, b j = if base ≤ j ∧ j < base + count.toNat
      then s.nextFreeBlock + BitVec.ofNat 32 (j - base) else blocks j := by
  unfold allocateBlocks at h
  split_ifs at h with hc
  rw [foldl_allocate, Option.some.injEq, Prod.mk.injEq] at h
  obtain ⟨rfl, rfl⟩ := h
  exact ⟨BitVec.not_lt.1 hc, by simp, fun j => rfl⟩

/-! ## The cursor's invariant -/

/-- An entry lists at most `MAX_BLOCKS_PER_FILE` blocks, each below `total`. -/
def EntryWithin (total : BitVec 32) (f : File) : Prop :=
  f.blockCount ≤ maxBlocksPerFile ∧ ∀ j < f.blockCount.toNat, f.blocks j < total

structure BlocksWithin (s : FileSystem) : Prop where
  next_le : s.nextFreeBlock ≤ s.totalBlocks
  total_lt : s.totalBlocks.toNat < 2 ^ 23
  entries : ∀ i, EntryWithin s.totalBlocks (s.files i)

theorem entryWithin_of_blockCount {total : BitVec 32} {f : File} (h : f.blockCount = 0) :
    EntryWithin total f :=
  ⟨by simp [h, maxBlocksPerFile], fun j hj => by simp [h] at hj⟩

theorem entryWithin_setAt {total : BitVec 32} {a : Nat → File}
    (h : ∀ j, EntryWithin total (a j)) (i : Nat) {f : File} (hf : EntryWithin total f) (j : Nat) :
    EntryWithin total (setAt a i f j) := by
  by_cases hj : j = i
  · subst hj; simpa using hf
  · simpa [setAt_ne _ _ hj] using h j

/-- Growing an entry within the invariant lists only existing blocks and keeps the cursor
at or below `total_blocks`. -/
theorem growFile_within {s : FileSystem} {f f' : File} {requiredBlocks next : BitVec 32}
    (h : BlocksWithin s) (hf : EntryWithin s.totalBlocks f)
    (hr : requiredBlocks ≤ maxBlocksPerFile)
    (hg : growFile s f requiredBlocks = some (f', next)) :
    EntryWithin s.totalBlocks f' ∧ next ≤ s.totalBlocks := by
  have hn := h.next_le
  have ht := h.total_lt
  unfold growFile at hg
  split_ifs at hg with hgt
  · split at hg
    · cases hg
    · rename_i b n ha
      obtain ⟨hle, rfl, hb⟩ := allocateBlocks_eq_some ha
      cases hg
      refine ⟨⟨hr, fun j hj => ?_⟩, hle⟩
      simp only [maxBlocksPerFile] at hr hj
      show b j < s.totalBlocks
      rw [hb j]
      split_ifs with hj'
      · bv_omega
      · exact hf.2 j (by bv_omega)
  · cases hg
    exact ⟨hf, hn⟩

theorem BlocksWithin.createEntry {s : FileSystem} (h : BlocksWithin s) (type : Nat)
    (name : Option String) (parentDir : BitVec 32) :
    BlocksWithin (MiniKernel.Fs.createEntry type s name parentDir).state := by
  rcases createEntry_state type s name parentDir with e | ⟨i, n, -, -, -, e⟩ <;> rw [e]
  · exact h
  · exact ⟨h.next_le, h.total_lt,
      entryWithin_setAt h.entries i (entryWithin_of_blockCount rfl)⟩

theorem BlocksWithin.fsWriteFile {s : FileSystem} (h : BlocksWithin s) (fileIndex : BitVec 32)
    (data : Option (Nat → BitVec 8)) (size offset : BitVec 32) :
    BlocksWithin (MiniKernel.Fs.fsWriteFile s fileIndex data size offset).state := by
  rcases fsWriteFile_state s fileIndex data size offset with
    e | ⟨f, next, size', mem, hg, hr, e⟩ <;> rw [e]
  · exact h
  · obtain ⟨hf, hn⟩ := growFile_within h (h.entries _) hr hg
    exact ⟨hn, h.total_lt, entryWithin_setAt h.entries _ hf⟩

theorem BlocksWithin.fsDelete {s : FileSystem} (h : BlocksWithin s) (fileIndex : BitVec 32) :
    BlocksWithin (MiniKernel.Fs.fsDelete s fileIndex).state := by
  rcases fsDelete_state s fileIndex with e | ⟨-, -, -, e⟩ <;> rw [e]
  · exact h
  · have hf := h.entries fileIndex.toNat
    refine ⟨?_, by simpa using h.total_lt, ?_⟩
    · rcases freeBlocks_nextFreeBlock s (s.files fileIndex.toNat).blocks
        (s.files fileIndex.toNat).blockCount with e' | ⟨hc, e'⟩ <;>
        simp only [e', freeBlocks_totalBlocks]
      · exact h.next_le
      · have := hf.2 0 (by bv_omega)
        bv_omega
    · simp only [freeBlocks_files, freeBlocks_totalBlocks]
      exact entryWithin_setAt h.entries _ hf

/-- The state `fs_init` and `fs_format` clear the table and the cursor to. -/
theorem BlocksWithin.of_cleared {s : FileSystem} (hf : ∀ i, s.files i = File.zero)
    (hn : s.nextFreeBlock = 0) (ht : s.totalBlocks.toNat < 2 ^ 23) : BlocksWithin s :=
  ⟨by rw [hn]; bv_omega, ht, fun i => entryWithin_of_blockCount (by rw [hf i]; rfl)⟩

theorem BlocksWithin.fsFormat {s : FileSystem} (h : BlocksWithin s) :
    BlocksWithin (MiniKernel.Fs.fsFormat s).state := by
  rw [MiniKernel.Fs.fsFormat, createRoot_state]
  apply BlocksWithin.createEntry
  exact BlocksWithin.of_cleared (fun _ => rfl) rfl h.total_lt

theorem blocksWithin_fsInit {s : FileSystem} {mem : Nat → BitVec 8} {memorySize : BitVec 32}
    (h : (fsInit s (some mem) memorySize).result = errSuccess) :
    BlocksWithin (fsInit s (some mem) memorySize).state := by
  rw [fsInit_state h]
  apply BlocksWithin.createEntry
  refine BlocksWithin.of_cleared (fun _ => rfl) rfl ?_
  show (memorySize / blockSize).toNat < 2 ^ 23
  rw [toNat_div_blockSize]
  omega

theorem BlocksWithin.runOp {s : FileSystem} (h : BlocksWithin s) :
    ∀ op, BlocksWithin (MiniKernel.Fs.runOp s op)
  | .createFile name parentDir => h.createEntry _ name parentDir
  | .createDirectory name parentDir => h.createEntry _ name parentDir
  | .writeFile fileIndex data size offset => h.fsWriteFile fileIndex data size offset
  | .delete fileIndex => h.fsDelete fileIndex
  | .format => h.fsFormat

theorem Reachable.blocksWithin {s : FileSystem} (hs : Reachable s) : BlocksWithin s := by
  induction hs with
  | init s mem memorySize h => exact blocksWithin_fsInit h
  | step op _ ih => exact ih.runOp op

/-- In every reachable state `next_free_block <= total_blocks`, every entry lists at most
`MAX_BLOCKS_PER_FILE` blocks, and every block it lists is below `total_blocks`. -/
theorem reachable_blocks_exist {s : FileSystem} (hs : Reachable s) :
    s.nextFreeBlock ≤ s.totalBlocks ∧ ∀ i, (s.files i).blockCount ≤ maxBlocksPerFile ∧
      ∀ j < (s.files i).blockCount.toNat, (s.files i).blocks j < s.totalBlocks :=
  ⟨hs.blocksWithin.next_le, hs.blocksWithin.entries⟩

/-- `fs_init` on a zeroed `FileSystem` with 4 KiB of zeroed data memory: 8 blocks. -/
def mounted : FileSystem := (fsInit zeroFs (some fun _ => 0) 4096).state

theorem reachable_mounted : Reachable mounted := .init _ _ _ (by decide)

/-- A file created after `fs_init` and written 600 bytes, which take two blocks. -/
theorem written_blocks_exist :
    let s := runOps mounted [.createFile (some "f") 0, .writeFile 1 (some fun _ => 0xAA) 600 0]
    Reachable s ∧ s.nextFreeBlock ≤ s.totalBlocks ∧
      ∀ i, (s.files i).blockCount ≤ maxBlocksPerFile ∧
        ∀ j < (s.files i).blockCount.toNat, (s.files i).blocks j < s.totalBlocks :=
  ⟨reachable_mounted.runOps _, reachable_blocks_exist (reachable_mounted.runOps _)⟩

/-! ## Rewinding the cursor -/

/-- Bytes all equal to `b`. -/
def fill (b : BitVec 8) : Nat → BitVec 8 := fun _ => b

/-- The byte `fs_read_file (fs, file_index, buffer, 1, 0)` copies. -/
def firstByte (s : FileSystem) (fileIndex : BitVec 32) : Option (BitVec 8) :=
  (fsReadFile s fileIndex (some fun _ => 0) 1 0).result.2.map fun b => b 0

/-- `A` takes block 0 and `B` block 1; `A` grows into block 2, so its last block abuts the
cursor, and deleting it rewinds the cursor to 0, below `B`'s block. `C` takes `A`'s slot. -/
def rewound : FileSystem := runOps mounted
  [.createFile (some "A") 0, .createFile (some "B") 0,
   .writeFile 1 (some (fill 0xAA)) 1 0, .writeFile 2 (some (fill 0xBB)) 1 0,
   .writeFile 1 (some (fill 0xAA)) 1 512, .delete 1, .createFile (some "C") 0]

/-- 512 bytes `0xAA`, then `0xCC`. -/
def halves : Nat → BitVec 8 := fun i => if i < 512 then 0xAA else 0xCC

/-- In `rewound`, `B` holds block 1 while the cursor is at 0. Writing 1024 bytes to `C`
hands block 1 out again, and the byte `fs_read_file` returns from `B` changes from `0xBB`
to `0xCC`. Writing 1536 bytes to `B` instead lists block 1 twice in `B`: the write
returns 1536, and reading the 1536 bytes back returns the third 512 in place of the
first. -/
theorem rewound_blocks_collide :
    Reachable rewound ∧ (rewound.files 2).used ∧
    rewound.nextFreeBlock ≤ (rewound.files 2).blocks 0 ∧
    (let w := fsWriteFile rewound 1 (some (fill 0xCC)) 1024 0
     w.result = 1024 ∧ (w.state.files 1).blocks 1 = (w.state.files 2).blocks 0 ∧
     firstByte rewound 2 = some 0xBB ∧ firstByte w.state 2 = some 0xCC) ∧
    (let w := fsWriteFile rewound 2 (some halves) 1536 0
     let r := fsReadFile w.state 2 (some fun _ => 0) 1536 0
     w.result = 1536 ∧ (w.state.files 2).blocks 0 = (w.state.files 2).blocks 2 ∧
     r.result.1 = 1536 ∧ (r.result.2.map fun b => b 0) = some 0xCC ∧ halves 0 = 0xAA) :=
  ⟨reachable_mounted.runOps _, by decide, by decide, by decide, by decide⟩

/-! ## Offsets that wrap -/

/-- The copy loop of `fs_write_file` breaks on `ERR_FILE_CORRUPTED` at a block index
past `block_count`. -/
theorem writeLoop_past_blocks {f : File} {total size written cur : BitVec 32}
    {data mem : Nat → BitVec 8} {fuel : Nat} (hw : written < size)
    (hb : f.blockCount ≤ cur / blockSize) :
    writeLoop f total data size (fuel + 1) written cur mem = (written, cur, mem, true) := by
  simp [writeLoop, hw, hb]

theorem readLoop_past_blocks {f : File} {total readSize bytesRead cur : BitVec 32}
    {mem buffer : Nat → BitVec 8} {fuel : Nat} (hr : bytesRead < readSize) (hc : cur < f.size)
    (hb : f.blockCount ≤ cur / blockSize) :
    readLoop f total mem readSize (fuel + 1) bytesRead cur buffer =
      (bytesRead, cur, buffer, true) := by
  simp [readLoop, hr, hc, hb]

/-- One byte at offset `0xFFFFFFFF`: `required_size` wraps to 0, so no block is allocated,
the loop breaks at once, and the size becomes `0xFFFFFFFF`. -/
theorem fsWriteFile_wrapped {s : FileSystem} {fileIndex : BitVec 32}
    (hi : fileIndex.toNat < maxEntries) (hu : (s.files fileIndex.toNat).used)
    (ht : (s.files fileIndex.toNat).type = fileTypeFile)
    (hb : (s.files fileIndex.toNat).blockCount ≤ maxBlocksPerFile) (data : Nat → BitVec 8) :
    fsWriteFile s fileIndex (some data) 1 0xFFFFFFFF =
      ⟨0, { s with
        files := setAt s.files fileIndex.toNat
          ({ (s.files fileIndex.toNat) with size := 0xFFFFFFFF }) },
        [errFileCorrupted]⟩ := by
  have h0 : (0xFFFFFFFF + 1 + blockSize - 1) / blockSize = (0 : BitVec 32) := by decide
  have hg : growFile s (s.files fileIndex.toNat) 0 =
      some (s.files fileIndex.toNat, s.nextFreeBlock) := by
    rw [growFile, if_neg (by bv_omega)]
  have hw : writeLoop (s.files fileIndex.toNat) s.totalBlocks data 1 1 0 0xFFFFFFFF
      s.dataBlocks = (0, 0xFFFFFFFF, s.dataBlocks, true) :=
    writeLoop_past_blocks (by decide) (by
      rw [show (0xFFFFFFFF : BitVec 32) / blockSize = 8388607 by decide]
      simp only [maxBlocksPerFile] at hb; bv_omega)
  unfold fsWriteFile
  dsimp only
  rw [if_neg (by decide), if_neg (by simp [hu]; omega), if_neg (by simp [ht]), h0,
    if_neg (by decide), hg]
  dsimp only
  rw [show (1 : BitVec 32).toNat = 1 from rfl, hw]
  dsimp only
  rw [if_pos rfl]
  by_cases hsz : 0xFFFFFFFF > (s.files fileIndex.toNat).size
  · rw [if_pos hsz]; rfl
  · rw [if_neg hsz, show (0xFFFFFFFF : BitVec 32) = (s.files fileIndex.toNat).size by bv_omega]
    rfl

/-- A file whose size passes its blocks reads as corrupted at the first offset past
them. -/
theorem fsReadFile_past_blocks {s : FileSystem} {fileIndex : BitVec 32} {f : File}
    (hi : fileIndex.toNat < maxEntries) (hf : s.files fileIndex.toNat = f) (hu : f.used)
    (ht : f.type = fileTypeFile) (hb : f.blockCount ≤ maxBlocksPerFile)
    (hsz : f.blockCount * blockSize < f.size) (buffer : Nat → BitVec 8) :
    fsReadFile s fileIndex (some buffer) 1 (f.blockCount * blockSize) =
      ⟨(0, some buffer), s, [errFileCorrupted]⟩ := by
  subst hf
  replace hb := toNat_le_of_le_maxBlocksPerFile hb
  have hm := toNat_mul_blockSize
    (show (s.files fileIndex.toNat).blockCount.toNat < 2 ^ 23 by omega)
  have hr : readLoop (s.files fileIndex.toNat) s.totalBlocks s.dataBlocks 1 1 0
      ((s.files fileIndex.toNat).blockCount * blockSize) buffer =
      (0, (s.files fileIndex.toNat).blockCount * blockSize, buffer, true) :=
    readLoop_past_blocks (by decide) hsz
      (by rw [BitVec.le_def, toNat_div_blockSize, hm]; omega)
  rw [BitVec.lt_def, hm] at hsz
  unfold fsReadFile
  dsimp only
  rw [if_neg (by decide), if_neg (by simp [hu]; omega), if_neg (by simp [ht]),
    if_neg (by simp only [ge_iff_le, BitVec.le_def, hm]; omega),
    if_neg (by simp only [gt_iff_lt, BitVec.lt_def, BitVec.toNat_add, hm]; simp; omega),
    show (1 : BitVec 32).toNat = 1 from rfl, hr]
  rfl

/-- In every reachable state, `fs_write_file (fs, f, data, 1, 0xFFFFFFFF)` on a used file
returns 0, neither the size asked for nor an error code, after taking its
`ERR_FILE_CORRUPTED` branch. It sets the size to `0xFFFFFFFF` without a block, so the
reachable state after it breaks `size <= block_count * BLOCK_SIZE`, and `fs_read_file`
takes its `ERR_FILE_CORRUPTED` branch at the first offset past the blocks. -/
theorem wrapped_offset_write_corrupts {s : FileSystem} (hs : Reachable s) {fileIndex : BitVec 32}
    (hi : fileIndex.toNat < maxEntries) (hu : (s.files fileIndex.toNat).used)
    (ht : (s.files fileIndex.toNat).type = fileTypeFile) (data buffer : Nat → BitVec 8) :
    let w := fsWriteFile s fileIndex (some data) 1 0xFFFFFFFF
    let f := w.state.files fileIndex.toNat
    Reachable w.state ∧ w.result = 0 ∧ w.errors = [errFileCorrupted] ∧
      f.used ∧ f.size = 0xFFFFFFFF ∧ f.blockCount * blockSize < f.size ∧
      w.state.nextFreeBlock = s.nextFreeBlock ∧
      fsReadFile w.state fileIndex (some buffer) 1 (f.blockCount * blockSize) =
        ⟨(0, some buffer), w.state, [errFileCorrupted]⟩ := by
  have hb := (hs.blocksWithin.entries fileIndex.toNat).1
  have hr : Reachable (fsWriteFile s fileIndex (some data) 1 0xFFFFFFFF).state :=
    hs.step (.writeFile fileIndex (some data) 1 0xFFFFFFFF)
  have hsz : (s.files fileIndex.toNat).blockCount * blockSize < 0xFFFFFFFF := by
    have hb8 := toNat_le_of_le_maxBlocksPerFile hb
    rw [BitVec.lt_def, toNat_mul_blockSize
      (show (s.files fileIndex.toNat).blockCount.toNat < 2 ^ 23 by omega)]
    simp; omega
  rw [fsWriteFile_wrapped hi hu ht hb data] at hr ⊢
  dsimp only
  rw [setAt_same]
  exact ⟨hr, rfl, rfl, hu, rfl, hsz, rfl,
    @fsReadFile_past_blocks _ _ { (s.files fileIndex.toNat) with size := 0xFFFFFFFF } hi
      (setAt_same _ _ _) hu ht hb hsz buffer⟩

/-- One file created after `fs_init`, written one byte at offset `0xFFFFFFFF`. -/
theorem mounted_wrapped_write :
    let s := runOps mounted [.createFile (some "f") 0]
    Reachable s ∧ (1 : BitVec 32).toNat < maxEntries ∧ (s.files 1).used ∧
    (s.files 1).type = fileTypeFile ∧
    let w := fsWriteFile s 1 (some (fill 0xAA)) 1 0xFFFFFFFF
    let f := w.state.files 1
    Reachable w.state ∧ w.result = 0 ∧ w.errors = [errFileCorrupted] ∧
      f.used ∧ f.size = 0xFFFFFFFF ∧ f.blockCount * blockSize < f.size ∧
      w.state.nextFreeBlock = s.nextFreeBlock ∧
      fsReadFile w.state 1 (some (fill 0)) 1 (f.blockCount * blockSize) =
        ⟨(0, some (fill 0)), w.state, [errFileCorrupted]⟩ :=
  ⟨reachable_mounted.runOps _, by decide, by decide, by decide,
    wrapped_offset_write_corrupts (reachable_mounted.runOps _) (by decide) (by decide) (by decide)
      (fill 0xAA) (fill 0)⟩

end MiniKernel.Fs
