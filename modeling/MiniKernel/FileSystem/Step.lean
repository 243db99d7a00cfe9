import MiniKernel.FileSystem.Core

/-! What each call of `file_system.c` can change. A call that fails leaves the state as
it was; one that succeeds rewrites one entry and the counters named here. The invariants
of the file system are derived from these lemmas rather than from the bodies. -/

namespace MiniKernel.Fs

/-- `find_free_entry` returns an unused entry of the table. -/
theorem findFreeEntry_spec {s : FileSystem} {i : Nat} (h : findFreeEntry s = some i) :
    i < maxEntries ∧ (s.files i).used = false := by
  obtain ⟨hp, hm⟩ := List.find?_some h, List.mem_of_find?_eq_some h
  exact ⟨List.mem_range.1 hm, by simpa using hp⟩

/-- `fs_create_file` and `fs_create_directory` either fail and change nothing, or pass
every check (a name, a valid parent, no entry of that name in it) and store a fresh entry
in the first free slot and count it. -/
theorem createEntry_cases (type : Nat) (s : FileSystem) (name : Option String)
    (parentDir : BitVec 32) :
    (createEntry type s name parentDir).state = s ∨
    ∃ i n, findFreeEntry s = some i ∧ name = some n ∧ parentError s parentDir = none ∧
      (List.range maxEntries).find? (fun j => (s.files j).used ∧
        (s.files j).parentDir = parentDir ∧ (s.files j).name = n) = none ∧
      (createEntry type s name parentDir).result = i ∧
      (createEntry type s name parentDir).state = { s with
        files := setAt s.files i
          { File.zero with name := n, type := type, parentDir := parentDir, used := true }
        fileCount := s.fileCount + 1 } := by
  unfold createEntry
  rcases name with _ | n
  · exact .inl rfl
  dsimp only
  split
  · exact .inl rfl
  rcases hp : parentError s parentDir with _ | e
  · dsimp only
    rcases hf : (List.range maxEntries).find? (fun j => (s.files j).used ∧
        (s.files j).parentDir = parentDir ∧ (s.files j).name = n) with _ | j
    · have : (fsFindFile s (some n) parentDir).result = errFileNotFound := by
        simp only [fsFindFile, hp, hf]
      rw [this, if_neg (by decide)]
      split
      · exact .inl rfl
      · rename_i i hi
        exact .inr ⟨i, n, hi, rfl, rfl, hf, rfl, rfl⟩
    · have : (fsFindFile s (some n) parentDir).result = j := by
        simp only [fsFindFile, hp, hf]
      rw [this, if_pos (Int.ofNat_nonneg j)]
      exact .inl rfl
  · exact .inl rfl

/-- The part of `createEntry_cases` that the block invariants need. -/
theorem createEntry_state (type : Nat) (s : FileSystem) (name : Option String)
    (parentDir : BitVec 32) :
    (createEntry type s name parentDir).state = s ∨
    ∃ i n, findFreeEntry s = some i ∧ name = some n ∧
      (createEntry type s name parentDir).result = i ∧
      (createEntry type s name parentDir).state = { s with
        files := setAt s.files i
          { File.zero with name := n, type := type, parentDir := parentDir, used := true }
        fileCount := s.fileCount + 1 } :=
  (createEntry_cases type s name parentDir).imp id
    fun ⟨i, n, hi, hn, _, _, hr, hs⟩ => ⟨i, n, hi, hn, hr, hs⟩

/-- The entry `fs_write_file` stores: the grown entry, its size raised to the end of the
write. -/
theorem raised_size (f : File) (cur : BitVec 32) :
    (if cur > f.size then { f with size := cur } else f) =
      { f with size := if cur > f.size then cur else f.size } := by
  split_ifs <;> rfl

/-- `fs_write_file` either fails and changes nothing, or grows the entry to
`required_blocks` (at most `MAX_BLOCKS_PER_FILE`), sets its size, moves the cursor as
`allocate_blocks` did and rewrites the data memory. -/
theorem fsWriteFile_state (s : FileSystem) (fileIndex : BitVec 32)
    (data : Option (Nat → BitVec 8)) (size offset : BitVec 32) :
    (fsWriteFile s fileIndex data size offset).state = s ∨
    ∃ f next size' mem,
      growFile s (s.files fileIndex.toNat) ((offset + size + blockSize - 1) / blockSize) =
        some (f, next) ∧
      (offset + size + blockSize - 1) / blockSize ≤ maxBlocksPerFile ∧
      (fsWriteFile s fileIndex data size offset).state = { s with
        files := setAt s.files fileIndex.toNat { f with size := size' }
        nextFreeBlock := next
        dataBlocks := mem } := by
  unfold fsWriteFile
  rcases data with _ | d
  · exact .inl rfl
  dsimp only
  by_cases h0 : size = 0
  · rw [if_pos h0]; exact .inl rfl
  rw [if_neg h0]
  by_cases hi : maxEntries ≤ fileIndex.toNat ∨ (!(s.files fileIndex.toNat).used) = true
  · rw [if_pos hi]; exact .inl rfl
  rw [if_neg hi]
  by_cases ht : (s.files fileIndex.toNat).type ≠ fileTypeFile
  · rw [if_pos ht]; exact .inl rfl
  rw [if_neg ht]
  by_cases hr : (offset + size + blockSize - 1) / blockSize > maxBlocksPerFile
  · rw [if_pos hr]; exact .inl rfl
  rw [if_neg hr]
  rcases hg : growFile s (s.files fileIndex.toNat) ((offset + size + blockSize - 1) / blockSize)
    with _ | ⟨f, next⟩
  · exact .inl rfl
  rcases hw : writeLoop f s.totalBlocks d size size.toNat 0 offset s.dataBlocks with
    ⟨written, cur, mem, corrupted⟩
  refine .inr ⟨f, next, if cur > f.size then cur else f.size, mem, rfl,
    BitVec.not_lt.1 hr, ?_⟩
  dsimp only
  rw [hw, raised_size]

/-- `fs_delete` either fails and changes nothing, or frees the blocks of a used entry
that is not a directory with children, marks it unused and uncounts it. -/
theorem fsDelete_state (s : FileSystem) (fileIndex : BitVec 32) :
    (fsDelete s fileIndex).state = s ∨
    fileIndex.toNat < maxEntries ∧ (s.files fileIndex.toNat).used ∧
      ¬((s.files fileIndex.toNat).type = fileTypeDirectory ∧ (List.range maxEntries).any
        (fun i => (s.files i).used ∧ (s.files i).parentDir = fileIndex)) ∧
      (fsDelete s fileIndex).state =
        let s1 := freeBlocks s (s.files fileIndex.toNat).blocks (s.files fileIndex.toNat).blockCount
        { s1 with
          files := setAt s1.files fileIndex.toNat { s.files fileIndex.toNat with used := false }
          fileCount := s1.fileCount - 1 } := by
  unfold fsDelete
  dsimp only
  split_ifs with hi hd
  · exact .inl rfl
  · exact .inl rfl
  · simp only [not_or, Bool.not_eq_true', Bool.not_eq_false] at hi
    exact .inr ⟨by omega, hi.2, hd, rfl⟩

@[simp] theorem freeBlocks_files (s : FileSystem) (blocks : Nat → BitVec 32) (count : BitVec 32) :
    (freeBlocks s blocks count).files = s.files := by
  unfold freeBlocks; split_ifs <;> rfl

@[simp] theorem freeBlocks_fileCount (s : FileSystem) (blocks : Nat → BitVec 32)
    (count : BitVec 32) : (freeBlocks s blocks count).fileCount = s.fileCount := by
  unfold freeBlocks; split_ifs <;> rfl

@[simp] theorem freeBlocks_totalBlocks (s : FileSystem) (blocks : Nat → BitVec 32)
    (count : BitVec 32) : (freeBlocks s blocks count).totalBlocks = s.totalBlocks := by
  unfold freeBlocks; split_ifs <;> rfl

/-- `free_blocks` moves the cursor only back to the first freed block. -/
theorem freeBlocks_nextFreeBlock (s : FileSystem) (blocks : Nat → BitVec 32)
    (count : BitVec 32) :
    (freeBlocks s blocks count).nextFreeBlock = s.nextFreeBlock ∨
    0 < count ∧ (freeBlocks s blocks count).nextFreeBlock = blocks 0 := by
  unfold freeBlocks
  split_ifs with h
  · exact .inr ⟨h.1, rfl⟩
  · exact .inl rfl

/-- `fs_init` and `fs_format` end in the state `fs_create_directory (fs, "/", 0)`
leaves, whether or not it succeeds. -/
theorem createRoot_state (s : FileSystem) :
    (createRoot s).state = (fsCreateDirectory s (some "/") 0).state := by
  unfold createRoot; dsimp only; split_ifs <;> rfl

/-- A successful `fs_init` clears the table and the cursor, takes the data memory, and
creates the root. -/
theorem fsInit_state {s : FileSystem} {mem : Nat → BitVec 8} {memorySize : BitVec 32}
    (h : (fsInit s (some mem) memorySize).result = errSuccess) :
    (fsInit s (some mem) memorySize).state =
      (fsCreateDirectory { s with
        files := fun _ => File.zero
        fileCount := 0
        dataBlocks := mem
        totalBlocks := memorySize / blockSize
        nextFreeBlock := 0 } (some "/") 0).state := by
  unfold fsInit at h ⊢
  dsimp only at h ⊢
  split_ifs at h ⊢
  · simp [errNullPointer, errSuccess] at h
  · simp [errOutOfMemory, errSuccess] at h
  · exact createRoot_state _

end MiniKernel.Fs
