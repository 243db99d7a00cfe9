import MiniKernel.Bitmap
import Mathlib.Data.List.Basic

/-! The in-memory file system of `file_system.c`: a table of 32 entries (files and
directories), data blocks of 512 bytes handed out by a linear cursor, and the error codes
of `error_codes.h`.

Every `uint32_t` is a `BitVec 32`, so sums and products wrap as in C. A function returns
its `int32_t` result, the new state, and the codes it passed to `HANDLE_ERROR`, which only
prints them. Pointer arguments that may be `NULL` are `Option`s; the `FileSystem` pointer
itself is never `NULL` here. The copy loops of `fs_read_file` and `fs_write_file` run on
fuel equal to the number of bytes asked for: every pass that does not break copies at
least one byte. -/

namespace MiniKernel.Fs

def maxFilenameLength : Nat := 32
def maxFilesPerDir : Nat := 16
def blockSize : BitVec 32 := 512
def maxBlocksPerFile : BitVec 32 := 8
def fileTypeFile : Nat := 0
def fileTypeDirectory : Nat := 1

/-- `MAX_FILES_PER_DIR * 2`, the size of the entry table. -/
def maxEntries : Nat := maxFilesPerDir * 2

/-! ### Codes of `error_codes.h` and `file_system.h` -/

def errSuccess : Int := 0
def errNullPointer : Int := -1
def errOutOfMemory : Int := -3
def errFileNotFound : Int := -20
def errFileExists : Int := -21
def errFileTooLarge : Int := -22
def errNotADirectory : Int := -27
def errFileNameTooLong : Int := -29
def errFileCorrupted : Int := -30
def errInvalidFileHandle : Int := -31
def errNotAFile : Int := -32
def errInvalidDirectory : Int := -33
def errDirectoryNotEmpty : Int := -34
def errFileSystemFull : Int := -35
def errOutOfSpace : Int := -36
def errFileSystemInitFailed : Int := -37

/-- `File`; `name` is the NUL-terminated `char name[32]`. -/
structure File where
  name : String
  size : BitVec 32
  type : Nat
  blocks : Nat → BitVec 32
  blockCount : BitVec 32
  parentDir : BitVec 32
  used : Bool

/-- A `File` cleared by `memset`. -/
def File.zero : File := ⟨"", 0, 0, fun _ => 0, 0, 0, false⟩

/-- `FileSystem`; `dataBlocks a` is the byte at `data_blocks + a`. -/
structure FileSystem where
  files : Nat → File
  fileCount : BitVec 32
  nextFreeBlock : BitVec 32
  dataBlocks : Nat → BitVec 8
  totalBlocks : BitVec 32

/-- A call's result, the state after it, and the codes it passed to `HANDLE_ERROR`. -/
structure Outcome (α : Type) where
  result : α
  state : FileSystem
  errors : List Int

/-- `memcpy (dst + d, src + o, n)`. -/
def memcpy (dst : Nat → BitVec 8) (d : Nat) (src : Nat → BitVec 8) (o n : Nat) :
    Nat → BitVec 8 :=
  fun a => if d ≤ a ∧ a < d + n then src (o + (a - d)) else dst a

/-! ## Helpers -/

/-- `find_free_entry`: the first unused entry. -/
def findFreeEntry (s : FileSystem) : Option Nat :=
  (List.range maxEntries).find? fun i => !(s.files i).used

/-- `allocate_blocks (fs, blocks + base, count)`: `none` is `FS_ERROR_NO_SPACE`; otherwise
the array with `blocks [base + i] = next_free_block++` for `i < count`, and the cursor. -/
def allocateBlocks (s : FileSystem) (blocks : Nat → BitVec 32) (base : Nat) (count : BitVec 32) :
    Option ((Nat → BitVec 32) × BitVec 32) :=
  if s.nextFreeBlock + count > s.totalBlocks then none
  else some ((List.range count.toNat).foldl
    (fun (acc : (Nat → BitVec 32) × BitVec 32) i => (setAt acc.1 (base + i) acc.2, acc.2 + 1))
    (blocks, s.nextFreeBlock))

/-- `free_blocks`: rewind the cursor if the freed range ends at it. -/
def freeBlocks (s : FileSystem) (blocks : Nat → BitVec 32) (count : BitVec 32) : FileSystem :=
  if count > 0 ∧ blocks (count - 1).toNat + 1 = s.nextFreeBlock then
    { s with nextFreeBlock := blocks 0 }
  else s

/-- The check of `parent_dir` that `fs_create_file`, `fs_create_directory` and
`fs_find_file` share: `some code` is the error it reports. -/
def parentError (s : FileSystem) (parentDir : BitVec 32) : Option Int :=
  if parentDir = 0 then none
  else if maxEntries ≤ parentDir.toNat ∨ !(s.files parentDir.toNat).used then
    some errInvalidDirectory
  else if (s.files parentDir.toNat).type ≠ fileTypeDirectory then some errNotADirectory
  else none

/-! ## Functions of `file_system.c` -/

/-- `fs_find_file (fs, name, parent_dir)`. -/
def fsFindFile (s : FileSystem) (name : Option String) (parentDir : BitVec 32) : Outcome Int :=
  match name with
  | none => ⟨errNullPointer, s, [errNullPointer]⟩
  | some name =>
    match parentError s parentDir with
    | some e => ⟨e, s, [e]⟩
    | none =>
      match (List.range maxEntries).find? (fun i => (s.files i).used ∧
          (s.files i).parentDir = parentDir ∧ (s.files i).name = name) with
      | some i => ⟨i, s, []⟩
      | none => ⟨errFileNotFound, s, []⟩

/-- `fs_create_file` and `fs_create_directory`, which differ only in the `type` they
store. -/
def createEntry (type : Nat) (s : FileSystem) (name : Option String) (parentDir : BitVec 32) :
    Outcome Int :=
  match name with
  | none => ⟨errNullPointer, s, [errNullPointer]⟩
  | some name =>
    if maxFilenameLength ≤ name.utf8ByteSize then
      ⟨errFileNameTooLong, s, [errFileNameTooLong]⟩
    else match parentError s parentDir with
    | some e => ⟨e, s, [e]⟩
    | none =>
      let found := fsFindFile s (some name) parentDir
      if 0 ≤ found.result then ⟨errFileExists, s, found.errors ++ [errFileExists]⟩
      else match findFreeEntry s with
      | none => ⟨errFileSystemFull, s, found.errors ++ [errFileSystemFull]⟩
      | some i =>
        ⟨i, { s with
          files := setAt s.files i
            { File.zero with name := name, type := type, parentDir := parentDir, used := true }
          fileCount := s.fileCount + 1 }, found.errors⟩

/-- `fs_create_file (fs, name, parent_dir)`. -/
def fsCreateFile (s : FileSystem) (name : Option String) (parentDir : BitVec 32) : Outcome Int :=
  createEntry fileTypeFile s name parentDir

/-- `fs_create_directory (fs, name, parent_dir)`. -/
def fsCreateDirectory (s : FileSystem) (name : Option String) (parentDir : BitVec 32) :
    Outcome Int :=
  createEntry fileTypeDirectory s name parentDir

/-- The copy loop of `fs_read_file`: `bytes_read`, `current_offset`, the buffer, and
whether it broke on `ERR_FILE_CORRUPTED`. -/
def readLoop (f : File) (totalBlocks : BitVec 32) (mem : Nat → BitVec 8) (readSize : BitVec 32) :
    Nat → BitVec 32 → BitVec 32 → (Nat → BitVec 8) →
      BitVec 32 × BitVec 32 × (Nat → BitVec 8) × Bool
  | 0, bytesRead, cur, buffer => (bytesRead, cur, buffer, false)
  | fuel + 1, bytesRead, cur, buffer =>
    if bytesRead < readSize ∧ cur < f.size then
      let blockIndex := cur / blockSize
      let blockOffset := cur % blockSize
      let bytesInBlock := blockSize - blockOffset
      let toRead :=
        if readSize - bytesRead < bytesInBlock then readSize - bytesRead else bytesInBlock
      if blockIndex ≥ f.blockCount then (bytesRead, cur, buffer, true)
      else
        let blockNum := f.blocks blockIndex.toNat
        if blockNum ≥ totalBlocks then (bytesRead, cur, buffer, true)
        else
          readLoop f totalBlocks mem readSize fuel (bytesRead + toRead) (cur + toRead)
            (memcpy buffer bytesRead.toNat mem ((blockNum * blockSize).toNat + blockOffset.toNat)
              toRead.toNat)
    else (bytesRead, cur, buffer, false)

/-- `fs_read_file (fs, file_index, buffer, size, offset)`: the result and the buffer. -/
def fsReadFile (s : FileSystem) (fileIndex : BitVec 32) (buffer : Option (Nat → BitVec 8))
    (size offset : BitVec 32) : Outcome (Int × Option (Nat → BitVec 8)) :=
  match buffer with
  | none => ⟨(errNullPointer, none), s, [errNullPointer]⟩
  | some buffer =>
    if size = 0 then ⟨(0, some buffer), s, []⟩
    else if maxEntries ≤ fileIndex.toNat ∨ !(s.files fileIndex.toNat).used then
      ⟨(errInvalidFileHandle, some buffer), s, [errInvalidFileHandle]⟩
    else
      let f := s.files fileIndex.toNat
      if f.type ≠ fileTypeFile then ⟨(errNotAFile, some buffer), s, [errNotAFile]⟩
      else if offset ≥ f.size then ⟨(0, some buffer), s, []⟩
      else
        let readSize := if offset + size > f.size then f.size - offset else size
        let (bytesRead, _, buffer, corrupted) :=
          readLoop f s.totalBlocks s.dataBlocks readSize readSize.toNat 0 offset buffer
        ⟨(bytesRead.toInt, some buffer), s, if corrupted then [errFileCorrupted] else []⟩

/-- The copy loop of `fs_write_file`: `bytes_written`, `current_offset`, the data
memory, and whether it broke on `ERR_FILE_CORRUPTED`. -/
def writeLoop (f : File) (totalBlocks : BitVec 32) (data : Nat → BitVec 8) (size : BitVec 32) :
    Nat → BitVec 32 → BitVec 32 → (Nat → BitVec 8) →
      BitVec 32 × BitVec 32 × (Nat → BitVec 8) × Bool
  | 0, written, cur, mem => (written, cur, mem, false)
  | fuel + 1, written, cur, mem =>
    if written < size then
      let blockIndex := cur / blockSize
      let blockOffset := cur % blockSize
      let bytesInBlock := blockSize - blockOffset
      let toWrite := if size - written < bytesInBlock then size - written else bytesInBlock
      if blockIndex ≥ f.blockCount then (written, cur, mem, true)
      else
        let blockNum := f.blocks blockIndex.toNat
        if blockNum ≥ totalBlocks then (written, cur, mem, true)
        else
          writeLoop f totalBlocks data size fuel (written + toWrite) (cur + toWrite)
            (memcpy mem ((blockNum * blockSize).toNat + blockOffset.toNat) data written.toNat
              toWrite.toNat)
    else (written, cur, mem, false)

/-- The growth step of `fs_write_file`: allocate the blocks from `block_count` up to
`required_blocks`. `none` is `ERR_OUT_OF_SPACE`; otherwise the entry and the cursor. -/
def growFile (s : FileSystem) (f : File) (requiredBlocks : BitVec 32) :
    Option (File × BitVec 32) :=
  if requiredBlocks > f.blockCount then
    match allocateBlocks s f.blocks f.blockCount.toNat (requiredBlocks - f.blockCount) with
    | none => none
    | some (blocks, next) => some ({ f with blocks := blocks, blockCount := requiredBlocks }, next)
  else some (f, s.nextFreeBlock)

/-- `fs_write_file (fs, file_index, data, size, offset)`. -/
def fsWriteFile (s : FileSystem) (fileIndex : BitVec 32) (data : Option (Nat → BitVec 8))
    (size offset : BitVec 32) : Outcome Int :=
  match data with
  | none => ⟨errNullPointer, s, [errNullPointer]⟩
  | some data =>
    if size = 0 then ⟨0, s, []⟩
    else if maxEntries ≤ fileIndex.toNat ∨ !(s.files fileIndex.toNat).used then
      ⟨errInvalidFileHandle, s, [errInvalidFileHandle]⟩
    else
      let f := s.files fileIndex.toNat
      if f.type ≠ fileTypeFile then ⟨errNotAFile, s, [errNotAFile]⟩
      else
        let requiredSize := offset + size
        let requiredBlocks := (requiredSize + blockSize - 1) / blockSize
        if requiredBlocks > maxBlocksPerFile then ⟨errFileTooLarge, s, [errFileTooLarge]⟩
        else
          match growFile s f requiredBlocks with
          | none => ⟨errOutOfSpace, s, [errOutOfSpace]⟩
          | some (f, next) =>
            let (written, cur, mem, corrupted) :=
              writeLoop f s.totalBlocks data size size.toNat 0 offset s.dataBlocks
            let f := if cur > f.size then { f with size := cur } else f
            ⟨written.toInt,
              { s with
                files := setAt s.files fileIndex.toNat f
                nextFreeBlock := next
                dataBlocks := mem },
              if corrupted then [errFileCorrupted] else []⟩

/-- `fs_delete (fs, file_index)`. -/
def fsDelete (s : FileSystem) (fileIndex : BitVec 32) : Outcome Int :=
  if maxEntries ≤ fileIndex.toNat ∨ !(s.files fileIndex.toNat).used then
    ⟨errInvalidFileHandle, s, [errInvalidFileHandle]⟩
  else
    let f := s.files fileIndex.toNat
    if f.type = fileTypeDirectory ∧ (List.range maxEntries).any
        (fun i => (s.files i).used ∧ (s.files i).parentDir = fileIndex) then
      ⟨errDirectoryNotEmpty, s, [errDirectoryNotEmpty]⟩
    else
      let s1 := freeBlocks s f.blocks f.blockCount
      ⟨errSuccess, { s1 with
        files := setAt s1.files fileIndex.toNat { f with used := false }
        fileCount := s1.fileCount - 1 }, []⟩

/-- The common tail of `fs_init` and `fs_format`: create the root directory. -/
def createRoot (s : FileSystem) : Outcome Int :=
  let root := fsCreateDirectory s (some "/") 0
  if root.result < 0 then
    ⟨errFileSystemInitFailed, root.state, root.errors ++ [errFileSystemInitFailed]⟩
  else ⟨errSuccess, root.state, root.errors⟩

/-- `fs_init (fs, data_memory, memory_size)`. -/
def fsInit (s : FileSystem) (dataMemory : Option (Nat → BitVec 8)) (memorySize : BitVec 32) :
    Outcome Int :=
  match dataMemory with
  | none => ⟨errNullPointer, s, [errNullPointer]⟩
  | some mem =>
    if memorySize < blockSize then ⟨errNullPointer, s, [errNullPointer]⟩
    else
      let s1 := { s with
        files := fun _ => File.zero
        fileCount := 0
        dataBlocks := mem
        totalBlocks := memorySize / blockSize
        nextFreeBlock := 0 }
      if s1.totalBlocks = 0 then ⟨errOutOfMemory, s1, [errOutOfMemory]⟩
      else createRoot s1

/-- `fs_format (fs)`. -/
def fsFormat (s : FileSystem) : Outcome Int :=
  createRoot { s with files := fun _ => File.zero, fileCount := 0, nextFreeBlock := 0 }

/-! ## Runs -/

/-- The calls that change the file system; `fs_read_file` and `fs_find_file` only read
it. -/
inductive Op where
  | createFile (name : Option String) (parentDir : BitVec 32)
  | createDirectory (name : Option String) (parentDir : BitVec 32)
  | writeFile (fileIndex : BitVec 32) (data : Option (Nat → BitVec 8)) (size offset : BitVec 32)
  | delete (fileIndex : BitVec 32)
  | format

/-- The state after one call. -/
def runOp (s : FileSystem) : Op → FileSystem
  | .createFile name parentDir => (fsCreateFile s name parentDir).state
  | .createDirectory name parentDir => (fsCreateDirectory s name parentDir).state
  | .writeFile fileIndex data size offset => (fsWriteFile s fileIndex data size offset).state
  | .delete fileIndex => (fsDelete s fileIndex).state
  | .format => (fsFormat s).state

def runOps (s : FileSystem) (ops : List Op) : FileSystem := ops.foldl runOp s

/-- The states a caller reaches: a successful `fs_init`, then any calls with any
arguments. -/
inductive Reachable : FileSystem → Prop
  | init (s : FileSystem) (mem : Nat → BitVec 8) (memorySize : BitVec 32)
      (h : (fsInit s (some mem) memorySize).result = errSuccess) :
      Reachable (fsInit s (some mem) memorySize).state
  | step {s : FileSystem} (op : Op) : Reachable s → Reachable (runOp s op)

theorem Reachable.runOps {s : FileSystem} (h : Reachable s) (ops : List Op) :
    Reachable (runOps s ops) := by
  induction ops generalizing s with
  | nil => exact h
  | cons op ops ih => exact ih (h.step op)

/-- The static `FileSystem` of a caller before `fs_init`: all zero. -/
def zeroFs : FileSystem := ⟨fun _ => File.zero, 0, 0, fun _ => 0, 0⟩

end MiniKernel.Fs
