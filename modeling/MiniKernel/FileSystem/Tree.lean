import MiniKernel.FileSystem.Blocks

/-! The directory tree of `file_system.c`. Entry 0 is the root "/", its own parent; every
used entry names a used directory as `parent_dir`, and the links lead to the root.
`fs_create_file` and `fs_create_directory` only hang a fresh slot under a used directory,
and `fs_delete` only takes off a leaf: never the root, whose self-link counts as a child
in the emptiness check. The tree reads only an entry's name, type, parent and use, which
`fs_write_file` never changes, so it is stated on that view of the table. -/

namespace MiniKernel.Fs

/-- What the directory tree reads of an entry. -/
structure Link where
  name : String
  type : Nat
  parentDir : BitVec 32
  used : Bool

/-- The entry's place in the tree. -/
def File.link (f : File) : Link := ⟨f.name, f.type, f.parentDir, f.used⟩

/-- The tree view of a table. -/
def links (files : Nat → File) (i : Nat) : Link := (files i).link

/-- The entry that the `parent_dir` of entry `i` names. -/
def parentOf (l : Nat → Link) (i : Nat) : Nat := (l i).parentDir.toNat

/-- The number of used entries of a table. -/
def usedCount (l : Nat → Link) : Nat :=
  ((List.range maxEntries).filter fun i => (l i).used).length

@[simp] theorem links_setAt (files : Nat → File) (k : Nat) (f : File) :
    links (setAt files k f) = setAt (links files) k f.link := by
  funext i; by_cases h : i = k <;> simp [links, setAt, h]

@[simp] theorem parentOf_setAt_same (l : Nat → Link) (k : Nat) (x : Link) :
    parentOf (setAt l k x) k = x.parentDir.toNat := by
  simp [parentOf]

theorem parentOf_setAt_ne (l : Nat → Link) {i k : Nat} (x : Link) (h : i ≠ k) :
    parentOf (setAt l k x) i = parentOf l i := by
  simp [parentOf, setAt_ne _ _ h]

/-- Rewriting entry `k` changes the count by what its use flag did. -/
theorem usedCount_setAt (l : Nat → Link) {k : Nat} (hk : k < maxEntries) (x : Link) :
    usedCount (setAt l k x) + (if (l k).used then 1 else 0) =
      usedCount l + (if x.used then 1 else 0) := by
  suffices ∀ n, ((List.range n).filter fun i => (setAt l k x i).used).length +
      (if k < n ∧ (l k).used then 1 else 0) =
      ((List.range n).filter fun i => (l i).used).length + (if k < n ∧ x.used then 1 else 0) by
    simpa [hk] using this maxEntries
  intro n
  induction n with
  | zero => simp
  | succ n ih =>
    simp only [List.range_succ, List.filter_append, List.length_append, List.filter_cons,
      List.filter_nil]
    by_cases h : n = k
    · subst h
      simp only [setAt_same, lt_irrefl, false_and, if_false, Nat.add_zero, Nat.lt_succ_self,
        true_and] at ih ⊢
      rw [ih]
      split <;> split <;> simp
    · rw [setAt_ne _ _ h]
      have : k < n + 1 ↔ k < n := by omega
      simp only [this] at *
      split <;> simp only [List.length_cons, List.length_nil] <;> omega

theorem usedCount_le (l : Nat → Link) : usedCount l ≤ maxEntries :=
  (List.length_filter_le _ _).trans (List.length_range _).le

/-- The directory tree of a table `l` with counter `fileCount`. The rank, lowered by the
link of every used entry but the root, is what rules out cycles. -/
structure Tree (l : Nat → Link) (fileCount : BitVec 32) : Prop where
  root : l 0 = ⟨"/", fileTypeDirectory, 0, true⟩
  unused_past : ∀ i, maxEntries ≤ i → (l i).used = false
  parent : ∀ i, (l i).used →
    (l (parentOf l i)).used ∧ (l (parentOf l i)).type = fileTypeDirectory
  rank : ∃ r : Nat → Nat, ∀ i, (l i).used → i ≠ 0 → r (parentOf l i) < r i
  unique : ∀ i j, (l i).used → (l j).used → (l i).parentDir = (l j).parentDir →
    (l i).name = (l j).name → i = j
  count : fileCount.toNat = usedCount l

section Steps

variable {l : Nat → Link} {c : BitVec 32}

theorem Tree.lt_of_used (h : Tree l c) {i : Nat} (hi : (l i).used) : i < maxEntries :=
  Nat.lt_of_not_le fun hle => by simp [h.unused_past i hle] at hi

theorem Tree.parentOf_root (h : Tree l c) : parentOf l 0 = 0 := by
  simp [parentOf, h.root]

/-- A used entry's parent is not the unused slot `k`. -/
theorem Tree.parentOf_ne (h : Tree l c) {i k : Nat} (hi : (l i).used)
    (hk : (l k).used = false) : parentOf l i ≠ k := by
  intro e; have := (h.parent i hi).1; rw [e, hk] at this; cases this

/-- Storing a used entry `x` in the free slot `k`, under a used directory that holds no
entry of its name, keeps the tree and counts one more entry. -/
theorem Tree.link (h : Tree l c) {k : Nat} {x : Link} (hk : k < maxEntries)
    (hfree : (l k).used = false) (hx : x.used = true)
    (hp : (l x.parentDir.toNat).used ∧ (l x.parentDir.toNat).type = fileTypeDirectory)
    (hfresh : ∀ j, (l j).used → (l j).parentDir = x.parentDir → (l j).name = x.name → False) :
    Tree (setAt l k x) (c + 1) := by
  have hk0 : 0 ≠ k := fun e => by subst e; simp [h.root] at hfree
  have hpk : x.parentDir.toNat ≠ k := fun e => by rw [e, hfree] at hp; cases hp.1
  obtain ⟨r, hr⟩ := h.rank
  refine ⟨by rw [setAt_ne _ _ hk0]; exact h.root,
    fun i hi => by rw [setAt_ne _ _ (by omega)]; exact h.unused_past i hi,
    fun i hi => ?parent, ⟨setAt r k (r x.parentDir.toNat + 1), fun i hi hi0 => ?rank⟩,
    fun i j hi hj hp hn => ?unique, ?count⟩
  case parent =>
    by_cases hik : i = k
    · subst hik; rw [parentOf_setAt_same, setAt_ne _ _ hpk]; exact hp
    · rw [setAt_ne _ _ hik] at hi
      rw [parentOf_setAt_ne _ _ hik, setAt_ne _ _ (h.parentOf_ne hi hfree)]
      exact h.parent i hi
  case rank =>
    by_cases hik : i = k
    · subst hik; rw [parentOf_setAt_same, setAt_ne _ _ hpk, setAt_same]; omega
    · rw [setAt_ne _ _ hik] at hi
      rw [parentOf_setAt_ne _ _ hik, setAt_ne _ _ (h.parentOf_ne hi hfree), setAt_ne _ _ hik]
      exact hr i hi hi0
  case unique =>
    by_cases hik : i = k <;> by_cases hjk : j = k
    · rw [hik, hjk]
    · subst hik; rw [setAt_same, setAt_ne _ _ hjk] at *
      exact (hfresh j hj hp.symm hn.symm).elim
    · subst hjk; rw [setAt_same, setAt_ne _ _ hik] at *
      exact (hfresh i hi hp hn).elim
    · rw [setAt_ne _ _ hik, setAt_ne _ _ hjk] at *
      exact h.unique i j hi hj hp hn
  case count =>
    have e := usedCount_setAt l hk x
    have := usedCount_le l
    rw [hfree, hx, if_neg (by decide), if_pos rfl] at e
    rw [BitVec.toNat_add, h.count, show (1 : BitVec 32).toNat = 1 from rfl,
      Nat.mod_eq_of_lt (by simp only [maxEntries, maxFilesPerDir] at this; omega)]
    omega

/-- Marking the used leaf `k` unused keeps the tree and counts one entry less. -/
theorem Tree.unlink (h : Tree l c) {k : Nat} {x : Link} (hk : k < maxEntries)
    (hused : (l k).used = true) (hleaf : ∀ i, (l i).used → parentOf l i ≠ k)
    (hx : x.used = false) : Tree (setAt l k x) (c - 1) := by
  have hk0 : 0 ≠ k := by
    have := hleaf 0 (by simp [h.root]); rwa [h.parentOf_root] at this
  have hne : ∀ {i}, (setAt l k x i).used → i ≠ k := fun hi e => by subst e; simp [hx] at hi
  obtain ⟨r, hr⟩ := h.rank
  refine ⟨by rw [setAt_ne _ _ hk0]; exact h.root,
    fun i hi => by rw [setAt_ne _ _ (by omega)]; exact h.unused_past i hi,
    fun i hi => ?parent, ⟨r, fun i hi hi0 => ?rank⟩, fun i j hi hj => ?unique, ?count⟩
  case parent =>
    have hik := hne hi
    rw [setAt_ne _ _ hik] at hi
    rw [parentOf_setAt_ne _ _ hik, setAt_ne _ _ (hleaf i hi)]
    exact h.parent i hi
  case rank =>
    have hik := hne hi
    rw [setAt_ne _ _ hik] at hi
    rw [parentOf_setAt_ne _ _ hik]
    exact hr i hi hi0
  case unique =>
    rw [setAt_ne _ _ (hne hi), setAt_ne _ _ (hne hj)] at *
    exact h.unique i j hi hj
  case count =>
    have e := usedCount_setAt l hk x
    rw [hused, hx, if_pos rfl, if_neg (by decide)] at e
    have hc : 1 ≤ c.toNat := by rw [h.count]; omega
    rw [BitVec.toNat_sub_of_le (by simpa [BitVec.le_def] using hc), h.count,
      show (1 : BitVec 32).toNat = 1 from rfl]
    omega

/-- Following `parent_dir` from a used entry reaches the root. -/
theorem Tree.reaches_root (h : Tree l c) {i : Nat} (hi : (l i).used) :
    ∃ n, (parentOf l)^[n] i = 0 := by
  obtain ⟨r, hr⟩ := h.rank
  generalize hri : r i = m
  induction m using Nat.strong_induction_on generalizing i with
  | _ m ih =>
    by_cases h0 : i = 0
    · exact ⟨0, h0⟩
    · obtain ⟨n, hn⟩ := ih _ (hri ▸ hr i hi h0) (h.parent i hi).1 rfl
      exact ⟨n + 1, hn⟩

/-- Every entry on the way up from a used entry is used. -/
theorem Tree.iterate_used (h : Tree l c) {i : Nat} (hi : (l i).used) (n : Nat) :
    (l ((parentOf l)^[n] i)).used := by
  induction n with
  | zero => exact hi
  | succ n ih => rw [Function.iterate_succ_apply']; exact (h.parent _ ih).1

/-- The only cycle of links is the root's self-link. -/
theorem Tree.no_cycle (h : Tree l c) {i : Nat} (hi : (l i).used) (h0 : i ≠ 0) {n : Nat}
    (hn : 0 < n) : (parentOf l)^[n] i ≠ i := by
  obtain ⟨r, hr⟩ := h.rank
  have below : ∀ m, (parentOf l)^[m + 1] i = 0 ∨ r ((parentOf l)^[m + 1] i) < r i := by
    intro m
    induction m with
    | zero => exact .inr (hr i hi h0)
    | succ m ih =>
      rw [Function.iterate_succ_apply']
      by_cases hz : (parentOf l)^[m + 1] i = 0
      · exact .inl (by rw [hz, h.parentOf_root])
      · exact .inr ((hr _ (h.iterate_used hi _) hz).trans (ih.resolve_left hz))
  cases n with
  | zero => cases hn
  | succ m =>
    intro e
    rcases below m with e' | e' <;> rw [e] at e'
    · exact h0 e'
    · exact lt_irrefl _ e'

end Steps

/-! ## The calls -/

/-- Growing an entry keeps its place in the tree. -/
theorem growFile_link {s : FileSystem} {f f' : File} {requiredBlocks next : BitVec 32}
    (hg : growFile s f requiredBlocks = some (f', next)) : f'.link = f.link := by
  unfold growFile at hg
  split_ifs at hg
  · split at hg
    · cases hg
    · cases hg; rfl
  · cases hg; rfl

section Calls

variable {s : FileSystem}

/-- A parent that passes the check of `parent_dir` is a used directory. -/
theorem Tree.parent_of_parentError (h : Tree (links s.files) s.fileCount) {p : BitVec 32}
    (hp : parentError s p = none) :
    (links s.files p.toNat).used ∧ (links s.files p.toNat).type = fileTypeDirectory := by
  unfold parentError at hp
  split_ifs at hp with h0 h1 h2
  · subst h0; rw [show (0 : BitVec 32).toNat = 0 from rfl, h.root]; exact ⟨rfl, rfl⟩
  · simp only [not_or, Bool.not_eq_true', Bool.not_eq_false] at h1
    exact ⟨h1.2, by simpa using h2⟩

theorem Tree.createEntry (h : Tree (links s.files) s.fileCount) (type : Nat)
    (name : Option String) (parentDir : BitVec 32) :
    Tree (links (createEntry type s name parentDir).state.files)
      (createEntry type s name parentDir).state.fileCount := by
  rcases createEntry_cases type s name parentDir with e | ⟨i, n, hi, -, hp, hf, -, e⟩ <;>
    rw [e]
  · exact h
  obtain ⟨hik, hfree⟩ := findFreeEntry_spec hi
  rw [links_setAt]
  refine h.link hik hfree rfl (h.parent_of_parentError hp) fun j hj hjp hjn => ?_
  have := List.find?_eq_none.1 hf j (List.mem_range.2 (h.lt_of_used hj))
  simp only [links, File.link] at hj hjp hjn
  simp [hj, hjp, hjn] at this

theorem Tree.fsWriteFile (h : Tree (links s.files) s.fileCount) (fileIndex : BitVec 32)
    (data : Option (Nat → BitVec 8)) (size offset : BitVec 32) :
    Tree (links (fsWriteFile s fileIndex data size offset).state.files)
      (fsWriteFile s fileIndex data size offset).state.fileCount := by
  rcases fsWriteFile_state s fileIndex data size offset with e | ⟨f, next, size', mem, hg, -, e⟩ <;>
    rw [e]
  · exact h
  have hl := growFile_link hg
  have : File.link { f with size := size' } = links s.files fileIndex.toNat := hl
  rw [links_setAt, this, setAt_eq_self]
  exact h

theorem Tree.fsDelete (h : Tree (links s.files) s.fileCount) (fileIndex : BitVec 32) :
    Tree (links (fsDelete s fileIndex).state.files) (fsDelete s fileIndex).state.fileCount := by
  rcases fsDelete_state s fileIndex with e | ⟨hk, hu, hd, e⟩ <;> rw [e]
  · exact h
  simp only [freeBlocks_files, freeBlocks_fileCount, links_setAt]
  refine h.unlink hk hu (fun i hi hik => hd ⟨?_, ?_⟩) rfl
  · have := (h.parent i hi).2; rwa [hik] at this
  · refine List.any_eq_true.2 ⟨i, List.mem_range.2 (h.lt_of_used hi), ?_⟩
    simp only [links, File.link, parentOf] at hi hik
    simp [hi, BitVec.eq_of_toNat_eq hik]

/-- A table whose only used entry is the root. -/
theorem tree_root_only {l : Nat → Link} (h0 : l 0 = ⟨"/", fileTypeDirectory, 0, true⟩)
    (hz : ∀ i, i ≠ 0 → (l i).used = false) : Tree l 1 := by
  have only0 : ∀ {i}, (l i).used → i = 0 := fun {i} hi =>
    by_contra fun hi0 => by rw [hz i hi0] at hi; cases hi
  refine ⟨h0, fun i hi => hz i (by simp only [maxEntries, maxFilesPerDir] at hi; omega),
    fun i hi => ?_, ⟨fun _ => 0, fun i hi hi0 => absurd (only0 hi) hi0⟩,
    fun i j hi hj _ _ => by rw [only0 hi, only0 hj], ?_⟩
  · have hp : parentOf l 0 = 0 := by simp [parentOf, h0]
    rw [only0 hi, hp, h0]; exact ⟨rfl, rfl⟩
  · have : usedCount l = ((List.range maxEntries).filter fun i => i = 0).length := by
      unfold usedCount; congr 1; apply List.filter_congr; intro i _
      by_cases hi : i = 0 <;> simp [hi, h0, hz]
    rw [this]; rfl

/-- The root entry that `fs_init` and `fs_format` create. -/
theorem tree_createRoot (s : FileSystem) (hf : s.files = fun _ => File.zero)
    (hc : s.fileCount = 0) :
    Tree (links (fsCreateDirectory s (some "/") 0).state.files)
      (fsCreateDirectory s (some "/") 0).state.fileCount := by
  have hfind : (List.range maxEntries).find? (fun j => (s.files j).used ∧
      (s.files j).parentDir = 0 ∧ (s.files j).name = "/") = none := by
    simp [hf, File.zero]
  have hfree : findFreeEntry s = some 0 := by rw [findFreeEntry, hf]; rfl
  have e : (fsCreateDirectory s (some "/") 0).state = { s with
      files := setAt s.files 0
        { File.zero with name := "/", type := fileTypeDirectory, parentDir := 0, used := true }
      fileCount := s.fileCount + 1 } := by
    simp only [fsCreateDirectory, createEntry, fsFindFile, parentError, hfind, hfree]
    rfl
  have hz : ∀ i, (links s.files i).used = false := by simp [hf, links, File.link, File.zero]
  rw [e, links_setAt, hc]
  exact tree_root_only (setAt_same _ _ _) fun i hi => by rw [setAt_ne _ _ hi]; exact hz i

theorem tree_fsInit {mem : Nat → BitVec 8} {memorySize : BitVec 32}
    (h : (fsInit s (some mem) memorySize).result = errSuccess) :
    Tree (links (fsInit s (some mem) memorySize).state.files)
      (fsInit s (some mem) memorySize).state.fileCount := by
  rw [fsInit_state h]; exact tree_createRoot _ rfl rfl

theorem tree_fsFormat (s : FileSystem) :
    Tree (links (fsFormat s).state.files) (fsFormat s).state.fileCount := by
  rw [fsFormat, createRoot_state]; exact tree_createRoot _ rfl rfl

theorem Tree.runOp (h : Tree (links s.files) s.fileCount) :
    ∀ op, Tree (links (runOp s op).files) (runOp s op).fileCount
  | .createFile name parentDir => h.createEntry _ name parentDir
  | .createDirectory name parentDir => h.createEntry _ name parentDir
  | .writeFile fileIndex data size offset => h.fsWriteFile fileIndex data size offset
  | .delete fileIndex => h.fsDelete fileIndex
  | .format => tree_fsFormat s

end Calls

theorem Reachable.tree {s : FileSystem} (hs : Reachable s) : Tree (links s.files) s.fileCount := by
  induction hs with
  | init s mem memorySize h => exact tree_fsInit h
  | step op _ ih => exact ih.runOp op

/-- In every reachable state entry 0 is the used root "/", its own parent; every used
entry's `parent_dir` names a used directory of the table; the links lead from every used
entry to the root, and none but the root's comes back to where it started; no two used
entries share parent and name; and `file_count` counts the used entries. -/
theorem reachable_directory_tree {s : FileSystem} (hs : Reachable s) :
    let parent := fun i => (s.files i).parentDir.toNat
    ((s.files 0).used ∧ (s.files 0).name = "/" ∧ (s.files 0).type = fileTypeDirectory ∧
      (s.files 0).parentDir = 0) ∧
    (∀ i, (s.files i).used → parent i < maxEntries ∧ (s.files (parent i)).used ∧
      (s.files (parent i)).type = fileTypeDirectory) ∧
    (∀ i, (s.files i).used → ∃ n, parent^[n] i = 0) ∧
    (∀ i, (s.files i).used → i ≠ 0 → ∀ n, 0 < n → parent^[n] i ≠ i) ∧
    (∀ i j, (s.files i).used → (s.files j).used →
      (s.files i).parentDir = (s.files j).parentDir → (s.files i).name = (s.files j).name →
      i = j) ∧
    s.fileCount.toNat = ((List.range maxEntries).filter fun i => (s.files i).used).length := by
  have h := hs.tree
  have hr := h.root
  simp only [links, File.link, Link.mk.injEq] at hr
  exact ⟨⟨hr.2.2.2, hr.1, hr.2.1, hr.2.2.1⟩,
    fun i hi => ⟨h.lt_of_used (h.parent i hi).1, h.parent i hi⟩,
    fun i hi => h.reaches_root hi, fun i hi h0 n hn => h.no_cycle hi h0 hn, h.unique, h.count⟩

/-- A directory created under "/" after `fs_init`, and a file created in it. -/
theorem nested_directory_tree :
    let s := runOps mounted [.createDirectory (some "d") 0, .createFile (some "f") 1]
    let parent := fun i => (s.files i).parentDir.toNat
    Reachable s ∧
    ((s.files 0).used ∧ (s.files 0).name = "/" ∧ (s.files 0).type = fileTypeDirectory ∧
      (s.files 0).parentDir = 0) ∧
    (∀ i, (s.files i).used → parent i < maxEntries ∧ (s.files (parent i)).used ∧
      (s.files (parent i)).type = fileTypeDirectory) ∧
    (∀ i, (s.files i).used → ∃ n, parent^[n] i = 0) ∧
    (∀ i, (s.files i).used → i ≠ 0 → ∀ n, 0 < n → parent^[n] i ≠ i) ∧
    (∀ i j, (s.files i).used → (s.files j).used →
      (s.files i).parentDir = (s.files j).parentDir → (s.files i).name = (s.files j).name →
      i = j) ∧
    s.fileCount.toNat = ((List.range maxEntries).filter fun i => (s.files i).used).length :=
  ⟨reachable_mounted.runOps _, reachable_directory_tree (reachable_mounted.runOps _)⟩

end MiniKernel.Fs
