import MiniKernel.FileSystem.Blocks

/-! The copy loops of `fs_read_file` and `fs_write_file`.

Proved here:

* `writeLoop_fuel_enough`, `readLoop_fuel_enough`: a pass that does not break copies at
  least one byte, so the `size` passes the model gives a loop run it to its end, as the
  C `while` loop does;
* `writeLoop_spec`: while the positions written stay inside the file's blocks, the
  chunked loop is the byte-wise store `storeBytes` of data byte `k` at the address
  `byteAddress` of file position `offset + k`;
* `readLoop_spec`: the read loop fetches byte `k` of the buffer from that address;
* `write_read_roundtrip`: when the file lists no block twice, a write followed by a read
  of the same range returns the data. The rewind of `free_blocks` is what breaks the
  premise.
-/

namespace MiniKernel.Fs

/-! ## One pass -/

/-- The bytes one pass copies, `bytes_to_write` or `bytes_to_read`: at least one, no more
than is left of the request or of the block, and adding them to the counter does not
wrap. -/
theorem chunk_bounds {done total : BitVec 32} (cur : BitVec 32) (h : done < total) :
    let t := if total - done < blockSize - cur % blockSize then total - done
      else blockSize - cur % blockSize
    0 < t.toNat ∧ t.toNat ≤ total.toNat - done.toNat ∧ cur.toNat % 512 + t.toNat ≤ 512 ∧
      (done + t).toNat = done.toNat + t.toNat := by
  have h0 := BitVec.lt_def.1 h
  have hlt := total.isLt
  have hm := toNat_mod_blockSize cur
  have h1 : (total - done).toNat = total.toNat - done.toNat :=
    BitVec.toNat_sub_of_le (BitVec.le_def.2 (Nat.le_of_lt h0))
  have h2 : (blockSize - cur % blockSize).toNat = 512 - cur.toNat % 512 := by
    have hb : blockSize.toNat = 512 := rfl
    rw [BitVec.toNat_sub_of_le (BitVec.le_def.2 (by rw [hm, hb]; omega)), hm, hb]
  intro t
  have hc : t.toNat = min (total.toNat - done.toNat) (512 - cur.toNat % 512) := by
    simp only [t]
    split_ifs with hc <;> rw [BitVec.lt_def, h1, h2] at hc
    · rw [h1]; omega
    · rw [h2]; omega
  exact ⟨by omega, by omega, by omega, BitVec.toNat_add_of_lt (by omega)⟩

/-- A counter that has not passed its bound and has nothing left has reached it. -/
theorem counter_reached {done req : BitVec 32} (h : done ≤ req) (h' : req.toNat ≤ done.toNat) :
    done = req :=
  BitVec.eq_of_toNat_eq (by have := BitVec.le_def.1 h; omega)

theorem eq_ofNat_of_toNat {cur : BitVec 32} {n : Nat} (hc : cur.toNat = n) :
    cur = BitVec.ofNat 32 n :=
  BitVec.eq_of_toNat_eq (by rw [BitVec.toNat_ofNat, ← hc, Nat.mod_eq_of_lt cur.isLt])

/-- A write loop whose counter has reached the request stops at once, whatever its fuel. -/
theorem writeLoop_done (f : File) (total : BitVec 32) (data : Nat → BitVec 8)
    (size : BitVec 32) (fuel : Nat) (cur : BitVec 32) (mem : Nat → BitVec 8) :
    writeLoop f total data size fuel size cur mem = (size, cur, mem, false) := by
  cases fuel
  · rfl
  · rw [writeLoop.eq_2]
    exact if_neg fun h => Nat.lt_irrefl _ (BitVec.lt_def.1 h)

/-- A read loop whose counter has reached the request stops at once, whatever its fuel. -/
theorem readLoop_done (f : File) (total : BitVec 32) (mem : Nat → BitVec 8)
    (readSize : BitVec 32) (fuel : Nat) (cur : BitVec 32) (buffer : Nat → BitVec 8) :
    readLoop f total mem readSize fuel readSize cur buffer = (readSize, cur, buffer, false) := by
  cases fuel
  · rfl
  · rw [readLoop.eq_2]
    exact if_neg fun h => Nat.lt_irrefl _ (BitVec.lt_def.1 h.1)

/-! ## Fuel -/

theorem writeLoop_fuel_succ {f : File} {total size : BitVec 32} {data : Nat → BitVec 8} :
    ∀ {fuel : Nat} {written cur : BitVec 32} {mem : Nat → BitVec 8}, written ≤ size →
      size.toNat - written.toNat ≤ fuel →
      writeLoop f total data size (fuel + 1) written cur mem =
        writeLoop f total data size fuel written cur mem := by
  intro fuel
  induction fuel with
  | zero =>
    intro written cur mem hw hf
    obtain rfl := counter_reached hw (by omega)
    rw [writeLoop_done, writeLoop_done]
  | succ fuel ih =>
    intro written cur mem hw hf
    rw [writeLoop.eq_2]
    conv_rhs => rw [writeLoop.eq_2]
    dsimp only
    by_cases hlt : written < size
    · obtain ⟨hpos, hle, -, hadd⟩ := chunk_bounds cur hlt
      rw [if_pos hlt, if_pos hlt]
      generalize (if size - written < blockSize - cur % blockSize then size - written
        else blockSize - cur % blockSize) = t at hpos hle hadd ⊢
      split_ifs
      · rfl
      · rfl
      · exact ih (by rw [BitVec.le_def, hadd]; omega) (by rw [hadd]; omega)
    · rw [if_neg hlt, if_neg hlt]

theorem readLoop_fuel_succ {f : File} {total readSize : BitVec 32} {mem : Nat → BitVec 8} :
    ∀ {fuel : Nat} {bytesRead cur : BitVec 32} {buffer : Nat → BitVec 8},
      bytesRead ≤ readSize → readSize.toNat - bytesRead.toNat ≤ fuel →
      readLoop f total mem readSize (fuel + 1) bytesRead cur buffer =
        readLoop f total mem readSize fuel bytesRead cur buffer := by
  intro fuel
  induction fuel with
  | zero =>
    intro bytesRead cur buffer hr hf
    obtain rfl := counter_reached hr (by omega)
    rw [readLoop_done, readLoop_done]
  | succ fuel ih =>
    intro bytesRead cur buffer hr hf
    rw [readLoop.eq_2]
    conv_rhs => rw [readLoop.eq_2]
    dsimp only
    by_cases hlt : bytesRead < readSize ∧ cur < f.size
    · obtain ⟨hpos, hle, -, hadd⟩ := chunk_bounds cur hlt.1
      rw [if_pos hlt, if_pos hlt]
      generalize (if readSize - bytesRead < blockSize - cur % blockSize then readSize - bytesRead
        else blockSize - cur % blockSize) = t at hpos hle hadd ⊢
      split_ifs
      · rfl
      · rfl
      · exact ih (by rw [BitVec.le_def, hadd]; omega) (by rw [hadd]; omega)
    · rw [if_neg hlt, if_neg hlt]

/-- Fuel past `size` changes nothing: the `size` passes the model gives the loop of
`fs_write_file` run it to its end. -/
theorem writeLoop_fuel_enough (f : File) (total : BitVec 32) (data : Nat → BitVec 8)
    (size cur : BitVec 32) (mem : Nat → BitVec 8) {fuel : Nat} (h : size.toNat ≤ fuel) :
    writeLoop f total data size fuel 0 cur mem =
      writeLoop f total data size size.toNat 0 cur mem := by
  induction fuel, h using Nat.le_induction with
  | base => rfl
  | succ fuel hle ih =>
    rw [writeLoop_fuel_succ (BitVec.le_def.2 (Nat.zero_le _)) (by simpa using hle), ih]

theorem readLoop_fuel_enough (f : File) (total : BitVec 32) (mem : Nat → BitVec 8)
    (readSize cur : BitVec 32) (buffer : Nat → BitVec 8) {fuel : Nat}
    (h : readSize.toNat ≤ fuel) :
    readLoop f total mem readSize fuel 0 cur buffer =
      readLoop f total mem readSize readSize.toNat 0 cur buffer := by
  induction fuel, h using Nat.le_induction with
  | base => rfl
  | succ fuel hle ih =>
    rw [readLoop_fuel_succ (BitVec.le_def.2 (Nat.zero_le _)) (by simpa using hle), ih]

/-! ## Where the bytes go -/

/-- The address in the data memory of position `p` of a file:
`blocks [p / BLOCK_SIZE] * BLOCK_SIZE + p % BLOCK_SIZE`. -/
def byteAddress (f : File) (p : Nat) : Nat := (f.blocks (p / 512)).toNat * 512 + p % 512

/-- Positions in one block lie at consecutive addresses. -/
theorem byteAddress_add (f : File) (p i : Nat) (h : p % 512 + i < 512) :
    byteAddress f (p + i) = byteAddress f p + i := by
  have h1 : (p + i) / 512 = p / 512 := by omega
  have h2 : (p + i) % 512 = p % 512 + i := by omega
  rw [byteAddress, byteAddress, h1, h2, Nat.add_assoc]

/-- Distinct positions of a file that lists no block twice have distinct addresses. -/
theorem byteAddress_inj {f : File}
    (hd : ∀ j < f.blockCount.toNat, ∀ k < f.blockCount.toNat, f.blocks j = f.blocks k → j = k)
    {p q : Nat} (hp : p < f.blockCount.toNat * 512) (hq : q < f.blockCount.toNat * 512)
    (h : byteAddress f p = byteAddress f q) : p = q := by
  unfold byteAddress at h
  have hb : (f.blocks (p / 512)).toNat = (f.blocks (q / 512)).toNat := by omega
  have := hd _ (by omega) _ (by omega) (BitVec.eq_of_toNat_eq hb)
  omega

/-- Data byte `k` stored at the address of position `o + k`, for each `k` of `ks` in
turn. -/
def storeBytes (f : File) (data : Nat → BitVec 8) (o : Nat) (mem : Nat → BitVec 8)
    (ks : List Nat) : Nat → BitVec 8 :=
  ks.foldl (fun m k => setAt m (byteAddress f (o + k)) (data k)) mem

theorem storeBytes_append (f : File) (data : Nat → BitVec 8) (o : Nat) (mem : Nat → BitVec 8)
    (ks ks' : List Nat) :
    storeBytes f data o (storeBytes f data o mem ks) ks' = storeBytes f data o mem (ks ++ ks') := by
  simp [storeBytes, List.foldl_append]

theorem storeBytes_of_not_mem {f : File} {data : Nat → BitVec 8} {o : Nat} {a : Nat} :
    ∀ {mem : Nat → BitVec 8} {ks : List Nat}, (∀ k ∈ ks, byteAddress f (o + k) ≠ a) →
      storeBytes f data o mem ks a = mem a
  | _, [], _ => rfl
  | mem, k :: ks, h => by
    rw [storeBytes, List.foldl_cons, ← storeBytes,
      storeBytes_of_not_mem fun j hj => h j (List.mem_cons_of_mem _ hj),
      setAt_ne _ _ (h k (List.mem_cons_self _ _)).symm]

/-- Where the stored positions have distinct addresses, each holds its data byte. -/
theorem storeBytes_at {f : File} {data : Nat → BitVec 8} {o : Nat} :
    ∀ {mem : Nat → BitVec 8} {ks : List Nat},
      (∀ j ∈ ks, ∀ k ∈ ks, byteAddress f (o + j) = byteAddress f (o + k) → j = k) →
      ∀ k ∈ ks, storeBytes f data o mem ks (byteAddress f (o + k)) = data k
  | _, [], _, _, hk => absurd hk (List.not_mem_nil _)
  | mem, j :: ks, hinj, k, hk => by
    rw [storeBytes, List.foldl_cons, ← storeBytes]
    have hinj' := fun a ha b hb => hinj a (List.mem_cons_of_mem j ha) b (List.mem_cons_of_mem j hb)
    by_cases hks : k ∈ ks
    · exact storeBytes_at hinj' k hks
    · have hkj : k = j := by simpa [hks] using hk
      subst hkj
      rw [storeBytes_of_not_mem fun i hi e => hks (hinj i (List.mem_cons_of_mem _ hi) k
        (List.mem_cons_self _ _) e ▸ hi), setAt_same]

/-- One pass of the write loop stores the bytes of its chunk one by one. -/
theorem memcpy_eq_storeBytes (f : File) (data : Nat → BitVec 8) (o : Nat) (mem : Nat → BitVec 8)
    {w t : Nat} (h : (o + w) % 512 + t ≤ 512) :
    memcpy mem (byteAddress f (o + w)) data w t = storeBytes f data o mem (List.range' w t) := by
  induction t with
  | zero =>
    funext a
    unfold memcpy storeBytes
    rw [List.range'_zero, List.foldl_nil, if_neg (by omega)]
  | succ t ih =>
    rw [List.range'_1_concat, ← storeBytes_append, ← ih (by omega)]
    funext a
    simp only [storeBytes, List.foldl_cons, List.foldl_nil, setAt, memcpy]
    rw [show o + (w + t) = o + w + t by omega, byteAddress_add f (o + w) t (by omega)]
    split_ifs <;> first | rfl | omega | (congr 1; omega)

/-- One pass of the read loop copies the bytes of its chunk from their addresses. -/
theorem memcpy_fetch (f : File) (mem buffer : Nat → BitVec 8) (o : Nat) {r t : Nat}
    (h : (o + r) % 512 + t ≤ 512) (k : Nat) :
    memcpy buffer r mem (byteAddress f (o + r)) t k =
      if r ≤ k ∧ k < r + t then mem (byteAddress f (o + k)) else buffer k := by
  unfold memcpy
  split_ifs with hk
  · rw [← byteAddress_add f (o + r) (k - r) (by omega), show o + r + (k - r) = o + k by omega]
  · rfl

/-! ## The loops, pass by pass -/

/-- One pass from position `o + done` of a request of `req` bytes that ends inside the
file's blocks: it does not break, it starts at the address of its position as
`fs_write_file` and `fs_read_file` compute it in `uint32_t`, and moving both counters by
the chunk `t` keeps them in step. -/
theorem pass_inside {f : File} {total req done cur t : BitVec 32} {o : Nat}
    (hb : ∀ j < f.blockCount.toNat, f.blocks j < total) (ht : total.toNat < 2 ^ 23)
    (hbc : f.blockCount.toNat ≤ 8) (hend : o + req.toNat ≤ f.blockCount.toNat * 512)
    (hlt : done < req) (hc : cur.toNat = o + done.toNat) (hle : t.toNat ≤ req.toNat - done.toNat)
    (hadd : (done + t).toNat = done.toNat + t.toNat) :
    ¬cur / blockSize ≥ f.blockCount ∧ ¬f.blocks (cur / blockSize).toNat ≥ total ∧
      (f.blocks (cur / blockSize).toNat * blockSize).toNat + (cur % blockSize).toNat =
        byteAddress f (o + done.toNat) ∧
      done + t ≤ req ∧ (cur + t).toNat = o + (done + t).toNat := by
  have := BitVec.lt_def.1 hlt
  have hi : (cur / blockSize).toNat < f.blockCount.toNat := by
    rw [toNat_div_blockSize]; omega
  have hn := hb _ hi
  refine ⟨by rw [ge_iff_le, BitVec.le_def]; omega, BitVec.not_le.2 hn, ?_,
    by rw [BitVec.le_def, hadd]; omega,
    by rw [BitVec.toNat_add_of_lt (by omega), hc, hadd]; omega⟩
  rw [toNat_mul_blockSize (by have := BitVec.lt_def.1 hn; omega), toNat_mod_blockSize,
    toNat_div_blockSize, ← hc, byteAddress]

/-- From position `o + written`, with the rest of the request inside the file's blocks,
the write loop stores the rest of the data byte by byte and ends at `o + size`. -/
theorem writeLoop_spec {f : File} {total size : BitVec 32} {data : Nat → BitVec 8} {o : Nat}
    (hb : ∀ j < f.blockCount.toNat, f.blocks j < total) (ht : total.toNat < 2 ^ 23)
    (hbc : f.blockCount.toNat ≤ 8) (hend : o + size.toNat ≤ f.blockCount.toNat * 512) :
    ∀ (fuel : Nat) (written cur : BitVec 32) (mem : Nat → BitVec 8), written ≤ size →
      size.toNat - written.toNat ≤ fuel → cur.toNat = o + written.toNat →
      writeLoop f total data size fuel written cur mem =
        (size, BitVec.ofNat 32 (o + size.toNat),
          storeBytes f data o mem (List.range' written.toNat (size.toNat - written.toNat)),
          false) := by
  intro fuel
  induction fuel with
  | zero =>
    intro written cur mem hw hf hc
    obtain rfl := counter_reached hw (by omega)
    rw [writeLoop_done, Nat.sub_self, List.range'_zero, ← eq_ofNat_of_toNat hc]
    rfl
  | succ fuel ih =>
    intro written cur mem hw hf hc
    rw [writeLoop.eq_2]
    dsimp only
    by_cases hlt : written < size
    · obtain ⟨hpos, hle, hblk, hadd⟩ := chunk_bounds cur hlt
      rw [if_pos hlt]
      generalize (if size - written < blockSize - cur % blockSize then size - written
        else blockSize - cur % blockSize) = t at hpos hle hblk hadd ⊢
      obtain ⟨hbi, hbn, haddr, hle', hcur⟩ := pass_inside hb ht hbc hend hlt hc hle hadd
      rw [if_neg hbi, if_neg hbn, haddr, memcpy_eq_storeBytes f data o mem (by omega),
        ih _ _ _ hle' (by rw [hadd]; omega) hcur,
        storeBytes_append, hadd, List.range'_append_1,
        show size.toNat - (written.toNat + t.toNat) + t.toNat = size.toNat - written.toNat by omega]
    · obtain rfl := counter_reached hw (BitVec.le_def.1 (BitVec.not_lt.1 hlt))
      rw [← writeLoop.eq_2, writeLoop_done, Nat.sub_self, List.range'_zero,
        ← eq_ofNat_of_toNat hc]
      rfl

/-- From position `o + bytesRead`, with the rest of the request inside the file's blocks
and its size, the read loop copies byte `k` of the file, for each remaining `k`, from the
address of position `o + k`, and ends at `o + readSize`. -/
theorem readLoop_spec {f : File} {total readSize : BitVec 32} {mem : Nat → BitVec 8} {o : Nat}
    (hb : ∀ j < f.blockCount.toNat, f.blocks j < total) (ht : total.toNat < 2 ^ 23)
    (hbc : f.blockCount.toNat ≤ 8) (hend : o + readSize.toNat ≤ f.blockCount.toNat * 512)
    (hsz : o + readSize.toNat ≤ f.size.toNat) :
    ∀ (fuel : Nat) (bytesRead cur : BitVec 32) (buffer : Nat → BitVec 8),
      bytesRead ≤ readSize → readSize.toNat - bytesRead.toNat ≤ fuel →
      cur.toNat = o + bytesRead.toNat →
      readLoop f total mem readSize fuel bytesRead cur buffer =
        (readSize, BitVec.ofNat 32 (o + readSize.toNat),
          fun k => if bytesRead.toNat ≤ k ∧ k < readSize.toNat then mem (byteAddress f (o + k))
            else buffer k, false) := by
  intro fuel
  induction fuel with
  | zero =>
    intro bytesRead cur buffer hr hf hc
    obtain rfl := counter_reached hr (by omega)
    rw [readLoop_done, ← eq_ofNat_of_toNat hc]
    congr
    funext k; rw [if_neg (by omega)]
  | succ fuel ih =>
    intro bytesRead cur buffer hr hf hc
    rw [readLoop.eq_2]
    dsimp only
    by_cases hlt : bytesRead < readSize
    · obtain ⟨hpos, hle, hblk, hadd⟩ := chunk_bounds cur hlt
      have := BitVec.lt_def.1 hlt
      rw [if_pos ⟨hlt, BitVec.lt_def.2 (by omega)⟩]
      generalize (if readSize - bytesRead < blockSize - cur % blockSize then readSize - bytesRead
        else blockSize - cur % blockSize) = t at hpos hle hblk hadd ⊢
      obtain ⟨hbi, hbn, haddr, hle', hcur⟩ := pass_inside hb ht hbc hend hlt hc hle hadd
      rw [if_neg hbi, if_neg hbn, haddr, ih _ _ _ hle' (by rw [hadd]; omega) hcur]
      congr
      funext k
      rw [hadd, memcpy_fetch f mem buffer o (by omega) k]
      split_ifs <;> first | rfl | omega
    · obtain rfl := counter_reached hr (BitVec.le_def.1 (BitVec.not_lt.1 hlt))
      rw [← readLoop.eq_2, readLoop_done, ← eq_ofNat_of_toNat hc]
      congr
      funext k; rw [if_neg (by omega)]

/-! ## Write, then read -/

/-- `required_blocks` without a wrap of `offset + size + BLOCK_SIZE - 1`. -/
theorem requiredBlocks_toNat (offset size : BitVec 32)
    (h : offset.toNat + size.toNat + 511 < 2 ^ 32) :
    ((offset + size + blockSize - 1) / blockSize).toNat =
      (offset.toNat + size.toNat + 511) / 512 := by
  simp only [blockSize, bv_toNat, Nat.reduceMod, Nat.reducePow]
  omega

/-- Growing keeps the entry's size, type and use, and reaches `required_blocks`. -/
theorem growFile_some {s : FileSystem} {f f' : File} {requiredBlocks next : BitVec 32}
    (hg : growFile s f requiredBlocks = some (f', next)) :
    f'.size = f.size ∧ f'.type = f.type ∧ f'.used = f.used ∧
      requiredBlocks.toNat ≤ f'.blockCount.toNat := by
  unfold growFile at hg
  split_ifs at hg with hgt
  · split at hg
    · cases hg
    · cases hg
      exact ⟨rfl, rfl, rfl, le_rfl⟩
  · cases hg
    exact ⟨rfl, rfl, rfl, BitVec.le_def.1 (BitVec.not_lt.1 hgt)⟩

theorem le_raised_size (f : File) {p : Nat} (hp : p < 2 ^ 32) :
    p ≤ (if BitVec.ofNat 32 p > f.size then BitVec.ofNat 32 p else f.size).toNat := by
  split_ifs with h
  · simp; omega
  · simp only [gt_iff_lt, BitVec.lt_def, BitVec.toNat_ofNat] at h; omega

section WritePath

variable {s : FileSystem} {fileIndex : BitVec 32} (hi : fileIndex.toNat < maxEntries)
  (hu : (s.files fileIndex.toNat).used) (ht : (s.files fileIndex.toNat).type = fileTypeFile)
  {size offset : BitVec 32} (hn : size ≠ 0) (data : Nat → BitVec 8)

include hi hu ht hn in
/-- The path of `fs_write_file` on which `allocate_blocks` fails. -/
theorem fsWriteFile_out_of_space
    (hr : (offset + size + blockSize - 1) / blockSize ≤ maxBlocksPerFile)
    (hg : growFile s (s.files fileIndex.toNat) ((offset + size + blockSize - 1) / blockSize) =
      none) :
    fsWriteFile s fileIndex (some data) size offset = ⟨errOutOfSpace, s, [errOutOfSpace]⟩ := by
  unfold fsWriteFile
  dsimp only
  rw [if_neg hn, if_neg (by simp [hu]; omega), if_neg (by simp [ht]),
    if_neg (BitVec.not_lt.2 hr), hg]

include hi hu ht hn in
/-- The path of `fs_write_file` on which the entry grows: the loop writes the whole
request, data byte `k` at the address of position `offset + k`, and the size reaches the
end of the write. -/
theorem fsWriteFile_grown (hB : BlocksWithin s) (ho : offset.toNat + size.toNat ≤ 4096)
    {f1 : File} {next : BitVec 32}
    (hg : growFile s (s.files fileIndex.toNat) ((offset + size + blockSize - 1) / blockSize) =
      some (f1, next)) :
    fsWriteFile s fileIndex (some data) size offset =
      ⟨size.toInt, { s with
        files := setAt s.files fileIndex.toNat { f1 with
          size := if BitVec.ofNat 32 (offset.toNat + size.toNat) > f1.size
            then BitVec.ofNat 32 (offset.toNat + size.toNat) else f1.size }
        nextFreeBlock := next
        dataBlocks := storeBytes f1 data offset.toNat s.dataBlocks (List.range' 0 size.toNat) },
        []⟩ := by
  have hrb := requiredBlocks_toNat offset size (by omega)
  have hr : (offset + size + blockSize - 1) / blockSize ≤ maxBlocksPerFile := by
    rw [BitVec.le_def, hrb]; simp [maxBlocksPerFile]; omega
  obtain ⟨hf1, -⟩ := growFile_within hB (hB.entries _) hr hg
  have hend : offset.toNat + size.toNat ≤ f1.blockCount.toNat * 512 := by
    have := (growFile_some hg).2.2.2; omega
  have hloop : writeLoop f1 s.totalBlocks data size size.toNat 0 offset s.dataBlocks =
      (size, BitVec.ofNat 32 (offset.toNat + size.toNat),
        storeBytes f1 data offset.toNat s.dataBlocks (List.range' 0 size.toNat), false) := by
    simpa using writeLoop_spec hf1.2 hB.total_lt (toNat_le_of_le_maxBlocksPerFile hf1.1) hend
      size.toNat 0 offset s.dataBlocks (BitVec.le_def.2 (Nat.zero_le _)) (by simp) (by simp)
  unfold fsWriteFile
  dsimp only
  rw [if_neg hn, if_neg (by simp [hu]; omega), if_neg (by simp [ht]),
    if_neg (BitVec.not_lt.2 hr), hg]
  dsimp only
  rw [hloop, raised_size]
  rfl

end WritePath

/-- The path of `fs_read_file` inside the file's size and blocks: it returns `size` and
fetches buffer byte `k` from the address of position `offset + k`. -/
theorem fsReadFile_spec {s : FileSystem} (hB : BlocksWithin s) {fileIndex : BitVec 32}
    (hi : fileIndex.toNat < maxEntries) (hu : (s.files fileIndex.toNat).used)
    (ht : (s.files fileIndex.toNat).type = fileTypeFile) {size offset : BitVec 32} (hn : size ≠ 0)
    (hend : offset.toNat + size.toNat ≤ (s.files fileIndex.toNat).blockCount.toNat * 512)
    (hsz : offset.toNat + size.toNat ≤ (s.files fileIndex.toNat).size.toNat)
    (buffer : Nat → BitVec 8) :
    fsReadFile s fileIndex (some buffer) size offset =
      ⟨(size.toInt, some fun k => if k < size.toNat
        then s.dataBlocks (byteAddress (s.files fileIndex.toNat) (offset.toNat + k)) else buffer k),
        s, []⟩ := by
  have hn0 : 0 < size.toNat :=
    Nat.pos_of_ne_zero fun h => hn (BitVec.eq_of_toNat_eq (by simp [h]))
  have hread : readLoop (s.files fileIndex.toNat) s.totalBlocks s.dataBlocks size size.toNat 0
      offset buffer = _ :=
    readLoop_spec (hB.entries fileIndex.toNat).2 hB.total_lt
      (toNat_le_of_le_maxBlocksPerFile (hB.entries fileIndex.toNat).1) hend hsz size.toNat 0
      offset buffer (BitVec.le_def.2 (Nat.zero_le _)) (by simp) (by simp)
  unfold fsReadFile
  dsimp only
  rw [if_neg hn, if_neg (by simp [hu]; omega), if_neg (by simp [ht]),
    if_neg (by rw [ge_iff_le, BitVec.le_def]; omega),
    if_neg (by rw [gt_iff_lt, BitVec.lt_def, BitVec.toNat_add_of_lt (by omega)]; omega), hread]
  simp

/-- In a file that lists no block twice, the byte-wise store of `n` bytes from position
`o` leaves data byte `k` at the address of position `o + k`. -/
theorem storeBytes_range {f : File}
    (hd : ∀ j < f.blockCount.toNat, ∀ k < f.blockCount.toNat, f.blocks j = f.blocks k → j = k)
    {o n : Nat} (hend : o + n ≤ f.blockCount.toNat * 512) (data mem : Nat → BitVec 8) {k : Nat}
    (hk : k < n) : storeBytes f data o mem (List.range' 0 n) (byteAddress f (o + k)) = data k :=
  storeBytes_at (fun j hj i hi e => by
      rw [List.mem_range'_1] at hj hi
      have := byteAddress_inj hd (by omega) (by omega) e
      omega)
    k (List.mem_range'_1.2 ⟨Nat.zero_le _, by omega⟩)

/-- In every reachable state, a write of `size >= 1` bytes at `offset` to a used file,
ending inside `MAX_BLOCKS_PER_FILE * BLOCK_SIZE = 4096` bytes, that does not run out of
space and leaves the file listing no block twice, returns `size`; reading the same range
right after returns `size` and the data, the rest of the buffer untouched. -/
theorem write_read_roundtrip {s : FileSystem} (hs : Reachable s) {fileIndex : BitVec 32}
    (hi : fileIndex.toNat < maxEntries) (hu : (s.files fileIndex.toNat).used)
    (ht : (s.files fileIndex.toNat).type = fileTypeFile) {size offset : BitVec 32}
    (hn : size ≠ 0) (ho : offset.toNat + size.toNat ≤ 4096) (data buffer : Nat → BitVec 8)
    (hw : (fsWriteFile s fileIndex (some data) size offset).result ≠ errOutOfSpace)
    (hd : let f := (fsWriteFile s fileIndex (some data) size offset).state.files fileIndex.toNat
      ∀ j < f.blockCount.toNat, ∀ k < f.blockCount.toNat, f.blocks j = f.blocks k → j = k) :
    let w := fsWriteFile s fileIndex (some data) size offset
    w.result = size.toInt ∧
      (fsReadFile w.state fileIndex (some buffer) size offset).result =
        (size.toInt, some fun k => if k < size.toNat then data k else buffer k) := by
  have hB := hs.blocksWithin
  have hrb := requiredBlocks_toNat offset size (by omega)
  rcases hg : growFile s (s.files fileIndex.toNat) ((offset + size + blockSize - 1) / blockSize)
    with _ | ⟨f1, next⟩
  · exact absurd (congrArg Outcome.result (fsWriteFile_out_of_space hi hu ht hn data
      (by rw [BitVec.le_def, hrb]; simp [maxBlocksPerFile]; omega) hg)) hw
  · obtain ⟨-, hty1, hus1, hbc1⟩ := growFile_some hg
    have hB' := hB.fsWriteFile fileIndex (some data) size offset
    rw [fsWriteFile_grown hi hu ht hn data hB ho hg] at hB' hd ⊢
    dsimp only at hd ⊢
    rw [setAt_same] at hd
    dsimp only at hd
    refine ⟨rfl, ?_⟩
    rw [fsReadFile_spec hB' hi (by simp [hus1, hu]) (by simp [hty1, ht]) hn (by simp; omega)
      (by simpa using le_raised_size f1 (by omega))]
    refine Prod.ext rfl (congrArg some (funext fun k => ?_))
    dsimp only
    by_cases hk : k < size.toNat
    · rw [if_pos hk, if_pos hk, setAt_same]
      exact storeBytes_range hd (by omega) data s.dataBlocks hk
    · rw [if_neg hk, if_neg hk]

/-- One file created after `fs_init`, written 600 bytes at offset 100, across two blocks,
and read back. -/
theorem mounted_write_read :
    let s := runOps mounted [.createFile (some "f") 0]
    let w := fsWriteFile s 1 (some halves) 600 100
    let f := w.state.files (1 : BitVec 32).toNat
    Reachable s ∧ (1 : BitVec 32).toNat < maxEntries ∧ (s.files (1 : BitVec 32).toNat).used ∧
      (s.files (1 : BitVec 32).toNat).type = fileTypeFile ∧ (600 : BitVec 32) ≠ 0 ∧
      (100 : BitVec 32).toNat + (600 : BitVec 32).toNat ≤ 4096 ∧ w.result ≠ errOutOfSpace ∧
      (∀ j < f.blockCount.toNat, ∀ k < f.blockCount.toNat, f.blocks j = f.blocks k → j = k) ∧
      w.result = (600 : BitVec 32).toInt ∧
      (fsReadFile w.state 1 (some (fill 0)) 600 100).result =
        ((600 : BitVec 32).toInt,
          some fun k => if k < (600 : BitVec 32).toNat then halves k else fill 0 k) :=
  ⟨reachable_mounted.runOps _, by decide, by decide, by decide, by decide, by decide, by decide,
    by decide, write_read_roundtrip (reachable_mounted.runOps _) (by decide) (by decide)
      (by decide) (by decide) (by decide) halves (fill 0) (by decide) (by decide)⟩

/-- Without a wrap of `offset + size + BLOCK_SIZE - 1` in `uint32_t`, `fs_write_file` of
`size >= 1` bytes, on any entry of a reachable state, either writes them all into the
file's blocks, data byte `k` at the address of position `offset + k`, and returns `size`,
or returns a negative code and changes nothing. -/
theorem write_all_or_nothing {s : FileSystem} (hs : Reachable s) (fileIndex : BitVec 32)
    {size offset : BitVec 32} (hn : size ≠ 0)
    (hwrap : offset.toNat + size.toNat + 511 < 2 ^ 32) (data : Nat → BitVec 8) :
    let w := fsWriteFile s fileIndex (some data) size offset
    (w.result = size.toInt ∧ w.errors = [] ∧
      offset.toNat + size.toNat ≤ (w.state.files fileIndex.toNat).blockCount.toNat * 512 ∧
      w.state.dataBlocks = storeBytes (w.state.files fileIndex.toNat) data offset.toNat
        s.dataBlocks (List.range' 0 size.toNat)) ∨
    (w.result < 0 ∧ w.state = s) := by
  have hrb := requiredBlocks_toNat offset size hwrap
  by_cases hv : fileIndex.toNat < maxEntries ∧ (s.files fileIndex.toNat).used ∧
      (s.files fileIndex.toNat).type = fileTypeFile ∧ offset.toNat + size.toNat ≤ 4096
  · obtain ⟨hi, hu, ht, ho⟩ := hv
    rcases hg : growFile s (s.files fileIndex.toNat)
      ((offset + size + blockSize - 1) / blockSize) with _ | ⟨f1, next⟩
    · rw [fsWriteFile_out_of_space hi hu ht hn data
        (by rw [BitVec.le_def, hrb]; simp [maxBlocksPerFile]; omega) hg]
      exact .inr ⟨by dsimp only; decide, rfl⟩
    · rw [fsWriteFile_grown hi hu ht hn data hs.blocksWithin ho hg]
      have := (growFile_some hg).2.2.2
      refine .inl ⟨rfl, rfl, ?_, ?_⟩ <;> dsimp only <;> rw [setAt_same]
      · dsimp only; omega
      · rfl
  · refine .inr ?_
    unfold fsWriteFile
    dsimp only
    rw [if_neg hn]
    split_ifs with h1 h2 h3
    · exact ⟨by dsimp only; decide, rfl⟩
    · exact ⟨by dsimp only; decide, rfl⟩
    · exact ⟨by dsimp only; decide, rfl⟩
    · simp only [not_or, Bool.not_eq_true', Bool.not_eq_false, not_le] at h1
      refine absurd ⟨h1.1, h1.2, by simpa using h2, ?_⟩ hv
      rw [gt_iff_lt, BitVec.not_lt, BitVec.le_def, hrb] at h3
      simp [maxBlocksPerFile] at h3
      omega

/-- One byte at offset 4095 of a file created after `fs_init`: the write needs eight
blocks. -/
theorem created_file_write_all_or_nothing :
    let s := runOps mounted [.createFile (some "f") 0]
    let w := fsWriteFile s 1 (some (fill 0xAA)) 1 4095
    Reachable s ∧ (1 : BitVec 32) ≠ 0 ∧
      (4095 : BitVec 32).toNat + (1 : BitVec 32).toNat + 511 < 2 ^ 32 ∧
      ((w.result = (1 : BitVec 32).toInt ∧ w.errors = [] ∧
        (4095 : BitVec 32).toNat + (1 : BitVec 32).toNat ≤
          (w.state.files (1 : BitVec 32).toNat).blockCount.toNat * 512 ∧
        w.state.dataBlocks = storeBytes (w.state.files (1 : BitVec 32).toNat) (fill 0xAA)
          (4095 : BitVec 32).toNat s.dataBlocks (List.range' 0 (1 : BitVec 32).toNat)) ∨
      (w.result < 0 ∧ w.state = s)) :=
  ⟨reachable_mounted.runOps _, by decide, by decide,
    write_all_or_nothing (reachable_mounted.runOps _) 1 (by decide) (by decide) (fill 0xAA)⟩

end MiniKernel.Fs
