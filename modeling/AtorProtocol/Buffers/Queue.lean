import AtorProtocol.Buffers.Buffers
import AtorProtocol.Lib.Run

/-!
# Buffers as byte queues

What each operation of `src/lib/buf/buffers.c` does to the bytes of a buffer, and that it leaves
the buffer well formed.

* `Chunk.Fits`, `Buf.Ok` — what `buf_assert_ok` asserts, with the bounds that the operations check.
* `ok_of_reaches`, `bytes_of_reaches` — every buffer is well formed in every run, and has the bytes
  of a queue.
-/

namespace Ator.Buffers

open List Option

/-! ## Chunks -/

/-- The data of a chunk is in its memory. -/
def Chunk.Fits (c : Chunk) : Prop := c.offset + c.datalen ≤ c.memlen

variable {c dest : Chunk} {cs : List Chunk} {bs string : Bytes} {n sz target : ℕ} {fresh : Memory}

namespace Chunk

lemma Fits.length_bytes (h : c.Fits) : c.bytes.length = c.datalen := by
  rw [bytes, length_take, length_drop]
  rw [Fits, memlen] at h
  omega

lemma write_memlen (h : c.Fits) (hbs : bs.length ≤ c.remainingCapacity) :
    (c.write bs).memlen = c.memlen := by
  rw [Fits] at h
  rw [remainingCapacity] at hbs
  simp only [write, memlen, writePtr, length_append, length_take, length_drop]
    at hbs h ⊢
  omega

lemma write_bytes (h : c.Fits) (bs : Bytes) : (c.write bs).bytes = c.bytes ++ bs := by
  rw [Fits, memlen] at h
  have hsplit : c.mem.take c.writePtr = c.mem.take c.offset ++ c.bytes := by
    rw [bytes, ← take_add, writePtr]
  have hlen : (c.mem.take c.offset).length = c.offset := by
    rw [length_take]
    omega
  have hread : c.bytes.length = c.datalen := Fits.length_bytes h
  simp only [bytes, write]
  rw [show (c.mem.drop c.offset).take c.datalen = c.bytes from rfl, hsplit, append_assoc,
    append_assoc, drop_append_of_le_length (by omega), drop_of_length_le (by omega),
    nil_append, ← append_assoc, take_left' (by rw [length_append, hread])]

lemma write_fits (h : c.Fits) (hbs : bs.length ≤ c.remainingCapacity) : (c.write bs).Fits := by
  rw [Fits, write_memlen h hbs]
  rw [Fits] at h
  rw [remainingCapacity] at hbs
  change c.offset + (c.datalen + bs.length) ≤ c.memlen
  omega

lemma advance_bytes (c : Chunk) (n : ℕ) : (c.advance n).bytes = c.bytes.drop n := by
  rw [bytes, bytes, advance, drop_take, drop_drop]

lemma advance_fits (h : c.Fits) (hn : n ≤ c.datalen) : (c.advance n).Fits := by
  rw [Fits] at h ⊢
  change c.offset + n + (c.datalen - n) ≤ c.memlen
  omega

lemma repack_memlen (h : c.Fits) : c.repack.memlen = c.memlen := by
  have hlen := h.length_bytes
  rw [Fits, memlen] at h
  simp only [memlen, repack]
  split
  · rw [length_append, length_drop]
    omega
  · rfl

lemma repack_bytes (h : c.Fits) : c.repack.bytes = c.bytes := by
  have hlen := h.length_bytes
  simp only [bytes, repack, drop_zero]
  split
  · rw [show (c.mem.drop c.offset).take c.datalen = c.bytes from rfl, take_left' hlen]
  · next hor =>
      rcases Decidable.not_and_iff_or_not.mp hor with hzero | hzero
      · rw [not_not.mp hzero, take_zero, take_zero]
      · rw [not_not.mp hzero, drop_zero]

lemma repack_fits (h : c.Fits) : c.repack.Fits := by
  rw [Fits, repack_memlen h]
  rw [Fits] at h
  change 0 + c.datalen ≤ c.memlen
  omega

lemma grow_spec (h : c.Fits) (hsz : c.memlen < sz) (fresh : Memory) :
    ∃ c', c.grow sz fresh = some c' ∧ c'.Fits ∧ c'.bytes = c.bytes ∧ c'.memlen = sz ∧
      c'.offset = c.offset ∧ c'.datalen = c.datalen := by
  have hmemlen : (c.mem ++ (range (sz - c.memlen)).map fresh).length = sz := by
    rw [length_append, length_map, length_range]
    change c.memlen + (sz - c.memlen) = sz
    omega
  refine ⟨_, if_pos hsz, ?_, ?_, hmemlen, rfl, rfl⟩
  · rw [Fits] at h ⊢
    change c.offset + c.datalen ≤ (c.mem ++ _).length
    omega
  · rw [Fits, memlen] at h
    simp only [bytes]
    rw [drop_append_of_le_length (by omega), take_append_of_le_length]
    rw [length_drop]
    omega

lemma new_fits (alloc : ℕ) (fresh : Memory) : (new alloc fresh).Fits := Nat.zero_le _

@[simp] lemma new_bytes (alloc : ℕ) (fresh : Memory) : (new alloc fresh).bytes = [] := rfl

lemma new_remainingCapacity (alloc : ℕ) (fresh : Memory) :
    (new alloc fresh).remainingCapacity = alloc - chunkOverhead := by
  simp [remainingCapacity, new, memlen]

end Chunk

lemma doubleUntil_spec (hsz : target ≤ sz * 2 ^ n - chunkOverhead) :
    sz ≤ doubleUntil target n sz ∧ target ≤ doubleUntil target n sz - chunkOverhead := by
  induction n generalizing sz with
  | zero => exact ⟨Nat.le_refl sz, by simpa [doubleUntil] using hsz⟩
  | succ n ih =>
    rw [doubleUntil]
    split
    · obtain ⟨hle, htarget⟩ := ih (show target ≤ sz * 2 * 2 ^ n - chunkOverhead by
        rwa [Nat.mul_assoc, ← Nat.pow_succ'])
      exact ⟨by omega, htarget⟩
    · omega

lemma bufPreferredChunkSize_spec (h : target ≤ sizeTCeiling - chunkOverhead) :
    ∃ sz, bufPreferredChunkSize target = some sz ∧ minChunkAlloc ≤ sz ∧
      target ≤ sz - chunkOverhead := by
  rw [bufPreferredChunkSize, if_pos h]
  split
  · next hmax =>
      refine ⟨_, rfl, ?_, by omega⟩
      rw [maxChunkAlloc] at hmax
      rw [minChunkAlloc]
      omega
  · next hmax =>
      have hdouble : target ≤ minChunkAlloc * 2 ^ 8 - chunkOverhead := by
        simp only [maxChunkAlloc, chunkOverhead, minChunkAlloc] at hmax ⊢
        omega
      obtain ⟨hle, htarget⟩ := doubleUntil_spec hdouble
      exact ⟨_, rfl, hle, htarget⟩

lemma bufPreferredChunkSize_ge (h : bufPreferredChunkSize target = some sz) :
    minChunkAlloc ≤ sz := by
  by_cases hle : target ≤ sizeTCeiling - chunkOverhead
  · obtain ⟨sz', hsz', hmin, -⟩ := bufPreferredChunkSize_spec hle
    rw [h] at hsz'
    exact some.inj hsz' ▸ hmin
  · rw [bufPreferredChunkSize, if_neg hle] at h
    cases h

/-! ## Lists of chunks -/

/-- The bytes of a list of chunks. -/
def chunkBytes (cs : List Chunk) : Bytes := cs.flatMap Chunk.bytes

/-- How many there are. -/
def chunkLength (cs : List Chunk) : ℕ := (cs.map Chunk.datalen).sum

@[simp] lemma chunkBytes_nil : chunkBytes [] = [] := rfl

@[simp] lemma chunkBytes_cons (c : Chunk) (cs : List Chunk) :
    chunkBytes (c :: cs) = c.bytes ++ chunkBytes cs := rfl

@[simp] lemma chunkBytes_append (cs ds : List Chunk) :
    chunkBytes (cs ++ ds) = chunkBytes cs ++ chunkBytes ds := flatMap_append

@[simp] lemma chunkLength_nil : chunkLength [] = 0 := rfl

@[simp] lemma chunkLength_cons (c : Chunk) (cs : List Chunk) :
    chunkLength (c :: cs) = c.datalen + chunkLength cs := by
  simp [chunkLength]

lemma length_chunkBytes (h : ∀ c ∈ cs, c.Fits) : (chunkBytes cs).length = chunkLength cs := by
  induction cs with
  | nil => rfl
  | cons c cs ih =>
    rw [chunkBytes_cons, length_append, chunkLength_cons,
      (h c mem_cons_self).length_bytes, ih fun d hd => h d (mem_cons_of_mem c hd)]

lemma drainChunks_spec (h : ∀ c ∈ cs, c.Fits) (hn : n ≤ chunkLength cs) :
    ∃ cs', drainChunks n cs = some cs' ∧ (∀ c ∈ cs', c.Fits) ∧
      chunkBytes cs' = (chunkBytes cs).drop n := by
  induction cs generalizing n with
  | nil =>
    obtain rfl : n = 0 := by simpa using hn
    exact ⟨[], by rw [drainChunks], by simp, rfl⟩
  | cons c cs ih =>
    cases n with
    | zero => exact ⟨c :: cs, by rw [drainChunks], h, rfl⟩
    | succ n =>
      obtain ⟨hc, hcs⟩ := forall_mem_cons.mp h
      have hlen := hc.length_bytes
      rw [chunkLength_cons] at hn
      rw [drainChunks]
      split
      · next hlt =>
          refine ⟨_, rfl, forall_mem_cons.mpr ⟨Chunk.advance_fits hc hlt.le, hcs⟩, ?_⟩
          rw [chunkBytes_cons, chunkBytes_cons, Chunk.advance_bytes,
            drop_append_of_le_length (by omega)]
      · next hle =>
          obtain ⟨cs', hdrain, hfits, hbytes⟩ :=
            ih hcs (show n + 1 - c.datalen ≤ chunkLength cs by omega)
          refine ⟨cs', hdrain, hfits, ?_⟩
          have hgone : c.bytes.drop (n + 1) = [] := drop_of_length_le (by omega)
          rw [hbytes, chunkBytes_cons, drop_append, hgone, nil_append, hlen]

lemma peekChunks_spec (h : ∀ c ∈ cs, c.Fits) (hn : n ≤ chunkLength cs) :
    peekChunks n cs = some ((chunkBytes cs).take n) := by
  induction cs generalizing n with
  | nil =>
    obtain rfl : n = 0 := by simpa using hn
    rw [peekChunks]
    rfl
  | cons c cs ih =>
    cases n with
    | zero => rw [peekChunks, take_zero]
    | succ n =>
      obtain ⟨hc, hcs⟩ := forall_mem_cons.mp h
      have hlen := hc.length_bytes
      rw [chunkLength_cons] at hn
      rw [peekChunks, ih hcs (by omega), map_some, chunkBytes_cons, take_append, hlen]
      congr 3
      omega

/-- **Pulling moves bytes to the front chunk**, as many as there is room for. -/
lemma pullChunks_spec (hdest : dest.Fits) (h : ∀ c ∈ cs, c.Fits)
    (hroom : n ≤ dest.memlen - dest.offset) (hn : n ≤ dest.datalen + chunkLength cs) :
    ∃ cs', pullChunks n dest cs = some cs' ∧ (∀ c ∈ cs', c.Fits) ∧
      chunkBytes cs' = dest.bytes ++ chunkBytes cs := by
  induction cs generalizing dest with
  | nil =>
    rw [chunkLength_nil] at hn
    exact ⟨[dest], by rw [pullChunks, if_neg (by omega)], by simpa using hdest, rfl⟩
  | cons src cs ih =>
    obtain ⟨hsrc, hcs⟩ := forall_mem_cons.mp h
    have hlen := hsrc.length_bytes
    rw [chunkLength_cons] at hn
    rw [pullChunks]
    split
    · next hlt =>
        dsimp only
        split
        · next hle =>
            have hcap : src.bytes.length ≤ dest.remainingCapacity := by
              rw [hlen, Chunk.remainingCapacity]
              omega
            obtain ⟨cs', hpull, hfits, hbytes⟩ := ih (Chunk.write_fits hdest hcap) hcs
              (by rw [Chunk.write_memlen hdest hcap]; exact hroom)
              (by change n ≤ dest.datalen + src.bytes.length + _; omega)
            refine ⟨cs', hpull, hfits, ?_⟩
            rw [hbytes, Chunk.write_bytes hdest, chunkBytes_cons, append_assoc]
        · next hle =>
            have hcap : (src.bytes.take (n - dest.datalen)).length ≤ dest.remainingCapacity := by
              rw [length_take, Chunk.remainingCapacity]
              omega
            refine ⟨_, rfl, ?_, ?_⟩
            · refine forall_mem_cons.mpr ⟨Chunk.write_fits hdest hcap, ?_⟩
              exact forall_mem_cons.mpr ⟨Chunk.advance_fits hsrc (by omega), hcs⟩
            · rw [chunkBytes_cons, chunkBytes_cons, chunkBytes_cons, Chunk.write_bytes hdest,
                Chunk.advance_bytes, append_assoc, ← append_assoc (take _ _), take_append_drop]
    · exact ⟨_, rfl, forall_mem_cons.mpr ⟨hdest, h⟩, rfl⟩

/-! ## Buffers -/

/-- **A buffer is well formed**: each chunk's data is in its memory, the length is that of all
chunks, and no more than the operations allow. -/
structure Buf.Ok (buf : Buf) : Prop where
  fits : ∀ c ∈ buf.chunks, c.Fits
  datalen_eq : buf.datalen = chunkLength buf.chunks
  datalen_le : buf.datalen ≤ bufMaxLen
  defaultChunkSize_ge : minChunkAlloc ≤ buf.defaultChunkSize

variable {buf buf' bufIn bufOut : Buf} {capacity : ℕ} {capped : Bool}

lemma chunkLength_append (cs ds : List Chunk) :
    chunkLength (cs ++ ds) = chunkLength cs + chunkLength ds := by
  simp [chunkLength]

lemma Buf.Ok.length_bytes (h : buf.Ok) : buf.bytes.length = buf.datalen :=
  (length_chunkBytes h.fits).trans h.datalen_eq.symm

lemma Buf.Ok.new : Buf.new.Ok := ⟨by simp [Buf.new], rfl, by decide, by decide⟩

lemma bufNewWithCapacity_ok (h : bufNewWithCapacity n = some buf) : buf.Ok ∧ buf.bytes = [] := by
  obtain ⟨sz, hsz, rfl⟩ := map_eq_some_iff.mp h
  exact ⟨⟨by simp, rfl, Nat.zero_le _, bufPreferredChunkSize_ge hsz⟩, rfl⟩

lemma newChunkSize_ge (h : buf.Ok) (hsz : newChunkSize buf capacity capped = some sz) :
    minChunkAlloc ≤ sz := by
  rw [newChunkSize] at hsz
  split at hsz
  · exact some.inj hsz ▸ h.defaultChunkSize_ge
  · split at hsz
    · exact some.inj hsz ▸ (by decide)
    · exact bufPreferredChunkSize_ge hsz

/-- **A new chunk has room, and no bytes.** -/
lemma bufAddChunkWithCapacity_spec (h : buf.Ok)
    (hadd : bufAddChunkWithCapacity buf capacity capped fresh = some buf') :
    buf'.Ok ∧ buf'.bytes = buf.bytes ∧ buf'.datalen = buf.datalen ∧
      ∃ c, buf'.tail = some c ∧ 0 < c.remainingCapacity := by
  obtain ⟨alloc, halloc, rfl⟩ := map_eq_some_iff.mp hadd
  have hmin := newChunkSize_ge h halloc
  refine ⟨⟨?_, ?_, h.datalen_le, h.defaultChunkSize_ge⟩, ?_, rfl, Chunk.new alloc fresh,
    getLast?_concat, ?_⟩
  · intro c hc
    rcases mem_append.mp hc with hc | hc
    · exact h.fits c hc
    · obtain rfl := mem_singleton.mp hc
      exact Chunk.new_fits alloc fresh
  · change buf.datalen = chunkLength (buf.chunks ++ [Chunk.new alloc fresh])
    rw [chunkLength_append, ← h.datalen_eq]
    rfl
  · change chunkBytes (buf.chunks ++ [Chunk.new alloc fresh]) = chunkBytes buf.chunks
    simp
  · rw [Chunk.new_remainingCapacity]
    simp only [minChunkAlloc, chunkOverhead] at hmin ⊢
    omega

lemma exists_bufAddChunkWithCapacity (buf : Buf) (hcap : capacity ≤ sizeTCeiling - chunkOverhead)
    (capped : Bool) (fresh : Memory) :
    ∃ buf', bufAddChunkWithCapacity buf capacity capped fresh = some buf' := by
  obtain ⟨sz, hsz, -⟩ := bufPreferredChunkSize_spec hcap
  have hsome : (newChunkSize buf capacity capped).isSome := by
    rw [newChunkSize, hsz]
    split_ifs <;> rfl
  obtain ⟨alloc, halloc⟩ := isSome_iff_exists.mp hsome
  exact ⟨_, by rw [bufAddChunkWithCapacity, halloc]; rfl⟩

lemma Buf.tail_eq_some {c : Chunk} (h : buf.tail = some c) : ∃ cs, buf.chunks = cs ++ [c] :=
  getLast?_eq_some_iff.mp h

/-- **Bytes that fit the tail are added to the buffer.** -/
lemma Buf.Ok.writeTail (h : buf.Ok) {c : Chunk} (htail : buf.tail = some c)
    (hbs : bs.length ≤ c.remainingCapacity) (hmax : buf.datalen + bs.length ≤ bufMaxLen) :
    (buf.writeTail c bs).Ok ∧ (buf.writeTail c bs).bytes = buf.bytes ++ bs := by
  obtain ⟨cs, hchunks⟩ := Buf.tail_eq_some htail
  have hset : (buf.writeTail c bs).chunks = cs ++ [c.write bs] := by
    simp [Buf.writeTail, hchunks]
  have hc := h.fits c (by rw [hchunks]; simp)
  refine ⟨⟨?_, ?_, hmax, h.defaultChunkSize_ge⟩, ?_⟩
  · intro d hd
    rw [hset] at hd
    rcases mem_append.mp hd with hd | hd
    · exact h.fits d (by rw [hchunks]; exact mem_append_left _ hd)
    · obtain rfl := mem_singleton.mp hd
      exact Chunk.write_fits hc hbs
  · change buf.datalen + bs.length = _
    rw [hset, h.datalen_eq, hchunks, chunkLength_append, chunkLength_append]
    simp [Chunk.write, Nat.add_assoc]
  · change chunkBytes (buf.writeTail c bs).chunks = chunkBytes buf.chunks ++ bs
    rw [hset, hchunks]
    simp [Chunk.write_bytes hc]

lemma bufEnsureTail_spec (h : buf.Ok) (hcap : capacity ≤ sizeTCeiling - chunkOverhead)
    (fresh : Memory) :
    ∃ buf', bufEnsureTail buf capacity fresh = some buf' ∧ buf'.Ok ∧ buf'.bytes = buf.bytes ∧
      buf'.datalen = buf.datalen ∧ ∃ c, buf'.tail = some c ∧ 0 < c.remainingCapacity := by
  rw [bufEnsureTail]
  split
  · obtain ⟨buf', hadd⟩ := exists_bufAddChunkWithCapacity buf hcap true fresh
    exact ⟨buf', hadd, bufAddChunkWithCapacity_spec h hadd⟩
  · next hroom =>
      cases htail : buf.tail with
      | none => simp [htail] at hroom
      | some c =>
        refine ⟨buf, rfl, h, rfl, rfl, c, htail, ?_⟩
        rw [htail] at hroom
        simpa [Nat.pos_iff_ne_zero] using hroom

lemma bufAddLoop_spec (h : buf.Ok) (hn : string.length ≤ n)
    (hmax : buf.datalen + string.length ≤ bufMaxLen) (fresh : ℕ → Memory) :
    ∃ buf', bufAddLoop fresh n buf string = some buf' ∧ buf'.Ok ∧
      buf'.bytes = buf.bytes ++ string := by
  induction n generalizing buf string with
  | zero =>
    obtain rfl := length_eq_zero_iff.mp (Nat.le_zero.mp hn)
    exact ⟨buf, by rw [bufAddLoop], h, by simp⟩
  | succ n ih =>
    cases string with
    | nil => exact ⟨buf, by rw [bufAddLoop], h, by simp⟩
    | cons b string =>
      have hcap : (b :: string).length ≤ sizeTCeiling - chunkOverhead := by
        simp only [bufMaxLen, sizeTCeiling, chunkOverhead] at hmax ⊢
        omega
      obtain ⟨buf₁, hensure, hok, hbytes, hlen, c, htail, hroom⟩ :=
        bufEnsureTail_spec h hcap (fresh n)
      have hcopy : 0 < min c.remainingCapacity (b :: string).length :=
        Nat.lt_min.mpr ⟨hroom, Nat.succ_pos _⟩
      generalize hk : min c.remainingCapacity (b :: string).length = copy at hcopy
      have htake : ((b :: string).take copy).length = copy := by
        rw [length_take]
        omega
      obtain ⟨hok', hbytes'⟩ := hok.writeTail htail
        (show ((b :: string).take copy).length ≤ c.remainingCapacity by omega) (by omega)
      have hlen' : (buf₁.writeTail c ((b :: string).take copy)).datalen =
          buf₁.datalen + copy := congrArg (buf₁.datalen + ·) htake
      have hdrop : ((b :: string).drop copy).length = (b :: string).length - copy := length_drop
      obtain ⟨buf₂, hloop, hok₂, hbytes₂⟩ := ih hok'
        (show ((b :: string).drop copy).length ≤ n by omega) (by omega)
      refine ⟨buf₂, ?_, hok₂, ?_⟩
      · rw [bufAddLoop, hensure]
        · simp only [bind_eq_bind, bind_some, htail, hk]
          exact hloop
        · simp
      · rw [hbytes₂, hbytes', hbytes, append_assoc, take_append_drop]

/-- **`buf_add` appends the string**, unless the buffer would be too long. -/
lemma bufAdd_spec (h : buf.Ok) (hlen : string.length ≤ bufMaxLen) (fresh : ℕ → Memory) :
    ∃ buf', bufAdd buf string fresh = some buf' ∧ buf'.Ok ∧
      buf'.bytes = if buf.datalen + string.length ≤ bufMaxLen then buf.bytes ++ string
        else buf.bytes := by
  rw [bufAdd, if_neg (not_lt.mpr h.datalen_le), if_neg (not_lt.mpr hlen)]
  by_cases hmax : buf.datalen + string.length ≤ bufMaxLen
  · rw [if_neg (not_lt.mpr hmax), if_pos hmax]
    exact bufAddLoop_spec h (Nat.le_refl _) hmax fresh
  · rw [if_pos (not_le.mp hmax), if_neg hmax]
    exact ⟨buf, rfl, h, rfl⟩

/-- **`read_to_chunk` appends what was received.** -/
lemma bufReadToTail_spec (h : buf.Ok) (hread : bufReadToTail buf bs = some buf') :
    buf'.Ok ∧ buf'.bytes = buf.bytes ++ bs := by
  obtain ⟨c, htail, hread⟩ := bind_eq_some_iff.mp hread
  split at hread
  · next hfit =>
      obtain rfl := some.inj hread
      exact h.writeTail htail hfit.1 hfit.2
  · cases hread

/-- **`buf_drain` drops the first bytes.** -/
lemma bufDrain_spec (h : buf.Ok) (hn : n ≤ buf.datalen) :
    ∃ buf', bufDrain buf n = some buf' ∧ buf'.Ok ∧ buf'.bytes = buf.bytes.drop n := by
  obtain ⟨cs, hdrain, hfits, hbytes⟩ := drainChunks_spec h.fits (h.datalen_eq ▸ hn)
  have hlen : buf.datalen - n = chunkLength cs := by
    rw [← length_chunkBytes hfits, hbytes, length_drop, length_chunkBytes h.fits, h.datalen_eq]
  refine ⟨{ buf with chunks := cs, datalen := buf.datalen - n },
    by rw [bufDrain, if_pos hn, hdrain]; rfl, ⟨hfits, hlen, ?_, h.defaultChunkSize_ge⟩, hbytes⟩
  exact (Nat.sub_le _ _).trans h.datalen_le

/-- **`buf_peek` copies the first bytes.** -/
lemma bufPeek_spec (h : buf.Ok) (hn : n ≤ buf.datalen) :
    bufPeek buf n = some (buf.bytes.take n) := by
  rw [bufPeek, if_pos hn, peekChunks_spec h.fits (h.datalen_eq ▸ hn)]
  rfl

/-- **`buf_get_bytes` takes them out.** -/
lemma bufGetBytes_spec (h : buf.Ok) (hn : n ≤ buf.datalen) :
    ∃ buf', bufGetBytes buf n = some (buf.bytes.take n, buf') ∧ buf'.Ok ∧
      buf'.bytes = buf.bytes.drop n := by
  obtain ⟨buf', hdrain, hok, hbytes⟩ := bufDrain_spec h hn
  exact ⟨buf', by rw [bufGetBytes, bufPeek_spec h hn, hdrain]; rfl, hok, hbytes⟩

lemma bufClear_ok (h : buf.Ok) : (bufClear buf).Ok ∧ (bufClear buf).bytes = [] :=
  ⟨⟨by simp [bufClear], rfl, Nat.zero_le _, h.defaultChunkSize_ge⟩, rfl⟩

lemma bufGetBytes_spec' (h : buf.Ok) (hn : n ≤ buf.datalen) :
    ∃ buf', bufGetBytes buf n = some (buf.bytes.take n, buf') ∧ buf'.Ok ∧
      buf'.bytes = buf.bytes.drop n ∧ buf'.datalen = buf.datalen - n := by
  obtain ⟨buf', hget, hok, hbytes⟩ := bufGetBytes_spec h hn
  refine ⟨buf', hget, hok, hbytes, ?_⟩
  rw [← hok.length_bytes, hbytes, length_drop, h.length_bytes]

lemma moveLoop_spec {fuel len : ℕ} (hout : bufOut.Ok) (hin : bufIn.Ok) (hlen : len ≤ bufIn.datalen)
    (hmax : bufOut.datalen + len ≤ bufMaxLen) (hfuel : len ≤ fuel)
    (fresh : ℕ → ℕ → Memory) :
    ∃ out inp, moveLoop fresh fuel bufOut bufIn len = some (out, inp) ∧ out.Ok ∧ inp.Ok ∧
      out.bytes = bufOut.bytes ++ bufIn.bytes.take len ∧ inp.bytes = bufIn.bytes.drop len := by
  induction fuel generalizing bufOut bufIn len with
  | zero =>
    obtain rfl := Nat.le_zero.mp hfuel
    exact ⟨bufOut, bufIn, by rw [moveLoop], hout, hin, by simp, rfl⟩
  | succ fuel ih =>
    cases len with
    | zero => exact ⟨bufOut, bufIn, by rw [moveLoop], hout, hin, by simp, rfl⟩
    | succ len =>
      generalize hn : min (len + 1) 4096 = n
      obtain ⟨inp, hget, hin', hinp, hinlen⟩ :=
        bufGetBytes_spec' hin (show n ≤ bufIn.datalen by omega)
      have htake : (bufIn.bytes.take n).length = n := by
        rw [length_take, hin.length_bytes]
        omega
      obtain ⟨out, hadd, hout', houtb⟩ :=
        bufAdd_spec hout (show (bufIn.bytes.take n).length ≤ bufMaxLen by omega) (fresh fuel)
      rw [if_pos (by omega)] at houtb
      have houtlen : out.datalen = bufOut.datalen + n := by
        rw [← hout'.length_bytes, houtb, length_append, hout.length_bytes, htake]
      have hmax' : out.datalen + (len + 1 - n) ≤ bufMaxLen := by omega
      obtain ⟨out', inp', hloop, hok, hok', hb, hb'⟩ :=
        ih hout' hin' (show len + 1 - n ≤ inp.datalen by omega) hmax' (by omega)
      refine ⟨out', inp', ?_, hok, hok', ?_, ?_⟩
      · rw [moveLoop]
        · simp only [bind_eq_bind, hn, hget, bind_some, hadd]
          exact hloop
        · omega
      · rw [hb, houtb, hinp, append_assoc, ← take_add, Nat.add_sub_of_le (by omega)]
      · rw [hb', hinp, drop_drop, Nat.add_sub_of_le (by omega)]

/-- **`buf_move_to_buf` moves up to so many bytes**, unless the other buffer would be too long. -/
lemma bufMoveToBuf_spec (hout : bufOut.Ok) (hin : bufIn.Ok) (bufFlushlen : ℕ)
    (fresh : ℕ → ℕ → Memory) :
    ∃ out inp left, bufMoveToBuf bufOut bufIn bufFlushlen fresh = some (out, inp, left) ∧ out.Ok ∧
      inp.Ok ∧
      let len := if bufOut.datalen + bufFlushlen ≤ bufMaxLen then min bufFlushlen bufIn.datalen
        else 0
      out.bytes = bufOut.bytes ++ bufIn.bytes.take len ∧ inp.bytes = bufIn.bytes.drop len ∧
        left = bufFlushlen - len := by
  rw [bufMoveToBuf]
  by_cases hmax : bufOut.datalen + bufFlushlen ≤ bufMaxLen
  · rw [if_neg (by omega), if_pos hmax]
    obtain ⟨out, inp, hloop, hok, hok', hb, hb'⟩ :=
      moveLoop_spec hout hin (Nat.min_le_right bufFlushlen bufIn.datalen) (by omega)
        (Nat.le_refl _) fresh
    exact ⟨out, inp, _, by dsimp only; rw [hloop]; rfl, hok, hok', hb, hb', rfl⟩
  · rw [if_pos (by omega), if_neg hmax]
    exact ⟨bufOut, bufIn, bufFlushlen, rfl, hout, hin, by simp⟩

/-- **`buf_move_all` moves all bytes**, unless the other buffer would be too long. -/
lemma bufMoveAll_spec (hout : bufOut.Ok) (hin : bufIn.Ok) :
    (bufMoveAll bufOut bufIn).1.Ok ∧ (bufMoveAll bufOut bufIn).2.Ok ∧
      if bufOut.datalen + bufIn.datalen ≤ bufMaxLen then
        (bufMoveAll bufOut bufIn).1.bytes = bufOut.bytes ++ bufIn.bytes ∧
          (bufMoveAll bufOut bufIn).2.bytes = []
      else bufMoveAll bufOut bufIn = (bufOut, bufIn) := by
  rw [bufMoveAll]
  by_cases hzero : bufIn.datalen = 0
  · have hnil : bufIn.bytes = [] := by
      rw [← length_eq_zero_iff, hin.length_bytes, hzero]
    rw [if_pos hzero]
    refine ⟨hout, hin, ?_⟩
    split
    · exact ⟨by rw [hnil, append_nil], hnil⟩
    · rfl
  · rw [if_neg hzero]
    by_cases hmax : bufOut.datalen + bufIn.datalen ≤ bufMaxLen
    · rw [if_neg (by omega), if_pos hmax]
      refine ⟨⟨?_, ?_, hmax, hout.defaultChunkSize_ge⟩, bufClear_ok hin |>.1, ?_, rfl⟩
      · intro c hc
        exact (mem_append.mp hc).elim (hout.fits c) (hin.fits c)
      · change bufOut.datalen + bufIn.datalen = chunkLength (bufOut.chunks ++ bufIn.chunks)
        rw [chunkLength_append, hout.datalen_eq, hin.datalen_eq]
      · exact chunkBytes_append bufOut.chunks bufIn.chunks
    · rw [if_pos (by omega), if_neg hmax]
      exact ⟨hout, hin, rfl⟩

lemma pullHead_spec (h : c.Fits) (hcap : c.datalen < capacity)
    (hmax : capacity ≤ sizeTCeiling - chunkOverhead) (fresh : Memory) :
    ∃ c', pullHead c capacity fresh = some c' ∧ c'.Fits ∧ c'.bytes = c.bytes ∧
      c'.datalen = c.datalen ∧ capacity ≤ c'.memlen - c'.offset := by
  have hfit := h
  rw [Chunk.Fits] at hfit
  have hrepack : c.repack.datalen = c.datalen ∧ c.repack.offset = 0 := ⟨rfl, rfl⟩
  have hmem := Chunk.repack_memlen h
  rw [pullHead]
  split
  · next hle =>
      by_cases hroom : c.remainingCapacity < capacity - c.datalen
      · have hroom' : capacity - c.datalen ≤ c.repack.remainingCapacity := by
          rw [Chunk.remainingCapacity, hmem, hrepack.1, hrepack.2]
          omega
        refine ⟨c.repack, by simp only [if_pos hroom, if_pos hroom'], Chunk.repack_fits h,
          Chunk.repack_bytes h, rfl, ?_⟩
        rw [hmem, hrepack.2]
        omega
      · refine ⟨c, by simp only [if_neg hroom, if_pos (Nat.le_of_not_lt hroom)], h, rfl, rfl, ?_⟩
        rw [Chunk.remainingCapacity] at hroom
        omega
  · next hlt =>
      obtain ⟨sz, hsz, -, htarget⟩ := bufPreferredChunkSize_spec hmax
      obtain ⟨c', hgrow, hfits, hbytes, hlen, hoffset, hdatalen⟩ :=
        Chunk.grow_spec (Chunk.repack_fits h) (show c.repack.memlen < sz - chunkOverhead by omega)
          fresh
      refine ⟨c', ?_, hfits, hbytes.trans (Chunk.repack_bytes h), hdatalen, ?_⟩
      · simp only [hsz, hgrow, bind_eq_bind, bind_some]
        exact if_pos (by omega)
      · rw [hoffset, hrepack.2]
        omega

/-- **`buf_pullup` keeps the bytes**, and the first chunk has as many as were asked for. -/
lemma bufPullup_spec (h : buf.Ok) (n : ℕ) (fresh : Memory) :
    ∃ buf', bufPullup buf n fresh = some buf' ∧ buf'.Ok ∧ buf'.bytes = buf.bytes := by
  obtain ⟨chunks, datalen, defaultChunkSize⟩ := buf
  cases chunks with
  | nil => exact ⟨_, rfl, h, rfl⟩
  | cons head chunks =>
    rw [bufPullup]
    dsimp only
    split
    · exact ⟨_, rfl, h, rfl⟩
    · next hlt =>
        obtain ⟨hhead, hchunks⟩ := forall_mem_cons.mp h.fits
        have hle := h.datalen_le
        have hsum := h.datalen_eq
        simp only [chunkLength_cons] at hle hsum
        obtain ⟨head', hpull, hfits, hbytes, hdatalen, hroom⟩ :=
          pullHead_spec hhead (show head.datalen < min n datalen by omega)
            (by simp only [bufMaxLen, sizeTCeiling, chunkOverhead] at hle ⊢; omega) fresh
        obtain ⟨cs, hpulled, hfits', hbytes'⟩ := pullChunks_spec hfits hchunks hroom (by omega)
        refine ⟨⟨cs, datalen, defaultChunkSize⟩, ?_, ⟨hfits', ?_, hle, h.defaultChunkSize_ge⟩, ?_⟩
        · rw [hpull]
          simp only [bind_eq_bind, bind_some, hpulled]
          rfl
        · change datalen = chunkLength cs
          rw [← length_chunkBytes hfits', hbytes', hbytes, length_append,
            hhead.length_bytes, length_chunkBytes hchunks, hsum]
        · change chunkBytes cs = _
          rw [hbytes', hbytes]
          rfl

/-! ## Runs -/

variable {ι : Type*} [DecidableEq ι] {s t : ι → Buf} {op : Op ι} {i j : ι}

lemma ok_update (h : ∀ i, (s i).Ok) (hbuf : buf.Ok) (i j : ι) :
    (Function.update s i buf j).Ok := by
  by_cases hj : j = i
  · rw [hj, Function.update_self]
    exact hbuf
  · rw [Function.update_of_ne hj]
    exact h j

/-- An operation on the bytes alone.  What would make a buffer too long is not done; a string that is
itself too long to add stops the program. -/
def queueStep (s : ι → Bytes) : Op ι → ι → Bytes
  | .newWithCapacity i _ | .clear i => Function.update s i []
  | .addChunk .. | .pullup .. => s
  | .readToTail i received => Function.update s i (s i ++ received)
  | .add i string _ =>
    if (s i).length + string.length ≤ bufMaxLen then Function.update s i (s i ++ string) else s
  | .drain i n | .getBytes i n => Function.update s i ((s i).drop n)
  | .moveToBuf out inp n _ =>
    if (s out).length + n ≤ bufMaxLen then
      Function.update (Function.update s out (s out ++ (s inp).take n)) inp ((s inp).drop n)
    else s
  | .moveAll out inp =>
    if (s out).length + (s inp).length ≤ bufMaxLen then
      Function.update (Function.update s out (s out ++ s inp)) inp []
    else s
  | .copy out inp => Function.update s out (s inp)

/-- **An operation** leaves every buffer well formed, and does to the bytes what it does to a
queue. -/
theorem step_spec (h : ∀ i, (s i).Ok) (hstep : step s op = some t) :
    (∀ j, (t j).Ok) ∧ Buf.bytes ∘ t = queueStep (Buf.bytes ∘ s) op := by
  have hupdate : ∀ {i : ι} {result : Option Buf} {bs : Bytes}, update s i result = some t →
      (∀ buf, result = some buf → buf.Ok ∧ buf.bytes = bs) →
      (∀ j, (t j).Ok) ∧ Buf.bytes ∘ t = Function.update (Buf.bytes ∘ s) i bs := by
    intro i result bs hresult hspec
    obtain ⟨buf, hbuf, rfl⟩ := map_eq_some_iff.mp hresult
    obtain ⟨hok, rfl⟩ := hspec buf hbuf
    exact ⟨ok_update h hok i, Function.comp_update _ _ _ _⟩
  have hlen : ∀ i, ((Buf.bytes ∘ s) i).length = (s i).datalen := fun i => (h i).length_bytes
  have hsame : ∀ i, Function.update (Buf.bytes ∘ s) i (s i).bytes = Buf.bytes ∘ s :=
    fun i => Function.update_eq_self i _
  cases op with
  | newWithCapacity i size => exact hupdate hstep fun buf => bufNewWithCapacity_ok
  | addChunk i capacity capped fresh =>
    rw [queueStep, ← hsame i]
    refine hupdate hstep fun buf hbuf => ?_
    obtain ⟨hok, hbytes, -⟩ := bufAddChunkWithCapacity_spec (h i) hbuf
    exact ⟨hok, hbytes⟩
  | readToTail i received => exact hupdate hstep fun buf => bufReadToTail_spec (h i)
  | add i string fresh =>
    have hstring : string.length ≤ bufMaxLen := by
      by_contra hlong
      rw [step, bufAdd, if_neg (not_lt.mpr (h i).datalen_le), if_pos (not_le.mp hlong)] at hstep
      cases hstep
    obtain ⟨buf', hadd, hok, hbytes⟩ := bufAdd_spec (h i) hstring fresh
    have hspec := hupdate hstep fun buf hbuf =>
      some.inj (hadd.symm.trans hbuf) ▸ And.intro hok hbytes
    rw [queueStep, hlen]
    split_ifs at hspec ⊢
    · exact hspec
    · rwa [hsame i] at hspec
  | drain i n =>
    refine hupdate hstep fun buf hbuf => ?_
    have hn : n ≤ (s i).datalen := by
      by_contra hlt
      rw [bufDrain, if_neg hlt] at hbuf
      cases hbuf
    obtain ⟨buf', hdrain, hspec⟩ := bufDrain_spec (h i) hn
    exact some.inj (hdrain.symm.trans hbuf) ▸ hspec
  | getBytes i stringLen =>
    refine hupdate hstep fun buf hbuf => ?_
    have hn : stringLen ≤ (s i).datalen := by
      by_contra hlt
      rw [bufGetBytes, bufPeek, if_neg hlt] at hbuf
      cases hbuf
    obtain ⟨buf', hget, hspec⟩ := bufGetBytes_spec (h i) hn
    rw [hget] at hbuf
    exact some.inj hbuf ▸ hspec
  | pullup i bytes fresh =>
    rw [queueStep, ← hsame i]
    obtain ⟨buf', hpull, hspec⟩ := bufPullup_spec (h i) bytes fresh
    exact hupdate hstep fun buf hbuf => some.inj (hpull.symm.trans hbuf) ▸ hspec
  | moveToBuf out inp bufFlushlen fresh =>
    obtain ⟨out', inp', left, hmove, hok, hok', hout, hinp, -⟩ :=
      bufMoveToBuf_spec (h out) (h inp) bufFlushlen fresh
    rw [step, hmove] at hstep
    split at hstep
    · cases hstep
    · obtain rfl := some.inj hstep
      refine ⟨ok_update (ok_update h hok out) hok' inp, ?_⟩
      rw [queueStep, hlen, Function.comp_update, Function.comp_update, hout, hinp]
      split_ifs
      · rw [← (h inp).length_bytes, ← take_eq_take_min, ← drop_eq_drop_min]
        rfl
      · rw [take_zero, append_nil, drop_zero, hsame]
        exact hsame inp
  | moveAll out inp =>
    obtain ⟨hok, hok', hspec⟩ := bufMoveAll_spec (h out) (h inp)
    rw [step] at hstep
    split at hstep
    · cases hstep
    · obtain rfl := some.inj hstep
      refine ⟨ok_update (ok_update h hok out) hok' inp, ?_⟩
      rw [queueStep, hlen, hlen, Function.comp_update, Function.comp_update]
      split_ifs at hspec ⊢
      · rw [hspec.1, hspec.2]
        rfl
      · rw [hspec, hsame]
        exact hsame inp
  | copy out inp => exact hupdate hstep fun buf hbuf => some.inj hbuf ▸ ⟨h inp, rfl⟩
  | clear i => exact hupdate hstep fun buf hbuf => some.inj hbuf ▸ bufClear_ok (h i)

/-- **Every buffer is well formed in every run.** -/
theorem ok_of_reaches {ops : List (Op ι)} (h : Reaches step (fun _ => Buf.new) ops t) (i : ι) :
    (t i).Ok :=
  invariant_of_reaches (I := fun s : ι → Buf => ∀ i, (s i).Ok)
    (fun _ _ _ hs hstep => (step_spec hs hstep).1) (fun _ => .new) h i

/-- **Chunked buffers are byte queues**: in every run each buffer is well formed, and has the bytes
that the same operations leave in a queue. -/
theorem bytes_of_reaches {ops : List (Op ι)} (h : Reaches step (fun _ => Buf.new) ops t) :
    (∀ i, (t i).Ok) ∧ Buf.bytes ∘ t = ops.foldl queueStep fun _ => [] := by
  refine ⟨ok_of_reaches h, ?_⟩
  induction ops using reverseRecOn generalizing t with
  | nil => exact (reaches_nil.mp h) ▸ rfl
  | append_singleton ops op ih =>
    obtain ⟨u, hu, hlast⟩ := reaches_snoc.mp h
    rw [foldl_append, ← ih hu]
    exact (step_spec (ok_of_reaches hu) hlast).2

/-- Two of three bytes are moved behind an empty chunk. -/
def movedOps : List (Op (Fin 2)) :=
  [.add 0 [1, 2, 3] (fun _ _ => 0), .addChunk 1 1 true (fun _ => 0),
    .moveToBuf 1 0 2 (fun _ _ _ => 0), .drain 1 1]

theorem bytes_of_reaches_moved :
    ∃ t, Reaches step (fun _ => Buf.new) movedOps t ∧ (∀ i, (t i).Ok) ∧ (t 0).bytes = [3] ∧
      (t 1).bytes = [2] := by
  have hrun : (movedOps.foldlM step (fun _ => Buf.new)).isSome := by
    decide +kernel
  obtain ⟨t, ht⟩ := isSome_iff_exists.mp hrun
  obtain ⟨hok, hbytes⟩ := bytes_of_reaches ht
  exact ⟨t, ht, hok, congrFun hbytes 0, congrFun hbytes 1⟩

end Ator.Buffers
