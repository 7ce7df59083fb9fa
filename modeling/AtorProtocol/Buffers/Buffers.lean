import AtorProtocol.Encoding.Binascii

/-!
# Chunked buffers

`src/lib/buf/buffers.c`, with the list of the chunks of a buffer as a list: its head is
`buf->head`, its last element `buf->tail`.  A failed assertion has no result, and neither has a
read or a write beyond the memory of a chunk.  What `tor_malloc` returns holds any bytes.

* `Chunk` — its memory, and what is written into it.
* `bufAdd`, `bufDrain`, `bufPeek`, `bufPullup`, `bufMoveToBuf`, … — one operation each.
* `Op`, `step` — any of them, on a family of buffers.
-/

namespace Ator.Buffers

/-- The contents of memory that was not written yet. -/
abbrev Memory := ℕ → UInt8

def bufMaxLen : ℕ := 2 ^ 31 - 2

def sizeTCeiling : ℕ := 2 ^ 63 - 1 - 16

/-- `CHUNK_OVERHEAD`: the header and the sentinel. -/
def chunkOverhead : ℕ := 36 + 4

def minChunkAlloc : ℕ := 256

def maxChunkAlloc : ℕ := 65536

/-! ## Chunks -/

/-- `chunk_t`: its memory, where the data starts in it, and how much there is. -/
structure Chunk where
  mem : Bytes
  offset : ℕ
  datalen : ℕ
deriving DecidableEq

namespace Chunk

variable (c : Chunk)

/-- `chunk->memlen` -/
def memlen : ℕ := c.mem.length

/-- The data of the chunk. -/
def bytes : Bytes := (c.mem.drop c.offset).take c.datalen

def remainingCapacity : ℕ := c.memlen - (c.offset + c.datalen)

/-- `CHUNK_WRITE_PTR`, from the start of the memory. -/
def writePtr : ℕ := c.offset + c.datalen

/-- `memcpy` to the write pointer, and the new `datalen`. -/
def write (bs : Bytes) : Chunk :=
  { c with
    mem := c.mem.take c.writePtr ++ bs ++ c.mem.drop (c.writePtr + bs.length)
    datalen := c.datalen + bs.length }

/-- `src->data += n; src->datalen -= n;` -/
def advance (n : ℕ) : Chunk := { c with offset := c.offset + n, datalen := c.datalen - n }

def repack : Chunk :=
  { c with
    mem := if c.datalen ≠ 0 ∧ c.offset ≠ 0 then c.bytes ++ c.mem.drop c.datalen else c.mem
    offset := 0 }

def grow (sz : ℕ) (fresh : Memory) : Option Chunk :=
  if c.memlen < sz then some { c with mem := c.mem ++ (List.range (sz - c.memlen)).map fresh }
  else none

/-- `chunk_new_with_alloc_size` -/
def new (alloc : ℕ) (fresh : Memory) : Chunk :=
  ⟨(List.range (alloc - chunkOverhead)).map fresh, 0, 0⟩

end Chunk

/-- `while (CHUNK_SIZE_WITH_ALLOC(sz) < target) sz <<= 1;`, which is done after at most so many
turns. -/
def doubleUntil (target : ℕ) : ℕ → ℕ → ℕ
  | 0, sz => sz
  | n + 1, sz => if sz - chunkOverhead < target then doubleUntil target n (sz * 2) else sz

def bufPreferredChunkSize (target : ℕ) : Option ℕ :=
  if target ≤ sizeTCeiling - chunkOverhead then
    if maxChunkAlloc ≤ chunkOverhead + target then some (chunkOverhead + target)
    else some (doubleUntil target 8 minChunkAlloc)
  else none

/-! ## Buffers -/

structure Buf where
  chunks : List Chunk
  datalen : ℕ
  defaultChunkSize : ℕ
deriving DecidableEq

namespace Buf

def new : Buf := ⟨[], 0, 4096⟩

/-- The bytes of the buffer, chunk after chunk. -/
def bytes (buf : Buf) : Bytes := buf.chunks.flatMap Chunk.bytes

/-- `buf->tail` -/
def tail (buf : Buf) : Option Chunk := buf.chunks.getLast?

/-- Bytes are written to `buf->tail`, which is given. -/
def writeTail (buf : Buf) (tail : Chunk) (bs : Bytes) : Buf :=
  { buf with
    chunks := buf.chunks.dropLast ++ [tail.write bs]
    datalen := buf.datalen + bs.length }

end Buf

def bufNewWithCapacity (size : ℕ) : Option Buf :=
  (bufPreferredChunkSize size).map fun defaultChunkSize => ⟨[], 0, defaultChunkSize⟩

/-- The size that `buf_add_chunk_with_capacity` allocates. -/
def newChunkSize (buf : Buf) (capacity : ℕ) (capped : Bool) : Option ℕ :=
  if chunkOverhead + capacity < buf.defaultChunkSize then some buf.defaultChunkSize
  else if capped ∧ chunkOverhead + capacity > maxChunkAlloc then some maxChunkAlloc
  else bufPreferredChunkSize capacity

def bufAddChunkWithCapacity (buf : Buf) (capacity : ℕ) (capped : Bool) (fresh : Memory) :
    Option Buf :=
  (newChunkSize buf capacity capped).map fun alloc =>
    { buf with chunks := buf.chunks ++ [Chunk.new alloc fresh] }

/-- `if (!buf->tail || !CHUNK_REMAINING_CAPACITY(buf->tail)) buf_add_chunk_with_capacity(…);` -/
def bufEnsureTail (buf : Buf) (capacity : ℕ) (fresh : Memory) : Option Buf :=
  if buf.tail.all fun tail => tail.remainingCapacity = 0 then
    bufAddChunkWithCapacity buf capacity true fresh
  else some buf

/-- The loop of `buf_add`.  Every turn copies something, so that a turn for each byte is enough. -/
def bufAddLoop (fresh : ℕ → Memory) : ℕ → Buf → Bytes → Option Buf
  | _, buf, [] => some buf
  | 0, _, _ :: _ => none
  | n + 1, buf, string => do
    let buf ← bufEnsureTail buf string.length (fresh n)
    let tail ← buf.tail
    let copy := min tail.remainingCapacity string.length
    bufAddLoop fresh n (buf.writeTail tail (string.take copy)) (string.drop copy)

def bufAdd (buf : Buf) (string : Bytes) (fresh : ℕ → Memory) : Option Buf :=
  if bufMaxLen < buf.datalen then some buf
  -- `BUF_MAX_LEN - string_len` wraps, so that the check passes, and the last assertion fails
  else if bufMaxLen < string.length then none
  else if bufMaxLen < buf.datalen + string.length then some buf
  else bufAddLoop fresh string.length buf string

/-- `read_to_chunk`, onto the tail: what was received is at most what fits. -/
def bufReadToTail (buf : Buf) (received : Bytes) : Option Buf := do
  let tail ← buf.tail
  if received.length ≤ tail.remainingCapacity ∧ buf.datalen + received.length ≤ bufMaxLen then
    some (buf.writeTail tail received)
  else none

/-- The loop of `buf_drain`. -/
def drainChunks : ℕ → List Chunk → Option (List Chunk)
  | 0, chunks => some chunks
  | _ + 1, [] => none
  | n + 1, c :: chunks =>
    if n + 1 < c.datalen then some (c.advance (n + 1) :: chunks)
    else drainChunks (n + 1 - c.datalen) chunks
termination_by _ chunks => chunks.length

def bufDrain (buf : Buf) (n : ℕ) : Option Buf :=
  if n ≤ buf.datalen then
    (drainChunks n buf.chunks).map fun chunks => { buf with chunks, datalen := buf.datalen - n }
  else none

/-- The loop of `buf_peek`. -/
def peekChunks : ℕ → List Chunk → Option Bytes
  | 0, _ => some []
  | _ + 1, [] => none
  | n + 1, c :: chunks =>
    (peekChunks (n + 1 - min c.datalen (n + 1)) chunks).map (c.bytes.take (n + 1) ++ ·)
termination_by _ chunks => chunks.length

def bufPeek (buf : Buf) (stringLen : ℕ) : Option Bytes :=
  if stringLen ≤ buf.datalen then peekChunks stringLen buf.chunks else none

def bufGetBytes (buf : Buf) (stringLen : ℕ) : Option (Bytes × Buf) := do
  let string ← bufPeek buf stringLen
  let buf ← bufDrain buf stringLen
  return (string, buf)

def bufClear (buf : Buf) : Buf := { buf with chunks := [], datalen := 0 }

def bufCopy (buf : Buf) : Buf := buf

/-- The loop of `buf_move_to_buf`, 4096 bytes a turn. -/
def moveLoop (fresh : ℕ → ℕ → Memory) : ℕ → Buf → Buf → ℕ → Option (Buf × Buf)
  | _, bufOut, bufIn, 0 => some (bufOut, bufIn)
  | 0, _, _, _ + 1 => none
  | fuel + 1, bufOut, bufIn, len => do
    let n := min len 4096
    let (b, bufIn) ← bufGetBytes bufIn n
    let bufOut ← bufAdd bufOut b (fresh fuel)
    moveLoop fresh fuel bufOut bufIn (len - n)

/-- `buf_move_to_buf`: the buffers, and what is left of `*buf_flushlen`. -/
def bufMoveToBuf (bufOut bufIn : Buf) (bufFlushlen : ℕ) (fresh : ℕ → ℕ → Memory) :
    Option (Buf × Buf × ℕ) :=
  if bufMaxLen < bufOut.datalen ∨ bufMaxLen < bufFlushlen ∨
      bufMaxLen < bufOut.datalen + bufFlushlen then
    some (bufOut, bufIn, bufFlushlen)
  else
    let len := min bufFlushlen bufIn.datalen
    (moveLoop fresh len bufOut bufIn len).map fun bufs => (bufs.1, bufs.2, bufFlushlen - len)

def bufMoveAll (bufOut bufIn : Buf) : Buf × Buf :=
  if bufIn.datalen = 0 then (bufOut, bufIn)
  else if bufMaxLen < bufOut.datalen ∨ bufMaxLen < bufIn.datalen ∨
      bufMaxLen < bufOut.datalen + bufIn.datalen then (bufOut, bufIn)
  else
    ({ bufOut with
        chunks := bufOut.chunks ++ bufIn.chunks
        datalen := bufOut.datalen + bufIn.datalen },
      { bufIn with chunks := [], datalen := 0 })

/-- The loop of `buf_pullup`, until `dest` has so many bytes. -/
def pullChunks (bytes : ℕ) (dest : Chunk) : List Chunk → Option (List Chunk)
  | [] => if dest.datalen < bytes then none else some [dest]
  | src :: chunks =>
    if dest.datalen < bytes then
      let n := bytes - dest.datalen
      if src.datalen ≤ n then pullChunks bytes (dest.write src.bytes) chunks
      else some (dest.write (src.bytes.take n) :: src.advance n :: chunks)
    else some (dest :: src :: chunks)

/-- The head made large enough for `capacity` bytes. -/
def pullHead (head : Chunk) (capacity : ℕ) (fresh : Memory) : Option Chunk :=
  if capacity ≤ head.memlen then
    let needed := capacity - head.datalen
    let head := if head.remainingCapacity < needed then head.repack else head
    if needed ≤ head.remainingCapacity then some head else none
  else do
    let newsize ← bufPreferredChunkSize capacity
    let newhead ← head.repack.grow (newsize - chunkOverhead) fresh
    if capacity ≤ newhead.memlen then some newhead else none

def bufPullup (buf : Buf) (bytes : ℕ) (fresh : Memory) : Option Buf :=
  match buf.chunks with
  | [] => some buf
  | head :: chunks =>
    let bytes := min bytes buf.datalen
    if bytes ≤ head.datalen then some buf
    else do
      let head ← pullHead head bytes fresh
      let chunks ← pullChunks bytes head chunks
      return { buf with chunks }

/-! ## Operations -/

/-- What can be done to a family of buffers. -/
inductive Op (ι : Type*) where
  | newWithCapacity (i : ι) (size : ℕ)
  | addChunk (i : ι) (capacity : ℕ) (capped : Bool) (fresh : Memory)
  | readToTail (i : ι) (received : Bytes)
  | add (i : ι) (string : Bytes) (fresh : ℕ → Memory)
  | drain (i : ι) (n : ℕ)
  | getBytes (i : ι) (stringLen : ℕ)
  | pullup (i : ι) (bytes : ℕ) (fresh : Memory)
  | moveToBuf (out inp : ι) (bufFlushlen : ℕ) (fresh : ℕ → ℕ → Memory)
  | moveAll (out inp : ι)
  | copy (out inp : ι)
  | clear (i : ι)

variable {ι : Type*} [DecidableEq ι]

/-- One buffer after an operation on it. -/
def update (s : ι → Buf) (i : ι) (buf : Option Buf) : Option (ι → Buf) :=
  buf.map (Function.update s i)

/-- The buffers after an operation.  A buffer is not moved to itself. -/
def step (s : ι → Buf) : Op ι → Option (ι → Buf)
  | .newWithCapacity i size => update s i (bufNewWithCapacity size)
  | .addChunk i capacity capped fresh =>
    update s i (bufAddChunkWithCapacity (s i) capacity capped fresh)
  | .readToTail i received => update s i (bufReadToTail (s i) received)
  | .add i string fresh => update s i (bufAdd (s i) string fresh)
  | .drain i n => update s i (bufDrain (s i) n)
  | .getBytes i stringLen => update s i ((bufGetBytes (s i) stringLen).map Prod.snd)
  | .pullup i bytes fresh => update s i (bufPullup (s i) bytes fresh)
  | .moveToBuf out inp bufFlushlen fresh =>
    if out = inp then none
    else
      (bufMoveToBuf (s out) (s inp) bufFlushlen fresh).map fun bufs =>
        Function.update (Function.update s out bufs.1) inp bufs.2.1
  | .moveAll out inp =>
    if out = inp then none
    else
      let bufs := bufMoveAll (s out) (s inp)
      some (Function.update (Function.update s out bufs.1) inp bufs.2)
  | .copy out inp => update s out (some (bufCopy (s inp)))
  | .clear i => update s i (some (bufClear (s i)))

end Ator.Buffers
