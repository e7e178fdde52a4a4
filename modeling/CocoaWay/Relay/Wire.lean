import Mathlib.Algebra.BigOperators.Group.List.Basic
import Mathlib.Algebra.Order.BigOperators.Group.List
import Mathlib.Algebra.Ring.Nat

/-!
# Frames and queues of `apple_container_transport.rs`

* `Frame`, `encoded`, `Frame.encode` : OPEN, DATA and CLOSE with their nine-byte header;
* `headerKind`, `headerId`, `headerLength` : what the header of a frame says; `header_encode` : the round trip;
* `Chunk`, `Queue` : a bounded queue of byte chunks, its bounds carried by the structure; `Queue.push`, `Queue.write`;
* `Queue.pending` : the bytes still to be written; `pending_push`, `pending_write`.
-/

namespace CocoaWay.Relay

/-- `HEADER`. -/
def headerSize : Nat := 9

/-- `MAX_FRAME`. -/
def maxFrame : Nat := 16 * 1024 * 1024

/-- `CHUNK`. -/
def chunkSize : Nat := 64 * 1024

abbrev Bytes := List UInt8

/-! ## Frames -/

/-- `OPEN`, `DATA` and `CLOSE`. -/
def kindOpen : UInt8 := 1
def kindData : UInt8 := 2
def kindClose : UInt8 := 3

/-- `u32::to_be_bytes`. -/
def toBeBytes (n : Nat) : Bytes := [.ofNat (n / 2 ^ 24), .ofNat (n / 2 ^ 16), .ofNat (n / 2 ^ 8), .ofNat n]

/-- `u32::from_be_bytes`. -/
def fromBeBytes (bytes : Bytes) : Nat := bytes.foldl (fun n b => n * 256 + b.toNat) 0

/-- `encoded`. -/
def encoded (kind : UInt8) (id : UInt32) (data : Bytes) : Bytes :=
  kind :: (toBeBytes id.toNat ++ toBeBytes data.length ++ data)

inductive Frame where
  | start (id : UInt32)
  | data (id : UInt32) (payload : Bytes)
  | close (id : UInt32)
  deriving DecidableEq

def Frame.kind : Frame → UInt8
  | .start _ => kindOpen
  | .data _ _ => kindData
  | .close _ => kindClose

def Frame.id : Frame → UInt32
  | .start id | .data id _ | .close id => id

def Frame.payload : Frame → Bytes
  | .data _ payload => payload
  | _ => []

def Frame.encode (f : Frame) : Bytes := encoded f.kind f.id f.payload

/-- The payload is within the frame limit. -/
def Frame.WellFormed (f : Frame) : Prop := f.payload.length ≤ maxFrame

def headerKind (header : Bytes) : UInt8 := header.headD 0

def headerId (header : Bytes) : UInt32 := .ofNat (fromBeBytes ((header.drop 1).take 4))

def headerLength (header : Bytes) : Nat := fromBeBytes ((header.drop 5).take 4)

/-- The header is that of a frame within the limits. -/
def validHeader (header : Bytes) : Bool :=
  decide (headerLength header ≤ maxFrame) && [kindOpen, kindData, kindClose].contains (headerKind header) &&
    (headerKind header == kindData || headerLength header == 0)

theorem fromBeBytes_toBeBytes {n : Nat} (h : n < 2 ^ 32) : fromBeBytes (toBeBytes n) = n := by
  simp only [fromBeBytes, toBeBytes, List.foldl_cons, List.foldl_nil, UInt8.toNat_ofNat']
  omega

theorem length_toBeBytes (n : Nat) : (toBeBytes n).length = 4 := rfl

theorem length_encode (f : Frame) : f.encode.length = headerSize + f.payload.length := by
  simp only [Frame.encode, encoded, List.length_cons, List.length_append, length_toBeBytes, headerSize]
  omega

/-- The header of an encoded frame. -/
def Frame.header (f : Frame) : Bytes := f.kind :: (toBeBytes f.id.toNat ++ toBeBytes f.payload.length)

theorem encode_eq (f : Frame) : f.encode = f.header ++ f.payload := by
  simp [Frame.encode, encoded, Frame.header]

theorem length_header (f : Frame) : f.header.length = headerSize := by
  simp [Frame.header, length_toBeBytes, headerSize]

@[simp] theorem headerKind_header (f : Frame) : headerKind f.header = f.kind := rfl

@[simp] theorem headerId_header (f : Frame) : headerId f.header = f.id := by
  have hid : f.id.toNat < 2 ^ 32 := f.id.toNat_lt
  have htake : (f.header.drop 1).take 4 = toBeBytes f.id.toNat := rfl
  rw [headerId, htake, fromBeBytes_toBeBytes hid]
  exact UInt32.ofNat_toNat

theorem headerLength_header {f : Frame} (h : f.WellFormed) : headerLength f.header = f.payload.length := by
  have hlt : f.payload.length < 2 ^ 32 := by
    unfold Frame.WellFormed maxFrame at h
    omega
  have hdrop : (f.header.drop 5).take 4 = toBeBytes f.payload.length := rfl
  rw [headerLength, hdrop, fromBeBytes_toBeBytes hlt]

theorem validHeader_header {f : Frame} (h : f.WellFormed) : validHeader f.header = true := by
  have hlen := headerLength_header h
  unfold Frame.WellFormed at h
  unfold validHeader
  rw [hlen, headerKind_header]
  cases f <;> simp [Frame.kind, Frame.payload, kindOpen, kindData, kindClose] at h ⊢
  exact decide_eq_true h

/-! ## Queues -/

/-- A chunk that is not written to its end. -/
structure Chunk where
  bytes : Bytes
  offset : Nat
  offset_lt : offset < bytes.length

/-- What a list of chunks charges: whole chunks, until they are written to their end. -/
def charge (chunks : List Chunk) : Nat := (chunks.map fun chunk => chunk.bytes.length).sum

/-- `Queue`, with its counter and its bounds. -/
structure Queue where
  chunks : List Chunk
  bytes : Nat
  limit : Nat
  chunkLimit : Nat
  bytes_eq : bytes = charge chunks
  bytes_le : bytes ≤ limit
  chunks_le : chunks.length ≤ chunkLimit

namespace Queue

variable {q q' : Queue} {bytes written : Bytes} {n : Nat}

def new (limit chunkLimit : Nat) : Queue :=
  { chunks := [], bytes := 0, limit := limit, chunkLimit := chunkLimit, bytes_eq := rfl, bytes_le := Nat.zero_le _,
    chunks_le := Nat.zero_le _ }

def room (q : Queue) : Nat := if q.chunkLimit ≤ q.chunks.length then 0 else q.limit - q.bytes

def isEmpty (q : Queue) : Bool := q.chunks.isEmpty

theorem room_pos_chunks {n : Nat} (h : n < q.room) : q.chunks.length < q.chunkLimit ∧ q.bytes + n < q.limit := by
  unfold room at h
  split at h <;> omega

/-- `push`; `none` when the assertion fails. -/
def push (q : Queue) (bytes : Bytes) : Option Queue :=
  if h : bytes.length ≤ q.room then
    if hne : 0 < bytes.length then
      some { q with
        chunks := q.chunks ++ [⟨bytes, 0, hne⟩]
        bytes := q.bytes + bytes.length
        bytes_eq := by
          simp [charge, q.bytes_eq]
        bytes_le := by
          have := room_pos_chunks (q := q) (n := bytes.length - 1) (by omega)
          omega
        chunks_le := by
          have := room_pos_chunks (q := q) (n := bytes.length - 1) (by omega)
          rw [List.length_append, List.length_singleton]
          exact this.1 }
    else some q
  else none

/-- `write` when the writer takes `n` bytes of the front chunk: the queue after it and the bytes written. -/
def write (q : Queue) (n : Nat) : Option (Queue × Bytes) :=
  match hq : q.chunks with
  | [] => none
  | chunk :: chunks =>
    if n = 0 then none
    else if hn : chunk.offset + n < chunk.bytes.length then
      some ({ q with
        chunks := { chunk with offset := chunk.offset + n, offset_lt := hn } :: chunks
        bytes_eq := by
          have := q.bytes_eq
          rw [hq] at this
          exact this
        chunks_le := by
          have := q.chunks_le
          rw [hq] at this
          exact this }, (chunk.bytes.drop chunk.offset).take n)
    else if chunk.offset + n = chunk.bytes.length then
      some ({ q with
        chunks := chunks
        bytes := q.bytes - chunk.bytes.length
        bytes_eq := by
          have := q.bytes_eq
          rw [hq] at this
          simp only [charge, List.map_cons, List.sum_cons] at this ⊢
          omega
        bytes_le := by
          have := q.bytes_le
          omega
        chunks_le := by
          have := q.chunks_le
          rw [hq] at this
          exact Nat.le_of_succ_le this }, chunk.bytes.drop chunk.offset)
    else none

/-- The bytes still to be written. -/
def pending (q : Queue) : Bytes := q.chunks.flatMap fun chunk => chunk.bytes.drop chunk.offset

theorem isEmpty_iff : q.isEmpty = true ↔ q.pending = [] := by
  unfold isEmpty pending
  rw [List.isEmpty_iff, List.flatMap_eq_nil_iff]
  constructor
  · intro h
    simp [h]
  · intro h
    cases hc : q.chunks with
    | nil => rfl
    | cons chunk chunks =>
      have := h chunk (by simp [hc])
      have hlt := chunk.offset_lt
      rw [List.drop_eq_nil_iff] at this
      omega

theorem push_of_le (h : bytes.length ≤ q.room) : ∃ q', q.push bytes = some q' := by
  unfold push
  rw [dif_pos h]
  split <;> exact ⟨_, rfl⟩

theorem pending_push (h : q.push bytes = some q') : q'.pending = q.pending ++ bytes := by
  unfold push at h
  split at h
  · split at h
    · cases h
      simp [pending]
    next hne =>
      cases h
      obtain rfl : bytes = [] := List.eq_nil_of_length_eq_zero (by omega)
      simp
  · cases h

theorem pending_write (h : q.write n = some (q', written)) : q.pending = written ++ q'.pending := by
  unfold write at h
  split at h
  · cases h
  next chunk chunks hq =>
    have hp : q.pending = chunk.bytes.drop chunk.offset ++ chunks.flatMap fun c => c.bytes.drop c.offset := by
      unfold pending
      rw [hq, List.flatMap_cons]
    rw [hp]
    split at h
    · cases h
    · split at h
      · cases h
        simp only [pending, List.flatMap_cons]
        rw [← List.append_assoc, ← List.drop_drop, List.take_append_drop]
      · split at h
        · cases h
          rfl
        · cases h

theorem push_limits (h : q.push bytes = some q') : q'.limit = q.limit ∧ q'.chunkLimit = q.chunkLimit := by
  unfold push at h
  split at h
  · split at h <;> cases h <;> exact ⟨rfl, rfl⟩
  · cases h

theorem write_limits (h : q.write n = some (q', written)) : q'.limit = q.limit ∧ q'.chunkLimit = q.chunkLimit := by
  unfold write at h
  split at h
  · cases h
  · split at h
    · cases h
    · split at h
      · cases h
        exact ⟨rfl, rfl⟩
      · split at h <;> cases h
        exact ⟨rfl, rfl⟩

end Queue

end CocoaWay.Relay
