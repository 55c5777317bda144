import DeskSync.Lib.Bytes

/-!
# Sending a screen frame in chunks

`AgentPeer::send_frame` cuts an encoded frame into chunks and sends each behind a header of eight bytes,
`[ frame_id: u32 ][ chunk_index: u16 ][ chunk_count: u16 ]`, little-endian. It holds the lock on the
`frames` channel to its end, so calls do not overlap: a call is a function of the channel it finds and
of the frame counter.
-/

namespace DeskSync.Media

def frameChunkHeaderLen : ℕ := 8

def frameChunkPayload : ℕ := 16 * 1024 - frameChunkHeaderLen

def u16Max : ℕ := 2 ^ 16 - 1

/-- What a call finds of the established data channel. -/
structure DataChannel where
  /-- `ready_state() == RTCDataChannelState::Open`. -/
  isOpen : Bool
  bufferedAmount : ℕ
  /-- Whether the `n`-th `send` of the call succeeds. -/
  accepts : ℕ → Bool

inductive SendError
  | tooLarge (len chunkCount : ℕ)
  | send
  deriving DecidableEq

/-- The result of a call, the messages it put on the channel and the frame counter it leaves. -/
structure Sending where
  result : Except SendError Bool
  sent : List Bytes
  frameSeq : UInt32

/-- One message: the header and a piece of the frame. -/
def chunkMessage (frameID : UInt32) (chunkCount idx : ℕ) (payload : Bytes) : Bytes :=
  leBytes 4 frameID.toNat ++ leBytes 2 (UInt16.ofNat idx).toNat ++
    leBytes 2 (UInt16.ofNat chunkCount).toNat ++ payload

/-- `data.len().div_ceil(FRAME_CHUNK_PAYLOAD).max(1)`. -/
def chunkCount (data : Bytes) : ℕ := max (data.length ⌈/⌉ frameChunkPayload) 1

/-- The messages of a frame, in the order of the loop. -/
def frameMessages (frameID : UInt32) (data : Bytes) : List Bytes :=
  (chunks frameChunkPayload data).zipIdx.map fun c => chunkMessage frameID (chunkCount data) c.2 c.1

/-- `max(1)` only matters for an empty frame, which has no chunk. -/
theorem chunkCount_eq {data : Bytes} (h : chunks frameChunkPayload data ≠ []) :
    chunkCount data = (chunks frameChunkPayload data).length := by
  have hpos := List.length_pos_iff.2 h
  rw [length_chunks] at hpos ⊢
  exact max_eq_left hpos

/-- Sends the messages until one fails; `n` have been sent before. -/
def DataChannel.sendAll (dc : DataChannel) : ℕ → List Bytes → Except SendError Bool × List Bytes
  | _, [] => (.ok true, [])
  | n, msg :: msgs =>
    if dc.accepts n then
      let rest := dc.sendAll (n + 1) msgs
      (rest.1, msg :: rest.2)
    else (.error .send, [])

def sendFrame (frames : Option DataChannel) (frameSeq : UInt32) (data : Bytes) (maxBuffered : ℕ) :
    Sending :=
  match frames with
  | none => ⟨.ok false, [], frameSeq⟩
  | some dc =>
    if ¬ dc.isOpen then ⟨.ok false, [], frameSeq⟩
    else if dc.bufferedAmount > maxBuffered then ⟨.ok false, [], frameSeq⟩
    else if chunkCount data > u16Max then
      ⟨.error (.tooLarge data.length (chunkCount data)), [], frameSeq⟩
    else
      let all := dc.sendAll 0 (frameMessages frameSeq data)
      ⟨all.1, all.2, frameSeq + 1⟩

/-! ### What a call does -/

theorem sendAll_prefix (dc : DataChannel) (n : ℕ) (msgs : List Bytes) :
    (dc.sendAll n msgs).2 <+: msgs := by
  induction msgs generalizing n with
  | nil => exact List.prefix_refl []
  | cons msg msgs ih =>
    rw [DataChannel.sendAll]
    split_ifs
    · exact (List.prefix_cons_inj msg).2 (ih (n + 1))
    · exact List.nil_prefix

/-- The loop sends every message, or ends with an error. -/
theorem sendAll_cases (dc : DataChannel) (n : ℕ) (msgs : List Bytes) :
    dc.sendAll n msgs = (.ok true, msgs) ∨ (dc.sendAll n msgs).1 = .error .send := by
  induction msgs generalizing n with
  | nil => exact .inl rfl
  | cons msg msgs ih =>
    rw [DataChannel.sendAll]
    split_ifs
    · rcases ih (n + 1) with h | h
      · left
        rw [h]
      · exact .inr h
    · exact .inr rfl

/-- A call sends nothing and leaves the counter, or gets to the loop with a frame whose chunks can be
counted in a `u16`. -/
theorem sendFrame_cases (frames : Option DataChannel) (frameSeq : UInt32) (data : Bytes)
    (maxBuffered : ℕ) :
    (∃ r, r ≠ .ok true ∧ sendFrame frames frameSeq data maxBuffered = ⟨r, [], frameSeq⟩) ∨
    ∃ dc : DataChannel, chunkCount data ≤ u16Max ∧ sendFrame frames frameSeq data maxBuffered =
      ⟨(dc.sendAll 0 (frameMessages frameSeq data)).1,
        (dc.sendAll 0 (frameMessages frameSeq data)).2, frameSeq + 1⟩ := by
  unfold sendFrame
  cases frames with
  | none => exact .inl ⟨.ok false, by simp, rfl⟩
  | some dc =>
    dsimp only
    by_cases hopen : ¬ dc.isOpen
    · rw [if_pos hopen]
      exact .inl ⟨.ok false, by simp, rfl⟩
    rw [if_neg hopen]
    by_cases hfull : dc.bufferedAmount > maxBuffered
    · rw [if_pos hfull]
      exact .inl ⟨.ok false, by simp, rfl⟩
    rw [if_neg hfull]
    by_cases hlarge : chunkCount data > u16Max
    · rw [if_pos hlarge]
      exact .inl ⟨.error (.tooLarge data.length (chunkCount data)), by simp, rfl⟩
    · rw [if_neg hlarge]
      exact .inr ⟨dc, Nat.le_of_not_lt hlarge, rfl⟩

theorem sendAll_accepts {dc : DataChannel} {n : ℕ} {msgs : List Bytes} (h : ∀ k, n ≤ k → dc.accepts k = true) :
    dc.sendAll n msgs = (.ok true, msgs) := by
  induction msgs generalizing n with
  | nil => rfl
  | cons msg msgs ih =>
    rw [DataChannel.sendAll, if_pos (h n le_rfl), ih fun k hk => h k (Nat.le_of_succ_le hk)]

/-- On an open channel with room that accepts every message, a frame whose chunks can be counted is sent. -/
theorem sendFrame_ok {dc : DataChannel} {data : Bytes} {maxBuffered : ℕ} (frameSeq : UInt32)
    (hopen : dc.isOpen = true) (hroom : dc.bufferedAmount ≤ maxBuffered) (haccepts : ∀ n, dc.accepts n = true)
    (hcount : chunkCount data ≤ u16Max) :
    sendFrame (some dc) frameSeq data maxBuffered = ⟨.ok true, frameMessages frameSeq data, frameSeq + 1⟩ := by
  simp only [sendFrame, hopen, not_true_eq_false, if_false, if_neg (Nat.not_lt.2 hroom),
    if_neg (Nat.not_lt.2 hcount), sendAll_accepts fun k _ => haccepts k]

/-- What a call has sent are the first messages of its frame, whose chunks it could count. -/
theorem sendFrame_sent (frames : Option DataChannel) (frameSeq : UInt32) (data : Bytes)
    (maxBuffered : ℕ) :
    (sendFrame frames frameSeq data maxBuffered).sent = [] ∨ chunkCount data ≤ u16Max ∧
      (sendFrame frames frameSeq data maxBuffered).sent <+: frameMessages frameSeq data := by
  rcases sendFrame_cases frames frameSeq data maxBuffered with ⟨r, -, h⟩ | ⟨dc, hcount, h⟩
  · left
    rw [h]
  · right
    rw [h]
    exact ⟨hcount, sendAll_prefix dc 0 _⟩

/-- A message of a frame carries one of its chunks, behind the number of them. -/
theorem mem_frameMessages {frameID : UInt32} {data msg : Bytes}
    (h : msg ∈ frameMessages frameID data) :
    ∃ i c, (chunks frameChunkPayload data)[i]? = some c ∧
      msg = chunkMessage frameID (chunks frameChunkPayload data).length i c := by
  obtain ⟨⟨c, i⟩, hc, rfl⟩ := List.mem_map.1 h
  have hget := List.mem_zipIdx_iff_getElem?.1 hc
  refine ⟨i, c, hget, ?_⟩
  rw [chunkCount_eq (List.ne_nil_of_mem (List.mem_of_getElem? hget))]

/-- No message exceeds 16 KiB. -/
theorem length_of_mem_frameMessages {frameID : UInt32} {data msg : Bytes}
    (h : msg ∈ frameMessages frameID data) : msg.length ≤ 16 * 1024 := by
  obtain ⟨i, c, hc, rfl⟩ := mem_frameMessages h
  have hlen := length_le_of_mem_chunks (List.mem_of_getElem? hc)
  simp only [frameChunkPayload, frameChunkHeaderLen] at hlen
  simp only [chunkMessage, List.length_append, length_leBytes]
  omega

end DeskSync.Media
