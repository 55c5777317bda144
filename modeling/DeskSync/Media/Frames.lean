import DeskSync.Media.Assembler

/-!
# Frames across the channel

What the agent's `send_frame` puts on the channel, handed to the client's `_onFrameChunk`.

`frames_roundTrip`: over a channel that loses and reorders nothing, the client is handed the frames sent,
each once and in order, whatever partial frame it held before.
`handed_sent_frame`: whatever part of the messages arrives, in whatever order, the client is handed
complete frames only, as long as the frames have distinct ids.
-/

namespace DeskSync.Media

/-! ### A reliable channel -/

/-- A call of `send_frame`. -/
structure SendCall where
  frames : Option DataChannel
  data : Bytes
  maxBuffered : ℕ

/-- Successive calls, from the given value of the frame counter. -/
def sendFrames : UInt32 → List SendCall → List (SendCall × Sending)
  | _, [] => []
  | frameSeq, call :: calls =>
    let sending := sendFrame call.frames frameSeq call.data call.maxBuffered
    (call, sending) :: sendFrames sending.frameSeq calls

/-- The messages on the channel. -/
def messages (sends : List (SendCall × Sending)) : List Bytes := sends.flatMap fun c => c.2.sent

/-- The frame of a call that returned `Ok(true)`. -/
def frameSent : SendCall × Sending → Option Bytes
  | (call, ⟨.ok true, _, _⟩) => some call.data
  | _ => none

/-- The chunks `post` that follow the chunks `pre` already held complete the frame. -/
theorem handed_rest (frameID : UInt32) {count : ℕ} (hmax : count ≤ u16Max) (pre post : List Bytes)
    (hpre : pre ≠ []) (hpost : post ≠ []) (hcount : pre.length + post.length = count) :
    handed ⟨some frameID.toNat, count, pre⟩
      ((post.zipIdx pre.length).map fun c => chunkMessage frameID count c.2 c.1) =
      [(pre ++ post).flatten] := by
  induction post generalizing pre with
  | nil => exact absurd rfl hpost
  | cons c post ih =>
    have hpos : pre.length ≠ 0 := fun h => hpre (List.length_eq_zero_iff.1 h)
    rw [List.length_cons] at hcount
    rw [List.zipIdx_cons, List.map_cons, handed_cons,
      onFrameChunk_chunkMessage _ _ (by omega) hmax (by omega), if_neg hpos, if_neg (by simp)]
    cases post with
    | nil =>
      rw [List.length_nil] at hcount
      simp [Assembler.complete, handed, Run.events, hcount]
    | cons c' post =>
      have hmore : ¬ (pre ++ [c]).length = count := by
        rw [List.length_append, List.length_singleton]
        rw [List.length_cons] at hcount
        omega
      have hrest := ih (pre ++ [c]) (by simp) (by simp) (by simp at hcount ⊢; omega)
      rw [List.append_assoc, List.singleton_append] at hrest
      simp only [Assembler.complete, if_neg hmore, Option.toList_none, List.nil_append]
      rwa [List.length_append, List.length_singleton] at hrest

/-- A frame whose messages all arrive is handed over, whatever the assembler held. -/
theorem handed_frameMessages (s : Assembler) (frameID : UInt32) {data : Bytes} (hdata : data ≠ [])
    (hmax : chunkCount data ≤ u16Max) : handed s (frameMessages frameID data) = [data] := by
  have hne : chunks frameChunkPayload data ≠ [] := chunks_ne_nil (by decide) hdata
  have hflat : (chunks frameChunkPayload data).flatten = data := flatten_chunks (by decide) data
  rw [chunkCount_eq hne] at hmax
  rw [frameMessages, chunkCount_eq hne]
  generalize chunks frameChunkPayload data = cs at *
  obtain ⟨c, cs, rfl⟩ := List.exists_cons_of_ne_nil hne
  rw [List.zipIdx_cons, List.map_cons, handed_cons,
    onFrameChunk_chunkMessage _ _ (by simp) hmax (by simp), if_pos rfl]
  cases cs with
  | nil => simpa [Assembler.complete, handed, Run.events] using hflat
  | cons c' cs =>
    have hmore : ¬ [c].length = (c :: c' :: cs).length := by simp
    have hrest := handed_rest frameID hmax [c] (c' :: cs) (by simp) (by simp) (by simp; omega)
    simp only [Assembler.complete, if_neg hmore, Option.toList_none, List.nil_append]
    rw [List.singleton_append, hflat] at hrest
    exact hrest

/-- What one call puts on the channel, unless it fails while sending, is its frame or nothing. -/
theorem handed_sendFrame (s : Assembler) (frameSeq : UInt32) {call : SendCall} (hdata : call.data ≠ [])
    (hsend : (sendFrame call.frames frameSeq call.data call.maxBuffered).result ≠ .error .send) :
    handed s (sendFrame call.frames frameSeq call.data call.maxBuffered).sent =
      (frameSent (call, sendFrame call.frames frameSeq call.data call.maxBuffered)).toList := by
  rcases sendFrame_cases call.frames frameSeq call.data call.maxBuffered with
    ⟨r, hr, h⟩ | ⟨dc, hcount, h⟩
  · rw [h]
    rcases r with e | b
    · rfl
    · cases b with
      | false => rfl
      | true => exact absurd rfl hr
  · rw [h] at hsend ⊢
    rcases sendAll_cases dc 0 (frameMessages frameSeq call.data) with hall | herr
    · rw [hall]
      exact handed_frameMessages s frameSeq hdata hcount
    · exact absurd herr hsend

/-- The frames of calls none of which fails while sending arrive, each once and in order. -/
theorem handed_messages (frameSeq : UInt32) (calls : List SendCall) (hdata : ∀ c ∈ calls, c.data ≠ [])
    (hsend : ∀ c ∈ sendFrames frameSeq calls, c.2.result ≠ .error .send) (s : Assembler) :
    handed s (messages (sendFrames frameSeq calls)) =
      (sendFrames frameSeq calls).filterMap frameSent := by
  induction calls generalizing frameSeq s with
  | nil => rfl
  | cons call calls ih =>
    have hfirst := handed_sendFrame s frameSeq (hdata call List.mem_cons_self)
      (hsend _ List.mem_cons_self)
    have hrest := ih (sendFrame call.frames frameSeq call.data call.maxBuffered).frameSeq
      (fun c hc => hdata c (List.mem_cons_of_mem _ hc))
      (fun c hc => hsend c (List.mem_cons_of_mem _ hc))
    rw [sendFrames, messages, List.flatMap_cons, handed_append, hfirst, ← messages, hrest,
      List.filterMap_cons]
    cases frameSent (call, sendFrame call.frames frameSeq call.data call.maxBuffered) <;> rfl

/-- The call finds an open channel with room that accepts every message, and its frame is neither empty nor has
too many chunks. -/
structure SendCall.GoesThrough (call : SendCall) : Prop where
  channel : ∃ dc, call.frames = some dc ∧ dc.isOpen = true ∧ dc.bufferedAmount ≤ call.maxBuffered ∧
    ∀ n, dc.accepts n = true
  data : call.data ≠ []
  count : chunkCount call.data ≤ u16Max

/-- Such calls return `Ok(true)`, and their frames arrive. -/
theorem handed_goesThrough (frameSeq : UInt32) {calls : List SendCall} (hcalls : ∀ c ∈ calls, c.GoesThrough)
    (s : Assembler) : (sendFrames frameSeq calls).map (fun c => c.2.result) = calls.map (fun _ => .ok true) ∧
      handed s (messages (sendFrames frameSeq calls)) = calls.map (·.data) := by
  induction calls generalizing frameSeq s with
  | nil => exact ⟨rfl, rfl⟩
  | cons call calls ih =>
    obtain ⟨⟨dc, hframes, hopen, hroom, haccepts⟩, hdata, hcount⟩ := hcalls call List.mem_cons_self
    have hsend := sendFrame_ok frameSeq hopen hroom haccepts hcount
    obtain ⟨hresults, hrest⟩ := ih (frameSeq + 1) (fun c hc => hcalls c (List.mem_cons_of_mem _ hc))
      (assemble s (frameMessages frameSeq call.data))
    simp only [sendFrames, hframes, hsend, List.map_cons, hresults]
    refine ⟨trivial, ?_⟩
    rw [messages, List.flatMap_cons, handed_append, handed_frameMessages s frameSeq hdata hcount]
    exact congrArg (call.data :: ·) hrest

theorem length_of_mem_messages {frameSeq : UInt32} {calls : List SendCall} {msg : Bytes}
    (h : msg ∈ messages (sendFrames frameSeq calls)) : msg.length ≤ 16 * 1024 := by
  induction calls generalizing frameSeq with
  | nil => simp [messages, sendFrames] at h
  | cons call calls ih =>
    rw [sendFrames, messages, List.flatMap_cons, List.mem_append] at h
    rcases h with h | h
    · rcases sendFrame_sent call.frames frameSeq call.data call.maxBuffered with hs | ⟨-, hs⟩
      · rw [hs] at h
        simp at h
      · exact length_of_mem_frameMessages (hs.subset h)
    · exact ih h

/-- Over a reliable ordered channel the client is handed the frames sent, each once and in order,
whatever partial frame it held; no message exceeds 16 KiB; and a frame of too many chunks is refused
before anything is sent. -/
theorem frames_roundTrip (frameSeq : UInt32) (calls : List SendCall) :
    ((∀ c ∈ calls, c.data ≠ []) →
      (∀ c ∈ sendFrames frameSeq calls, c.2.result ≠ .error .send) →
      ∀ s : Assembler, handed s (messages (sendFrames frameSeq calls)) =
        (sendFrames frameSeq calls).filterMap frameSent) ∧
    (∀ msg ∈ messages (sendFrames frameSeq calls), msg.length ≤ 16 * 1024) ∧
    ∀ (dc : DataChannel) (data : Bytes) (maxBuffered : ℕ), dc.isOpen = true →
      dc.bufferedAmount ≤ maxBuffered → u16Max < chunkCount data →
      sendFrame (some dc) frameSeq data maxBuffered =
        ⟨.error (.tooLarge data.length (chunkCount data)), [], frameSeq⟩ := by
  refine ⟨handed_messages frameSeq calls, fun _ => length_of_mem_messages, ?_⟩
  intro dc data maxBuffered hopen hroom hlarge
  simp [sendFrame, hopen, Nat.not_lt.2 hroom, hlarge]

/-- An open channel on which every `send` succeeds. -/
def reliable : DataChannel where
  isOpen := true
  bufferedAmount := 0
  accepts _ := true

/-- Two frames, the second with the id the counter wraps to, arrive after half a frame of an older id. -/
theorem frames_roundTrip_wraps :
    handed ⟨some 7, 2, [[9]]⟩ (messages (sendFrames (UInt32.ofNat (2 ^ 32 - 1))
      [⟨some reliable, [1, 2], 0⟩, ⟨some reliable, [3], 0⟩])) = [[1, 2], [3]] :=
  ((frames_roundTrip (UInt32.ofNat (2 ^ 32 - 1))
    [⟨some reliable, [1, 2], 0⟩, ⟨some reliable, [3], 0⟩]).1 (by decide) (by decide) _).trans (by decide)

/-! ### An unreliable channel -/

/-- A frame and the id it was sent under. -/
structure SentFrame where
  id : UInt32
  data : Bytes
  deriving DecidableEq

/-- A call of `send_frame` with the frame and its id put the message on the channel. -/
def SentFrame.Sends (f : SentFrame) (msg : Bytes) : Prop :=
  ∃ frames maxBuffered, msg ∈ (sendFrame frames f.id f.data maxBuffered).sent

/-- A message of at least a header, with a chunk count of zero. -/
def zeroCount (msg : Bytes) : Prop :=
  leNat (((msg.take frameChunkHeaderLen).drop 6).take 2) = 0

/-- A chunk of one of the frames, a message without a header, or one that announces no chunks. -/
def Arrives (fs : List SentFrame) (msg : Bytes) : Prop :=
  (∃ f ∈ fs, f.Sends msg) ∨ msg.length < frameChunkHeaderLen ∨ zeroCount msg

/-- What is held is the beginning of one of the frames. -/
def Held (fs : List SentFrame) (s : Assembler) : Prop :=
  ∀ id ∈ s.asmFrameID, ∃ f ∈ fs, f.id.toNat = id ∧ s.asmChunks <+: chunks frameChunkPayload f.data ∧
    s.asmExpectedChunks = (chunks frameChunkPayload f.data).length

theorem SentFrame.Sends.chunk {f : SentFrame} {msg : Bytes} (h : f.Sends msg) :
    (chunks frameChunkPayload f.data).length ≤ u16Max ∧
      ∃ i c, (chunks frameChunkPayload f.data)[i]? = some c ∧
        msg = chunkMessage f.id (chunks frameChunkPayload f.data).length i c := by
  obtain ⟨frames, maxBuffered, hmem⟩ := h
  rcases sendFrame_sent frames f.id f.data maxBuffered with hs | ⟨hcount, hs⟩
  · rw [hs] at hmem
    simp at hmem
  · obtain ⟨i, c, hc, rfl⟩ := mem_frameMessages (hs.subset hmem)
    rw [chunkCount_eq (List.ne_nil_of_mem (List.mem_of_getElem? hc))] at hcount
    exact ⟨hcount, i, c, hc, rfl⟩

/-- The chunks of a frame, held from its first, complete it or still are its beginning. -/
theorem held_complete {fs : List SentFrame} {f : SentFrame} (hf : f ∈ fs) {held : List Bytes}
    (hheld : held <+: chunks frameChunkPayload f.data) :
    let s : Assembler := ⟨some f.id.toNat, (chunks frameChunkPayload f.data).length, held⟩
    Held fs s.complete.1 ∧ ∀ bytes ∈ s.complete.2, ∃ f ∈ fs, bytes = f.data := by
  dsimp only [Assembler.complete]
  split_ifs with hlen
  · refine ⟨nofun, ?_⟩
    intro bytes hbytes
    obtain rfl := Option.some.inj hbytes
    rw [hheld.eq_of_length hlen]
    exact ⟨f, hf, flatten_chunks (by decide) f.data⟩
  · refine ⟨?_, nofun⟩
    intro id hid
    obtain rfl := Option.some.inj hid
    exact ⟨f, hf, rfl, hheld, rfl⟩

theorem held_step {fs : List SentFrame} (hids : (fs.map SentFrame.id).Nodup) {s : Assembler}
    (hs : Held fs s) {msg : Bytes} (hmsg : Arrives fs msg) :
    Held fs (onFrameChunk s msg).1 ∧ ∀ bytes ∈ (onFrameChunk s msg).2, ∃ f ∈ fs, bytes = f.data := by
  rcases hmsg with ⟨f, hf, hsends⟩ | hshort | hzero
  · obtain ⟨hmax, i, c, hc, rfl⟩ := hsends.chunk
    obtain ⟨hi, rfl⟩ := List.getElem?_eq_some_iff.1 hc
    rw [onFrameChunk_chunkMessage s f.id (Nat.zero_lt_of_lt hi) hmax hi]
    split_ifs with hfirst hmiss
    · -- the first chunk starts the frame over
      subst hfirst
      refine held_complete hf ?_
      obtain ⟨c, cs, hcs⟩ := List.exists_cons_of_ne_nil (List.ne_nil_of_length_pos hi)
      simp [hcs]
    · exact ⟨nofun, nofun⟩
    · -- the next chunk of the frame held, which is this frame: no other has its id
      rw [not_or, not_not, not_not] at hmiss
      obtain ⟨hid, hlen⟩ := hmiss
      obtain ⟨f', hf', hid', hheld, hexp⟩ := hs _ hid
      obtain rfl : f' = f := List.inj_on_of_nodup_map hids hf' hf (UInt32.toNat_inj.1 hid')
      have hnext : s.asmChunks ++ [(chunks frameChunkPayload f'.data)[i]] <+:
          chunks frameChunkPayload f'.data := by
        rw [List.prefix_iff_eq_take.1 hheld, hlen, List.take_append_getElem hi]
        exact List.take_prefix _ _
      have hdone := held_complete hf hnext
      rwa [← hexp, ← hid] at hdone
  · rw [onFrameChunk, if_pos hshort]
    exact ⟨hs, nofun⟩
  · unfold zeroCount at hzero
    simp only [onFrameChunk, hzero, if_true, ite_self]
    exact ⟨hs, nofun⟩

/-- Whatever part of the messages of frames with distinct ids arrives, and in whatever order, the client
is handed complete frames only. -/
theorem handed_sent_frame (fs : List SentFrame) (hids : (fs.map SentFrame.id).Nodup) (msgs : List Bytes)
    (hmsgs : ∀ msg ∈ msgs, Arrives fs msg) :
    ∀ bytes ∈ handed {} msgs, ∃ f ∈ fs, bytes = f.data := by
  have hheld : Held fs {} := nofun
  generalize ({} : Assembler) = s at hheld
  induction msgs generalizing s with
  | nil => exact fun bytes hbytes => absurd hbytes List.not_mem_nil
  | cons msg msgs ih =>
    obtain ⟨hnext, hhanded⟩ := held_step hids hheld (hmsgs msg List.mem_cons_self)
    intro bytes hbytes
    rw [handed_cons, List.mem_append, Option.mem_toList] at hbytes
    rcases hbytes with hbytes | hbytes
    · exact hhanded bytes hbytes
    · exact ih (fun m hm => hmsgs m (List.mem_cons_of_mem _ hm)) _ hnext bytes hbytes

/-- The second frame arrives between a truncated message and a repetition of the first. -/
theorem handed_sent_frame_mixed :
    let fs : List SentFrame := [⟨1, [1, 2]⟩, ⟨2, [3]⟩]
    ∀ bytes ∈ handed {} [chunkMessage 1 1 0 [1, 2], [0, 0], chunkMessage 2 1 0 [3],
      chunkMessage 1 1 0 [1, 2]], ∃ f ∈ fs, bytes = f.data := by
  have hfirst : Arrives [⟨1, [1, 2]⟩, ⟨2, [3]⟩] (chunkMessage 1 1 0 [1, 2]) :=
    .inl ⟨⟨1, [1, 2]⟩, by decide, some reliable, 0, by decide⟩
  have hsecond : Arrives [⟨1, [1, 2]⟩, ⟨2, [3]⟩] (chunkMessage 2 1 0 [3]) :=
    .inl ⟨⟨2, [3]⟩, by decide, some reliable, 0, by decide⟩
  refine handed_sent_frame [⟨1, [1, 2]⟩, ⟨2, [3]⟩] (by decide) _ ?_
  intro msg hmsg
  simp only [List.mem_cons, List.not_mem_nil, or_false] at hmsg
  rcases hmsg with rfl | rfl | rfl | rfl
  · exact hfirst
  · exact .inr (.inl (by decide))
  · exact hsecond
  · exact hfirst

end DeskSync.Media
