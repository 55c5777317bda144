import DeskSync.Media.Frames

/-!
# Cut frames

A call of `send_frame` that fails leaves the beginning of its frame on the channel, and `close` resets the
assembler in the middle of one.

`handed_sendFrame_eq`: whatever the assembler held, a call that returned `Ok(true)` hands its frame over, and any
other call hands nothing over.
`handed_reset`: an assembler that was reset is handed some of what it would have been handed.
-/

namespace DeskSync.Media

/-- A send that fails leaves a message out. -/
theorem sendAll_short (dc : DataChannel) (n : ℕ) (msgs : List Bytes)
    (h : (dc.sendAll n msgs).1 = .error .send) : (dc.sendAll n msgs).2.length < msgs.length := by
  induction msgs generalizing n with
  | nil => cases h
  | cons msg msgs ih =>
    rw [DataChannel.sendAll] at h ⊢
    split_ifs at h ⊢ with haccepts
    · exact Nat.succ_lt_succ (ih (n + 1) h)
    · exact Nat.succ_pos _

/-- Chunks behind those already held that do not complete the frame. -/
theorem handed_part (frameID : UInt32) {count : ℕ} (hmax : count ≤ u16Max) (pre post : List Bytes)
    (hpre : pre ≠ []) (hcount : pre.length + post.length < count) :
    handed ⟨some frameID.toNat, count, pre⟩
      ((post.zipIdx pre.length).map fun c => chunkMessage frameID count c.2 c.1) = [] := by
  induction post generalizing pre with
  | nil => rfl
  | cons c post ih =>
    have hpos : pre.length ≠ 0 := fun h => hpre (List.length_eq_zero_iff.1 h)
    rw [List.length_cons] at hcount
    have hmore : ¬ (pre ++ [c]).length = count := by
      rw [List.length_append, List.length_singleton]
      omega
    have hrest := ih (pre ++ [c]) (by simp) (by rw [List.length_append, List.length_singleton]; omega)
    rw [List.zipIdx_cons, List.map_cons, handed_cons,
      onFrameChunk_chunkMessage _ _ (by omega) hmax (by omega), if_neg hpos, if_neg (by simp)]
    simp only [Assembler.complete, if_neg hmore, Option.toList_none, List.nil_append]
    rwa [List.length_append, List.length_singleton] at hrest

theorem take_zipIdx {α : Type} (l : List α) (n : ℕ) : l.zipIdx.take n = (l.take n).zipIdx := by
  refine List.ext_getElem? fun i => ?_
  rw [List.getElem?_take, List.getElem?_zipIdx, List.getElem?_zipIdx, List.getElem?_take]
  split_ifs <;> rfl

/-- The beginning of a frame alone is not handed over. -/
theorem handed_cut (s : Assembler) (frameID : UInt32) {data : Bytes} {msgs : List Bytes}
    (hmax : chunkCount data ≤ u16Max) (hpre : msgs <+: frameMessages frameID data)
    (hlt : msgs.length < (frameMessages frameID data).length) : handed s msgs = [] := by
  have hlen : (frameMessages frameID data).length = (chunks frameChunkPayload data).length := by
    rw [frameMessages, List.length_map, List.length_zipIdx]
  rw [hlen] at hlt
  have hne : chunks frameChunkPayload data ≠ [] := List.ne_nil_of_length_pos (Nat.zero_lt_of_lt hlt)
  rw [chunkCount_eq hne] at hmax
  have hmsgs : msgs = (((chunks frameChunkPayload data).take msgs.length).zipIdx).map fun c =>
      chunkMessage frameID (chunks frameChunkPayload data).length c.2 c.1 := by
    have htake := List.prefix_iff_eq_take.1 hpre
    rwa [frameMessages, chunkCount_eq hne, ← List.map_take, take_zipIdx] at htake
  have hpart : ((chunks frameChunkPayload data).take msgs.length).length = msgs.length :=
    List.length_take_of_le hlt.le
  rw [← hpart] at hlt
  rw [hmsgs]
  generalize (chunks frameChunkPayload data).take msgs.length = cs at hlt ⊢
  cases cs with
  | nil => rfl
  | cons c cs =>
    have hrest := handed_part frameID hmax [c] cs (by simp) (by simpa [Nat.add_comm] using hlt)
    have hmore : ¬ [c].length = (chunks frameChunkPayload data).length := by
      simp only [List.length_cons, List.length_nil] at hlt ⊢
      omega
    rw [List.zipIdx_cons, List.map_cons, handed_cons,
      onFrameChunk_chunkMessage _ _ (Nat.zero_lt_of_lt hlt) hmax (Nat.zero_lt_of_lt hlt), if_pos rfl]
    simp only [Assembler.complete, if_neg hmore, Option.toList_none, List.nil_append]
    exact hrest

/-- The frame a call delivers. An empty one has no message. -/
def delivered (data : Bytes) : Except SendError Bool → List Bytes
  | .ok true => if data = [] then [] else [data]
  | _ => []

theorem handed_sendFrame_eq (s : Assembler) (frames : Option DataChannel) (frameSeq : UInt32) (data : Bytes)
    (maxBuffered : ℕ) : handed s (sendFrame frames frameSeq data maxBuffered).sent =
      delivered data (sendFrame frames frameSeq data maxBuffered).result := by
  rcases sendFrame_cases frames frameSeq data maxBuffered with ⟨r, hr, h⟩ | ⟨dc, hcount, h⟩
  · rw [h]
    rcases r with e | b
    · rfl
    · cases b with
      | false => rfl
      | true => exact absurd rfl hr
  · rw [h]
    rcases sendAll_cases dc 0 (frameMessages frameSeq data) with hall | herr
    · rw [hall]
      by_cases hdata : data = []
      · subst hdata
        rfl
      · rw [handed_frameMessages s frameSeq hdata hcount, delivered, if_neg hdata]
    · have hpre := sendAll_prefix dc 0 (frameMessages frameSeq data)
      rw [handed_cut s frameSeq hcount hpre (sendAll_short dc 0 _ herr), herr]
      rfl

/-! ### A reset -/

/-- What was held does not matter to a first chunk, and any other resets an assembler that holds nothing. -/
theorem onFrameChunk_reset (s r : Assembler) (hr : r.asmFrameID = none) (msg : Bytes) :
    onFrameChunk r msg = onFrameChunk s msg ∨
      (onFrameChunk r msg).2 = none ∧ (onFrameChunk r msg).1.asmFrameID = none := by
  unfold onFrameChunk
  dsimp only
  split_ifs with hshort hzero hfirst hs hmiss
  · exact .inr ⟨rfl, hr⟩
  · exact .inr ⟨rfl, hr⟩
  · exact .inl rfl
  all_goals first
    | exact .inr ⟨rfl, rfl⟩
    | simp_all

theorem handed_reset (s r : Assembler) (hr : r.asmFrameID = none) (msgs : List Bytes) :
    (handed r msgs).Sublist (handed s msgs) := by
  induction msgs generalizing s r with
  | nil => exact List.Sublist.refl _
  | cons msg msgs ih =>
    rw [handed_cons, handed_cons]
    rcases onFrameChunk_reset s r hr msg with h | ⟨hnone, hreset⟩
    · rw [h]
    · rw [hnone, Option.toList_none, List.nil_append]
      exact (ih _ _ hreset).trans (List.sublist_append_right _ _)

end DeskSync.Media
