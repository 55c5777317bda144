import DeskSync.Media.SendFrame
import DeskSync.Lib.Run

/-!
# Reassembling a screen frame

`WebRtcSession._onFrameChunk` of the Dart client collects the chunks of one frame in three fields
(`Assembler`) and hands the frame to `_onFrameBytes` when its last chunk arrives. Dart reads the header
fields into `int`s, here `ℕ`.
-/

namespace DeskSync.Media

/-- The fields `_onFrameChunk` reads and writes. -/
structure Assembler where
  asmFrameID : Option ℕ := none
  asmExpectedChunks : ℕ := 0
  asmChunks : List Bytes := []
  deriving DecidableEq

/-- The check after a chunk was added; the second component is handed to `_onFrameBytes`. -/
def Assembler.complete (s : Assembler) : Assembler × Option Bytes :=
  if s.asmChunks.length = s.asmExpectedChunks then
    ({ s with asmFrameID := none, asmChunks := [] }, some s.asmChunks.flatten)
  else (s, none)

def onFrameChunk (s : Assembler) (bytes : Bytes) : Assembler × Option Bytes :=
  if bytes.length < frameChunkHeaderLen then (s, none)
  else
    let header := bytes.take frameChunkHeaderLen
    let frameID := leNat (header.take 4)
    let chunkIndex := leNat ((header.drop 4).take 2)
    let chunkCount := leNat ((header.drop 6).take 2)
    if chunkCount = 0 then (s, none)
    else
      let payload := bytes.drop frameChunkHeaderLen
      if chunkIndex = 0 then
        Assembler.complete ⟨some frameID, chunkCount, [payload]⟩
      else if s.asmFrameID ≠ some frameID ∨ s.asmChunks.length ≠ chunkIndex then
        ({ s with asmFrameID := none, asmChunks := [] }, none)
      else
        Assembler.complete { s with asmChunks := s.asmChunks ++ [payload] }

/-- The assembler after the messages. -/
def assemble (s : Assembler) (msgs : List Bytes) : Assembler :=
  Run.exec (fun s msg => (onFrameChunk s msg).1) s msgs

/-- The frames handed to `_onFrameBytes`. -/
def handed (s : Assembler) (msgs : List Bytes) : List Bytes :=
  Run.events (fun s msg => (onFrameChunk s msg).1) (fun s msg => (onFrameChunk s msg).2) s msgs

theorem handed_cons (s : Assembler) (msg : Bytes) (msgs : List Bytes) :
    handed s (msg :: msgs) = (onFrameChunk s msg).2.toList ++ handed (onFrameChunk s msg).1 msgs :=
  rfl

theorem handed_append (s : Assembler) (msgs msgs' : List Bytes) :
    handed s (msgs ++ msgs') = handed s msgs ++ handed (assemble s msgs) msgs' :=
  Run.events_append s msgs msgs'

/-! ### One message -/

/-- A message of `send_frame`, read back. -/
theorem onFrameChunk_chunkMessage (s : Assembler) (frameID : UInt32) {count idx : ℕ}
    (hcount : 0 < count) (hmax : count ≤ u16Max) (hidx : idx < count) (payload : Bytes) :
    onFrameChunk s (chunkMessage frameID count idx payload) =
      if idx = 0 then Assembler.complete ⟨some frameID.toNat, count, [payload]⟩
      else if s.asmFrameID ≠ some frameID.toNat ∨ s.asmChunks.length ≠ idx then
        ({ s with asmFrameID := none, asmChunks := [] }, none)
      else Assembler.complete { s with asmChunks := s.asmChunks ++ [payload] } := by
  have hid : (leBytes 4 frameID.toNat).length = 4 := length_leBytes _ _
  have hix : (leBytes 2 (UInt16.ofNat idx).toNat).length = 2 := length_leBytes _ _
  have hct : (leBytes 2 (UInt16.ofNat count).toNat).length = 2 := length_leBytes _ _
  have hidN : leNat (leBytes 4 frameID.toNat) = frameID.toNat :=
    leNat_leBytes_of_lt frameID.toNat_lt
  have hixN : leNat (leBytes 2 (UInt16.ofNat idx).toNat) = idx := by
    rw [leNat_leBytes_of_lt (UInt16.toNat_lt _), UInt16.toNat_ofNat']
    exact Nat.mod_eq_of_lt (by simp only [u16Max] at hmax; omega)
  have hctN : leNat (leBytes 2 (UInt16.ofNat count).toNat) = count := by
    rw [leNat_leBytes_of_lt (UInt16.toNat_lt _), UInt16.toNat_ofNat']
    exact Nat.mod_eq_of_lt (by simp only [u16Max] at hmax; omega)
  unfold onFrameChunk chunkMessage
  generalize leBytes 4 frameID.toNat = a at *
  generalize leBytes 2 (UInt16.ofNat idx).toNat = b at *
  generalize leBytes 2 (UInt16.ofNat count).toNat = c at *
  have hshort : ¬ (a ++ b ++ c ++ payload).length < frameChunkHeaderLen := by
    simp only [List.length_append, frameChunkHeaderLen]
    omega
  have hhead : (a ++ b ++ c ++ payload).take frameChunkHeaderLen = a ++ b ++ c := by
    refine List.take_left' ?_
    simp [frameChunkHeaderLen, hid, hix, hct]
  have htail : (a ++ b ++ c ++ payload).drop frameChunkHeaderLen = payload := by
    refine List.drop_left' ?_
    simp [frameChunkHeaderLen, hid, hix, hct]
  have hfirst : (a ++ b ++ c).take 4 = a := by
    rw [List.append_assoc]
    exact List.take_left' hid
  have hsecond : ((a ++ b ++ c).drop 4).take 2 = b := by
    rw [List.append_assoc, List.drop_left' hid]
    exact List.take_left' hix
  have hthird : ((a ++ b ++ c).drop 6).take 2 = c := by
    rw [List.drop_left' (by simp [hid, hix])]
    exact List.take_of_length_le hct.le
  rw [if_neg hshort]
  simp only [hhead, htail, hfirst, hsecond, hthird, hidN, hixN, hctN, Nat.ne_of_gt hcount, if_false]

end DeskSync.Media
