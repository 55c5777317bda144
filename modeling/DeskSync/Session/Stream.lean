import DeskSync.Media.CaptureLoop
import DeskSync.Media.Cuts
import DeskSync.Media.Encoder
import DeskSync.Viewer.Decode

/-!
# The screen on the phone

The way of a frame through a session: the capture loop publishes it on its watch channel, the `frame_task` of
`handle_session` takes the latest one, encodes it and sends it, the data channel keeps the order, and the phone
reassembles, decodes and displays it. The capture loop, the encoder, `send_frame`, `_onFrameChunk` and the decode
loop are those of their own modules; here they are one system, in which each goes on at any time.

A step of `frame_task` is what it does between two of its awaits. The calls of `send_frame` are one step: nothing
else writes to the channel, and a task that is aborted within one is an aborted task whose last sends failed. The task
holds the capture loop, so `changed` does not fail.

`Source`: what is sent are encodings of published frames, in the order of their publication. `Paced`: frames are
encoded an interval apart, and the counters count. The rest of the way is in the next module.
-/

namespace DeskSync.Session.Stream

open Media Viewer Elements
open Media.CaptureLoop (CaptureSettings Progress)

/-- In nanoseconds. -/
def frameInterval : ℤ := 66000000

def maxBuffered : ℕ := 2 * 1024 * 1024

/-! ### The agent -/

/-- What `frame_task` waits for. -/
inductive Stage
  | spawned
  | changed
  | framesOpen (frame : Frame)
  | encode (frame : Frame)
  | sendFrame (encoded : EncodedFrame)
  | ended

/-- The variables of `frame_task`; `seen` is the version of the watch channel its receiver has seen. -/
structure Pump where
  stage : Stage := .spawned
  seen : ℕ := 0
  last : ℤ := 0
  sent : UInt64 := 0
  dropped : UInt64 := 0

inductive Event
  /-- The capture loop publishes a frame. -/
  | published (frame : Frame)
  /-- A frame is given to the encoder. -/
  | encodes (time : ℤ)
  /-- `send_frame` returned `Ok(true)` for the frame of this version, counted from zero. -/
  | sent (version : ℕ) (data : Bytes)
  | dropped
  /-- A frame is handed to `_onFrameBytes`. -/
  | handed (data : Bytes)
  | viewer (e : Decode.Event)

/-- The first poll. -/
def Pump.begin (p : Pump) (now : ℤ) : Pump := { p with stage := .changed, last := now - frameInterval }

/-- `changed` returns, and the latest frame is marked as seen. -/
def Pump.changed (p : Pump) (version : ℕ) (latest : Option Frame) (now : ℤ) : Pump :=
  if now - p.last < frameInterval then { p with seen := version }
  else match latest with
    | none => { p with seen := version }
    | some frame => { p with seen := version, stage := .framesOpen frame }

def Pump.framesOpen (p : Pump) (frame : Frame) (isOpen : Bool) (now : ℤ) : Pump :=
  if isOpen then { p with last := now, stage := .encode frame } else { p with stage := .changed }

/-- The encoder returns or panics. -/
def Pump.encoded (p : Pump) : Option Encoding → Pump
  | none => { p with stage := .ended }
  | some encoding =>
    match encoding.result with
    | .ok encoded => { p with stage := .sendFrame encoded }
    | .error _ => { p with stage := .changed }

def Pump.sendReturned (p : Pump) : Except SendError Bool → Pump
  | .ok true => { p with stage := .changed, sent := p.sent + 1 }
  | _ => { p with stage := .changed, dropped := p.dropped + 1 }

def sendEvent (version : ℕ) (data : Bytes) : Except SendError Bool → Event
  | .ok true => .sent version data
  | _ => .dropped

/-- The frame a step of the capture loop puts on the watch channel. -/
def publication (settings : CaptureSettings) (scaled : Scaled) (w : CaptureLoop.World) : CaptureLoop.Step → Option Frame
  | .env (i, .ok frame) =>
    if w.store.progress i = some .capturing then downscaleToMaxHeight scaled frame settings.maxHeight else none
  | _ => none

/-! ### The phone -/

structure Phone where
  assembler : Assembler := {}
  viewer : Decode.World := {}

/-- `onMessage` of the `frames` channel. -/
def Phone.receive (p : Phone) (msg : Bytes) : Phone × List Event :=
  match (onFrameChunk p.assembler msg).2 with
  | none => ({ p with assembler := (onFrameChunk p.assembler msg).1 }, [])
  | some data =>
    (⟨(onFrameChunk p.assembler msg).1, (p.viewer.step .frame).1⟩,
      .handed data :: (p.viewer.step .frame).2.map .viewer)

/-- The first `close` also drops the frame being reassembled. -/
def Phone.close (p : Phone) : Phone × List Event :=
  (⟨if p.viewer.pipeline.closed then p.assembler else { p.assembler with asmFrameID := none, asmChunks := [] },
    (p.viewer.step .close).1⟩, (p.viewer.step .close).2.map .viewer)

/-- A step of the session on the phone; a frame is completed by `receive` only. -/
def Phone.step (p : Phone) : Decode.Step → Phone × List Event
  | .frame => (p, [])
  | .close => p.close
  | s => ({ p with viewer := (p.viewer.step s).1 }, (p.viewer.step s).2.map .viewer)

/-! ### Together -/

structure World where
  capture : CaptureLoop.World := CaptureLoop.idle
  /-- The version of the watch channel. -/
  version : ℕ := 0
  now : ℤ := 0
  pump : Pump := {}
  frameSeq : UInt32 := 0
  channel : List Bytes := []
  phone : Phone := {}

inductive Step
  | capture (l : CaptureLoop.Step)
  | tick (d : ℕ)
  /-- The calls that `frame_task` waits for return. -/
  | begins
  | changed
  | framesOpen (isOpen : Bool)
  | encoded
  | sent (frames : Option DataChannel)
  | abort
  /-- The next message arrives. -/
  | arrives
  | viewer (s : Decode.Step)

section Step
variable (settings : CaptureSettings) (scaled : Scaled) (jpeg : Jpeg)

def World.step (w : World) : Step → World × List Event
  | .capture l =>
    let capture := (CaptureLoop.system settings scaled).step w.capture l
    match publication settings scaled w.capture l with
    | some frame => ({ w with capture, version := w.version + 1 }, [.published frame])
    | none => ({ w with capture }, [])
  | .tick d => ({ w with now := w.now + d }, [])
  | .begins =>
    match w.pump.stage with
    | .spawned => ({ w with pump := w.pump.begin w.now }, [])
    | _ => (w, [])
  | .changed =>
    match w.pump.stage with
    | .changed =>
      if w.pump.seen = w.version then (w, [])
      else ({ w with pump := w.pump.changed w.version w.capture.store.latest w.now }, [])
    | _ => (w, [])
  | .framesOpen isOpen =>
    match w.pump.stage with
    | .framesOpen frame =>
      ({ w with pump := w.pump.framesOpen frame isOpen w.now }, if isOpen then [.encodes w.now] else [])
    | _ => (w, [])
  | .encoded =>
    match w.pump.stage with
    | .encode frame =>
      ({ w with pump := w.pump.encoded (JpegScreenEncoder.encode scaled jpeg .streamingDefault frame) }, [])
    | _ => (w, [])
  | .sent frames =>
    match w.pump.stage with
    | .sendFrame encoded =>
      let sending := Media.sendFrame frames w.frameSeq encoded.data maxBuffered
      ({ w with
          pump := w.pump.sendReturned sending.result
          frameSeq := sending.frameSeq
          channel := w.channel ++ sending.sent },
        [sendEvent (w.pump.seen - 1) encoded.data sending.result])
    | _ => (w, [])
  | .abort => ({ w with pump := { w.pump with stage := .ended } }, [])
  | .arrives =>
    match w.channel with
    | [] => (w, [])
    | msg :: channel => ({ w with channel, phone := (w.phone.receive msg).1 }, (w.phone.receive msg).2)
  | .viewer s => ({ w with phone := (w.phone.step s).1 }, (w.phone.step s).2)

def World.run (l : List Step) : World × List Event := Run.exec (Run.record (World.step settings scaled jpeg)) ({}, []) l

end Step

/-! ### What the runs are about -/

def Event.frame? : Event → Option Frame
  | .published frame => some frame
  | _ => none

def Event.time? : Event → Option ℤ
  | .encodes time => some time
  | _ => none

/-- An empty frame has no chunk. -/
def Event.sent? : Event → Option (ℕ × Bytes)
  | .sent version data => if data = [] then none else some (version, data)
  | _ => none

def Event.handed? : Event → Option Bytes
  | .handed data => some data
  | _ => none

def Event.viewer? : Event → Option Decode.Event
  | .viewer e => some e
  | _ => none

def Event.isSent : Event → Bool
  | .sent .. => true
  | _ => false

def Event.isDropped : Event → Bool
  | .dropped => true
  | _ => false

/-- The frames published, by version. -/
abbrev framesOf (h : List Event) : List Frame := h.filterMap Event.frame?

/-- When frames were given to the encoder. -/
abbrev timesOf (h : List Event) : List ℤ := h.filterMap Event.time?

/-- The frames sent, with their versions. -/
abbrev sentOf (h : List Event) : List (ℕ × Bytes) := h.filterMap Event.sent?

/-- The frames reassembled. -/
abbrev handedOf (h : List Event) : List Bytes := h.filterMap Event.handed?

abbrev viewerOf (h : List Event) : List Decode.Event := h.filterMap Event.viewer?

section Append
variable (h es : List Event)

theorem framesOf_append : framesOf (h ++ es) = framesOf h ++ framesOf es := List.filterMap_append

theorem timesOf_append : timesOf (h ++ es) = timesOf h ++ timesOf es := List.filterMap_append

theorem sentOf_append : sentOf (h ++ es) = sentOf h ++ sentOf es := List.filterMap_append

theorem handedOf_append : handedOf (h ++ es) = handedOf h ++ handedOf es := List.filterMap_append

theorem viewerOf_append : viewerOf (h ++ es) = viewerOf h ++ viewerOf es := List.filterMap_append

end Append

/-- The data are the encoding of the frame of the version. -/
def Encodes (scaled : Scaled) (jpeg : Jpeg) (frames : List Frame) (x : ℕ × Bytes) : Prop :=
  ∃ frame encoding encoded, frames[x.1]? = some frame ∧
    JpegScreenEncoder.encode scaled jpeg .streamingDefault frame = some encoding ∧
    encoding.result = .ok encoded ∧ encoded.data = x.2

/-! ### What is published -/

section Source
variable {settings : CaptureSettings} {scaled : Scaled} {jpeg : Jpeg} {w : World} {h es : List Event}

theorem latest_exec (monitors : Except CaptureLoop.AgentError (List CaptureLoop.Monitor)) (c : CaptureLoop.Call)
    (s : CaptureLoop.Loop) : (CaptureLoop.exec monitors c s).2.latest = s.latest := by
  cases c with
  | halt =>
    simp only [CaptureLoop.exec]
    split <;> rfl
  | _ => rfl

/-- The watch channel holds what was published last. -/
theorem latest_step (settings : CaptureSettings) (scaled : Scaled) (w : CaptureLoop.World) (l : CaptureLoop.Step) :
    ((CaptureLoop.system settings scaled).step w l).store.latest =
      (publication settings scaled w l).or w.store.latest := by
  cases l with
  | spawn q e => rfl
  | advance i e =>
    simp only [Proc.System.step]
    split
    · exact latest_exec e _ _
    · rfl
  | env v =>
    obtain ⟨i, captured⟩ := v
    show (w.store.poll settings scaled i captured).latest = _
    unfold CaptureLoop.Loop.poll
    cases captured with
    | error e =>
      simp only [publication, Option.none_or]
      split <;> rfl
    | ok frame =>
      simp only [publication]
      split
      · next hp => rw [hp, if_neg (by decide), Option.none_or]; rfl
      · next hp => rw [hp, if_neg (by decide), Option.none_or]; rfl
      · next hp =>
        rw [hp, if_pos rfl]
        cases downscaleToMaxHeight scaled frame settings.maxHeight <;> rfl
      · next hp =>
        rw [if_neg hp, Option.none_or]

/-- What is known of the frame the task is at, and of those it has sent. -/
def Stage.Traced (scaled : Scaled) (jpeg : Jpeg) (frames : List Frame) (sent : List (ℕ × Bytes)) (seen : ℕ) :
    Stage → Prop
  | .framesOpen frame | .encode frame => ∃ n, seen = n + 1 ∧ frames[n]? = some frame ∧ ∀ x ∈ sent, x.1 < n
  | .sendFrame encoded =>
    ∃ n, seen = n + 1 ∧ Encodes scaled jpeg frames (n, encoded.data) ∧ ∀ x ∈ sent, x.1 < n
  | _ => ∀ x ∈ sent, x.1 < seen

/-- From the capture loop to `send_frame`: versions increase. -/
structure Source (scaled : Scaled) (jpeg : Jpeg) (w : World) (h : List Event) : Prop where
  latest : w.capture.store.latest = (framesOf h).getLast?
  version : w.version = (framesOf h).length
  seen : w.pump.seen ≤ w.version
  stage : w.pump.stage.Traced scaled jpeg (framesOf h) (sentOf h) w.pump.seen
  encoded : ∀ x ∈ sentOf h, Encodes scaled jpeg (framesOf h) x
  increasing : (sentOf h).Pairwise fun x y => x.1 < y.1

theorem Encodes.publish {frames : List Frame} {x : ℕ × Bytes} (hx : Encodes scaled jpeg frames x) (frame : Frame) :
    Encodes scaled jpeg (frames ++ [frame]) x := by
  obtain ⟨f, encoding, encoded, hget, hrest⟩ := hx
  exact ⟨f, encoding, encoded, getElem?_concat_of_some _ hget, hrest⟩

theorem Stage.Traced.publish {frames : List Frame} {sent : List (ℕ × Bytes)} {seen : ℕ} {stage : Stage}
    (hs : stage.Traced scaled jpeg frames sent seen) (frame : Frame) :
    stage.Traced scaled jpeg (frames ++ [frame]) sent seen := by
  cases stage with
  | framesOpen f | encode f =>
    obtain ⟨n, hseen, hget, hsent⟩ := hs
    exact ⟨n, hseen, getElem?_concat_of_some _ hget, hsent⟩
  | sendFrame encoded =>
    obtain ⟨n, hseen, hencodes, hsent⟩ := hs
    exact ⟨n, hseen, hencodes.publish frame, hsent⟩
  | _ => exact hs

/-- Wherever the task is, what it has sent is older than what it has seen. -/
theorem Stage.Traced.older {frames : List Frame} {sent : List (ℕ × Bytes)} {seen : ℕ} {stage : Stage}
    (hs : stage.Traced scaled jpeg frames sent seen) : ∀ x ∈ sent, x.1 < seen := by
  cases stage with
  | framesOpen f | encode f | sendFrame f =>
    obtain ⟨n, rfl, -, hsent⟩ := hs
    exact fun x hx => Nat.lt_succ_of_lt (hsent x hx)
  | _ => exact hs

/-- Neither a frame nor a result of `send_frame` is among the events. -/
theorem Source.silent (hs : Source scaled jpeg w h) (hframes : framesOf es = []) (hsent : sentOf es = []) :
    Source scaled jpeg w (h ++ es) := by
  have hf : framesOf (h ++ es) = framesOf h := by rw [framesOf_append, hframes, List.append_nil]
  have hx : sentOf (h ++ es) = sentOf h := by rw [sentOf_append, hsent, List.append_nil]
  exact ⟨hf ▸ hs.latest, hf ▸ hs.version, hs.seen, hf ▸ hx ▸ hs.stage, hf ▸ hx ▸ hs.encoded, hx ▸ hs.increasing⟩

/-- The task goes on. -/
theorem Source.withPump (hs : Source scaled jpeg w h) {p : Pump} (hseen : p.seen ≤ w.version)
    (hstage : p.stage.Traced scaled jpeg (framesOf h) (sentOf h) p.seen) :
    Source scaled jpeg { w with pump := p } h :=
  ⟨hs.latest, hs.version, hseen, hstage, hs.encoded, hs.increasing⟩

theorem Source.capture (hs : Source scaled jpeg w h) (l : CaptureLoop.Step) :
    Source scaled jpeg (w.step settings scaled jpeg (.capture l)).1
      (h ++ (w.step settings scaled jpeg (.capture l)).2) := by
  have hlatest := latest_step settings scaled w.capture l
  simp only [World.step]
  cases hp : publication settings scaled w.capture l with
  | none =>
    rw [hp, Option.none_or] at hlatest
    simp only [List.append_nil]
    exact ⟨hlatest.trans hs.latest, hs.version, hs.seen, hs.stage, hs.encoded, hs.increasing⟩
  | some frame =>
    rw [hp, Option.some_or] at hlatest
    have hf : framesOf (h ++ [.published frame]) = framesOf h ++ [frame] := by
      rw [framesOf_append]
      rfl
    have hx : sentOf (h ++ [.published frame]) = sentOf h := by
      rw [sentOf_append]
      exact List.append_nil _
    refine ⟨?_, ?_, Nat.le_succ_of_le hs.seen, ?_, fun x hxm => ?_, ?_⟩
    · rw [hf, List.getLast?_concat]
      exact hlatest
    · rw [hf, List.length_append, ← hs.version]
      rfl
    · rw [hf, hx]
      exact hs.stage.publish frame
    · rw [hx] at hxm
      rw [hf]
      exact (hs.encoded x hxm).publish frame
    · rw [hx]
      exact hs.increasing

theorem Source.changed (hs : Source scaled jpeg w h) (hne : w.pump.seen ≠ w.version)
    (hstage : w.pump.stage = .changed) :
    Source scaled jpeg { w with pump := w.pump.changed w.version w.capture.store.latest w.now } h := by
  have hlt : w.pump.seen < w.version := lt_of_le_of_ne hs.seen hne
  have holder := hs.stage.older
  have hskip : (Stage.changed).Traced scaled jpeg (framesOf h) (sentOf h) w.version :=
    fun x hx => (holder x hx).trans hlt
  unfold Pump.changed
  split_ifs
  · refine hs.withPump le_rfl ?_
    rw [hstage]
    exact hskip
  · cases hl : w.capture.store.latest with
    | none =>
      refine hs.withPump le_rfl ?_
      rw [hstage]
      exact hskip
    | some frame =>
      refine hs.withPump le_rfl ⟨w.version - 1, ?_, ?_, fun x hx => ?_⟩
      · exact (Nat.succ_pred_eq_of_pos (Nat.zero_lt_of_lt hlt)).symm
      · rw [hs.version, ← List.getLast?_eq_getElem?, ← hs.latest, hl]
      · exact lt_of_lt_of_le (holder x hx) (Nat.le_pred_of_lt hlt)

theorem Source.encodes (hs : Source scaled jpeg w h) {frame : Frame} (hstage : w.pump.stage = .encode frame) :
    Source scaled jpeg
      { w with pump := w.pump.encoded (JpegScreenEncoder.encode scaled jpeg .streamingDefault frame) } h := by
  have holder := hs.stage.older
  have htraced := hs.stage
  rw [hstage] at htraced
  obtain ⟨n, hseen, hget, hsent⟩ := htraced
  cases henc : JpegScreenEncoder.encode scaled jpeg .streamingDefault frame with
  | none => exact hs.withPump hs.seen holder
  | some encoding =>
    cases hres : encoding.result with
    | error e =>
      simp only [Pump.encoded, hres]
      exact hs.withPump hs.seen holder
    | ok encoded =>
      simp only [Pump.encoded, hres]
      exact hs.withPump hs.seen ⟨n, hseen, ⟨frame, encoding, encoded, hget, henc, hres, rfl⟩, hsent⟩

/-- What `send_frame` adds to the frames sent. -/
theorem sentOf_sendEvent (version : ℕ) (data : Bytes) (r : Except SendError Bool) :
    sentOf [sendEvent version data r] = (delivered data r).map fun d => (version, d) := by
  rcases r with e | b
  · rfl
  · cases b with
    | false => rfl
    | true => by_cases hdata : data = [] <;> simp [sentOf, sendEvent, delivered, Event.sent?, hdata]

theorem framesOf_sendEvent (version : ℕ) (data : Bytes) (r : Except SendError Bool) :
    framesOf [sendEvent version data r] = [] := by
  unfold sendEvent
  split <;> rfl

theorem mem_delivered {data d : Bytes} {r : Except SendError Bool} (hd : d ∈ delivered data r) : d = data := by
  unfold delivered at hd
  split at hd
  · split_ifs at hd
    · cases hd
    · exact List.mem_singleton.1 hd
  · cases hd

theorem Source.sent (hs : Source scaled jpeg w h) {encoded : EncodedFrame}
    (hstage : w.pump.stage = .sendFrame encoded) (r : Except SendError Bool) (frameSeq : UInt32)
    (channel : List Bytes) :
    Source scaled jpeg { w with pump := w.pump.sendReturned r, frameSeq, channel }
      (h ++ [sendEvent (w.pump.seen - 1) encoded.data r]) := by
  have htraced := hs.stage
  rw [hstage] at htraced
  obtain ⟨n, hseen, hencodes, hsent⟩ := htraced
  rw [hseen, Nat.add_sub_cancel]
  have hf : framesOf (h ++ [sendEvent n encoded.data r]) = framesOf h := by
    rw [framesOf_append, framesOf_sendEvent, List.append_nil]
  have hx : sentOf (h ++ [sendEvent n encoded.data r]) =
      sentOf h ++ (delivered encoded.data r).map fun d => (n, d) := by
    rw [sentOf_append, sentOf_sendEvent]
  have hnew : ∀ x ∈ (delivered encoded.data r).map fun d => (n, d), x = (n, encoded.data) := by
    intro x hxm
    obtain ⟨d, hd, rfl⟩ := List.mem_map.1 hxm
    rw [mem_delivered hd]
  have hpump : (w.pump.sendReturned r).seen = n + 1 ∧ (w.pump.sendReturned r).stage = .changed := by
    unfold Pump.sendReturned
    split <;> exact ⟨hseen, rfl⟩
  refine ⟨hf ▸ hs.latest, hf ▸ hs.version, ?_, ?_, fun x hxm => ?_, ?_⟩
  · rw [hpump.1, ← hseen]
    exact hs.seen
  · rw [hpump.1, hpump.2, hx]
    intro x hxm
    rcases List.mem_append.1 hxm with hold | hxm
    · exact Nat.lt_succ_of_lt (hsent x hold)
    · rw [hnew x hxm]
      exact Nat.lt_succ_self n
  · rw [hf]
    rw [hx] at hxm
    rcases List.mem_append.1 hxm with hold | hxm
    · exact hs.encoded x hold
    · rw [hnew x hxm]
      exact hencodes
  · rw [hx, List.pairwise_append]
    refine ⟨hs.increasing, List.pairwise_map.2 ?_, fun x hold y hy => ?_⟩
    · unfold delivered
      split
      · split_ifs
        · exact List.Pairwise.nil
        · exact List.pairwise_singleton _ _
      · exact List.Pairwise.nil
    · rw [hnew y hy]
      exact hsent x hold

end Source

/-! ### The pace -/

section Pace
variable {settings : CaptureSettings} {scaled : Scaled} {jpeg : Jpeg} {w : World} {h es : List Event}

/-- Frames are encoded at most once in an interval; the counters count. -/
structure Paced (w : World) (h : List Event) : Prop where
  due : ∀ frame, w.pump.stage = .framesOpen frame → w.pump.last + frameInterval ≤ w.now
  fresh : w.pump.stage = .spawned → timesOf h = []
  spaced : (timesOf h).Pairwise fun a b => a + frameInterval ≤ b
  past : ∀ time ∈ timesOf h, time ≤ w.pump.last
  sent : w.pump.sent = UInt64.ofNat (h.countP Event.isSent)
  dropped : w.pump.dropped = UInt64.ofNat (h.countP Event.isDropped)

/-- Neither an encoding nor a result of `send_frame` is among the events. -/
structure Unpaced (es : List Event) : Prop where
  times : timesOf es = []
  sent : es.countP Event.isSent = 0
  dropped : es.countP Event.isDropped = 0

theorem Unpaced.nil : Unpaced [] := ⟨rfl, rfl, rfl⟩

/-- The events pass, and the task stays or goes on to where no frame is due. -/
theorem Paced.silent (hp : Paced w h) (hes : Unpaced es) {w' : World} (hlast : w'.pump.last = w.pump.last)
    (hcounts : w'.pump.sent = w.pump.sent ∧ w'.pump.dropped = w.pump.dropped)
    (hdue : ∀ frame, w'.pump.stage = .framesOpen frame → w'.pump.last + frameInterval ≤ w'.now)
    (hfresh : w'.pump.stage = .spawned → w.pump.stage = .spawned) : Paced w' (h ++ es) := by
  have ht : timesOf (h ++ es) = timesOf h := by rw [timesOf_append, hes.times, List.append_nil]
  refine ⟨hdue, fun hw => ht.trans (hp.fresh (hfresh hw)), ht ▸ hp.spaced, ?_, ?_, ?_⟩
  · rw [ht, hlast]
    exact hp.past
  · rw [hcounts.1, List.countP_append, hes.sent]
    exact hp.sent
  · rw [hcounts.2, List.countP_append, hes.dropped]
    exact hp.dropped

theorem Paced.changed (hp : Paced w h) (hstage : w.pump.stage = .changed) :
    Paced { w with pump := w.pump.changed w.version w.capture.store.latest w.now } (h ++ []) := by
  unfold Pump.changed
  split_ifs with hsoon
  · exact hp.silent .nil rfl ⟨rfl, rfl⟩ (fun frame hf => by cases hstage.symm.trans hf)
      fun hf => by cases hstage.symm.trans hf
  · cases w.capture.store.latest with
    | none =>
      exact hp.silent .nil rfl ⟨rfl, rfl⟩ (fun frame hf => by cases hstage.symm.trans hf)
        fun hf => by cases hstage.symm.trans hf
    | some frame =>
      refine hp.silent .nil rfl ⟨rfl, rfl⟩ (fun _ _ => ?_) fun hf => by cases hf
      show w.pump.last + frameInterval ≤ w.now
      omega

theorem Paced.framesOpen (hp : Paced w h) {frame : Frame} (hstage : w.pump.stage = .framesOpen frame)
    (isOpen : Bool) : Paced { w with pump := w.pump.framesOpen frame isOpen w.now }
      (h ++ if isOpen then [.encodes w.now] else []) := by
  have hdue := hp.due frame hstage
  cases isOpen with
  | false => exact hp.silent .nil rfl ⟨rfl, rfl⟩ (fun _ hf => by cases hf) fun hf => by cases hf
  | true =>
    have ht : timesOf (h ++ [.encodes w.now]) = timesOf h ++ [w.now] := timesOf_append h _
    have hspaced : ∀ time ∈ timesOf h, time + frameInterval ≤ w.now := by
      intro time hmem
      have hpast := hp.past time hmem
      omega
    refine ⟨fun _ hf => (by cases hf), fun hf => (by cases hf), ?_, ?_, ?_, ?_⟩
    · rw [if_pos rfl, ht, List.pairwise_append]
      refine ⟨hp.spaced, List.pairwise_singleton _ _, fun time hmem now hnow => ?_⟩
      rw [List.mem_singleton.1 hnow]
      exact hspaced time hmem
    · rw [if_pos rfl, ht]
      intro time hmem
      show time ≤ w.now
      rcases List.mem_append.1 hmem with hmem | hmem
      · have hle := hspaced time hmem
        simp only [frameInterval] at hle
        omega
      · rw [List.mem_singleton.1 hmem]
    · rw [if_pos rfl, List.countP_append]
      exact hp.sent
    · rw [if_pos rfl, List.countP_append]
      exact hp.dropped

theorem Paced.sendReturned (hp : Paced w h) (version : ℕ) (data : Bytes) (r : Except SendError Bool) (frameSeq : UInt32)
    (channel : List Bytes) :
    Paced { w with pump := w.pump.sendReturned r, frameSeq, channel } (h ++ [sendEvent version data r]) := by
  have ht : timesOf (h ++ [sendEvent version data r]) = timesOf h := by
    rw [timesOf_append]
    unfold sendEvent
    split <;> exact List.append_nil _
  have hdropped {r : Except SendError Bool} (hpump : w.pump.sendReturned r =
      { w.pump with stage := .changed, dropped := w.pump.dropped + 1 }) (hevent : sendEvent version data r = .dropped)
      (ht : timesOf (h ++ [sendEvent version data r]) = timesOf h) :
      Paced { w with pump := w.pump.sendReturned r, frameSeq, channel } (h ++ [sendEvent version data r]) := by
    rw [hpump]
    refine ⟨fun _ hf => (by cases hf), fun hf => (by cases hf), ht ▸ hp.spaced, ht ▸ hp.past, ?_, ?_⟩
    · rw [List.countP_append, hevent]
      exact hp.sent
    · rw [List.countP_append, hevent]
      show w.pump.dropped + 1 = UInt64.ofNat (_ + 1)
      rw [UInt64.ofNat_add, hp.dropped]
      rfl
  rcases r with e | b
  · exact hdropped rfl rfl ht
  · cases b with
    | false => exact hdropped rfl rfl ht
    | true =>
      refine ⟨fun _ hf => (by cases hf), fun hf => (by cases hf), ht ▸ hp.spaced, ht ▸ hp.past, ?_, ?_⟩
      · rw [List.countP_append]
        show w.pump.sent + 1 = UInt64.ofNat (_ + 1)
        rw [UInt64.ofNat_add, hp.sent]
        rfl
      · rw [List.countP_append]
        exact hp.dropped

end Pace

end DeskSync.Session.Stream
