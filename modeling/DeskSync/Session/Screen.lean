import DeskSync.Session.Stream

/-!
# From the data channel to the display

`Delivery`: what has been reassembled and what the messages on the channel will still complete are the frames sent, or
some of them once the session is closed. `screen_in_order` puts the whole way together.
-/

namespace DeskSync.Session.Stream

open Media Viewer
open Media.CaptureLoop (CaptureSettings)

/-! ### The phone -/

section Phone
variable {w : World} {h : List Event}

theorem viewerOf_map (es : List Decode.Event) : viewerOf (es.map .viewer) = es := by
  show (es.map Event.viewer).filterMap Event.viewer? = es
  rw [List.filterMap_map]
  exact List.filterMap_some

def Event.ofPhone : Event → Prop
  | .handed _ | .viewer _ => True
  | _ => False

theorem receive_ofPhone (p : Phone) (msg : Bytes) : ∀ e ∈ (p.receive msg).2, e.ofPhone := by
  unfold Phone.receive
  split
  · exact fun e he => absurd he List.not_mem_nil
  · intro e he
    rcases List.mem_cons.1 he with rfl | he
    · trivial
    · obtain ⟨e', -, rfl⟩ := List.mem_map.1 he
      trivial

theorem step_ofPhone (p : Phone) (s : Decode.Step) : ∀ e ∈ (p.step s).2, e.ofPhone := by
  have hmap (es : List Decode.Event) : ∀ e ∈ es.map Event.viewer, e.ofPhone := by
    intro e he
    obtain ⟨e', -, rfl⟩ := List.mem_map.1 he
    trivial
  cases s with
  | frame => exact fun e he => absurd he List.not_mem_nil
  | _ => exact hmap _

section Events
variable {es : List Event} (hes : ∀ e ∈ es, e.ofPhone)
include hes

theorem framesOf_ofPhone : framesOf es = [] :=
  List.filterMap_eq_nil_iff.2 fun e he => by
    have hphone := hes e he
    cases e with
    | handed | viewer => rfl
    | _ => exact hphone.elim

theorem sentOf_ofPhone : sentOf es = [] :=
  List.filterMap_eq_nil_iff.2 fun e he => by
    have hphone := hes e he
    cases e with
    | handed | viewer => rfl
    | _ => exact hphone.elim

theorem unpaced_ofPhone : Unpaced es where
  times := List.filterMap_eq_nil_iff.2 fun e he => by
    have hphone := hes e he
    cases e with
    | handed | viewer => rfl
    | _ => exact hphone.elim
  sent := List.countP_eq_zero.2 fun e he => by
    have hphone := hes e he
    cases e with
    | handed | viewer => exact Bool.false_ne_true
    | _ => exact hphone.elim
  dropped := List.countP_eq_zero.2 fun e he => by
    have hphone := hes e he
    cases e with
    | handed | viewer => exact Bool.false_ne_true
    | _ => exact hphone.elim

end Events

theorem map_viewer_silent {α : Type} (f : Event → Option α) (hf : ∀ e, f (.viewer e) = none) (es : List Decode.Event) :
    (es.map Event.viewer).filterMap f = [] := by
  rw [List.filterMap_map]
  exact List.filterMap_eq_nil_iff.2 fun e _ => hf e

theorem arrived_step (w : Decode.World) (s : Decode.Step) :
    (w.step s).1.arrived = w.arrived + if s = .frame then 1 else 0 := by
  cases s with
  | resumes loop completed =>
    simp only [Decode.World.step]
    split <;> rfl
  | released =>
    simp only [Decode.World.step]
    split <;> rfl
  | _ => rfl

/-- A closed session stays so. -/
theorem closed_step {p : Decode.World} {es : List Decode.Event} (hp : Decode.Inv (p, es)) (s : Decode.Step)
    (hopen : (p.step s).1.pipeline.closed = false) : p.pipeline.closed = false := by
  have hnext : Decode.Inv ((p.step s).1, es ++ (p.step s).2) := hp.step s
  by_contra hclosed
  have hmem := hp.onTheWay.ended.1 (Bool.not_eq_false _ ▸ hclosed)
  have hstill := hnext.onTheWay.ended.2 (List.mem_append_left _ hmem)
  rw [hopen] at hstill
  cases hstill

theorem closed_close (w : Decode.World) : (w.step .close).1.pipeline.closed = true := by
  simp only [Decode.World.step, Decode.World.after, Decode.Pipeline.close]
  split
  · assumption
  · rfl

/-- From `send_frame` to the display: what arrives, and what is still to come, are frames that were sent. -/
structure Delivery (w : World) (h : List Event) : Prop where
  viewer : Decode.Inv (w.phone.viewer, viewerOf h)
  arrived : w.phone.viewer.arrived = (handedOf h).length
  kept : ∃ kept : List (ℕ × Bytes), kept.Sublist (sentOf h) ∧
    kept.map Prod.snd = handedOf h ++ handed w.phone.assembler w.channel ∧
    (w.phone.viewer.pipeline.closed = false → kept = sentOf h)

/-- Nothing reaches the phone. -/
theorem Delivery.silent (hd : Delivery w h) {w' : World} {es : List Event} (hphone : w'.phone = w.phone)
    (hchannel : w'.channel = w.channel) (hviewer : viewerOf es = []) (hhanded : handedOf es = [])
    (hsent : sentOf es = []) : Delivery w' (h ++ es) := by
  obtain ⟨hv, ha, kept, hsub, hdata, hopen⟩ := hd
  rw [← hphone] at hv ha hdata hopen
  rw [← hchannel] at hdata
  have hve : viewerOf (h ++ es) = viewerOf h := by rw [viewerOf_append, hviewer, List.append_nil]
  have hhe : handedOf (h ++ es) = handedOf h := by rw [handedOf_append, hhanded, List.append_nil]
  have hse : sentOf (h ++ es) = sentOf h := by rw [sentOf_append, hsent, List.append_nil]
  refine ⟨hve ▸ hv, hhe ▸ ha, kept, hse ▸ hsub, ?_, hse ▸ hopen⟩
  rw [hhe]
  exact hdata

theorem Delivery.sent (hd : Delivery w h) (version : ℕ) (frames : Option DataChannel) (data : Bytes) (p : Pump)
    (frameSeq : UInt32) :
    Delivery { w with
        pump := p
        frameSeq
        channel := w.channel ++ (sendFrame frames w.frameSeq data maxBuffered).sent }
      (h ++ [sendEvent version data (sendFrame frames w.frameSeq data maxBuffered).result]) := by
  obtain ⟨kept, hsub, hdata, hopen⟩ := hd.kept
  have hhanded := handed_sendFrame_eq (assemble w.phone.assembler w.channel) frames w.frameSeq data maxBuffered
  generalize (sendFrame frames w.frameSeq data maxBuffered).result = r at hhanded ⊢
  have hve : viewerOf (h ++ [sendEvent version data r]) = viewerOf h := by
    rw [viewerOf_append]
    unfold sendEvent
    split <;> exact List.append_nil _
  have hhe : handedOf (h ++ [sendEvent version data r]) = handedOf h := by
    rw [handedOf_append]
    unfold sendEvent
    split <;> exact List.append_nil _
  have hse : sentOf (h ++ [sendEvent version data r]) =
      sentOf h ++ (delivered data r).map fun d => (version, d) := by
    rw [sentOf_append, sentOf_sendEvent]
  refine ⟨hve ▸ hd.viewer, hhe ▸ hd.arrived, kept ++ (delivered data r).map fun d => (version, d), ?_, ?_, ?_⟩
  · rw [hse]
    exact hsub.append_right _
  · have hsnd : ((delivered data r).map fun d => (version, d)).map Prod.snd = delivered data r := by
      rw [List.map_map]
      exact List.map_id _
    rw [hhe, handed_append, hhanded, List.map_append, hsnd, hdata, List.append_assoc]
  · intro ho
    rw [hse, hopen ho]

theorem Delivery.arrives (hd : Delivery w h) {msg : Bytes} {channel : List Bytes} (hch : w.channel = msg :: channel) :
    Delivery { w with channel, phone := (w.phone.receive msg).1 } (h ++ (w.phone.receive msg).2) := by
  obtain ⟨kept, hsub, hdata, hopen⟩ := hd.kept
  rw [hch, handed_cons] at hdata
  have hse : sentOf (h ++ (w.phone.receive msg).2) = sentOf h := by
    rw [sentOf_append, sentOf_ofPhone (receive_ofPhone _ _), List.append_nil]
  unfold Phone.receive at hse ⊢
  cases hfull : (onFrameChunk w.phone.assembler msg).2 with
  | none =>
    rw [hfull, Option.toList_none, List.nil_append] at hdata
    simp only [hfull, List.append_nil] at hse ⊢
    exact ⟨hd.viewer, hd.arrived, kept, hsub, hdata, hopen⟩
  | some data =>
    rw [hfull, Option.toList_some] at hdata
    simp only [hfull] at hse ⊢
    have hstep : Decode.Inv ((w.phone.viewer.step .frame).1, viewerOf h ++ (w.phone.viewer.step .frame).2) :=
      hd.viewer.step .frame
    have hve : viewerOf (h ++ .handed data :: (w.phone.viewer.step .frame).2.map .viewer) =
        viewerOf h ++ (w.phone.viewer.step .frame).2 :=
      (viewerOf_append h _).trans (congrArg (viewerOf h ++ ·) (viewerOf_map _))
    have hhe : handedOf (h ++ .handed data :: (w.phone.viewer.step .frame).2.map .viewer) = handedOf h ++ [data] :=
      (handedOf_append h _).trans (congrArg (fun l => handedOf h ++ data :: l) (map_viewer_silent _ (fun _ => rfl) _))
    refine ⟨hve ▸ hstep, ?_, kept, hse ▸ hsub, ?_, fun ho => ?_⟩
    · rw [hhe, List.length_append, ← hd.arrived]
      exact arrived_step _ _
    · rw [hhe, List.append_assoc]
      exact hdata
    · rw [hse]
      exact hopen (closed_step hd.viewer _ ho)

theorem Delivery.close (hd : Delivery w h) :
    Delivery { w with phone := w.phone.close.1 } (h ++ w.phone.close.2) := by
  obtain ⟨kept, hsub, hdata, hopen⟩ := hd.kept
  have hstep : Decode.Inv ((w.phone.viewer.step .close).1, viewerOf h ++ (w.phone.viewer.step .close).2) :=
    hd.viewer.step .close
  have hve : viewerOf (h ++ w.phone.close.2) = viewerOf h ++ (w.phone.viewer.step .close).2 := by
    rw [viewerOf_append]
    exact congrArg (viewerOf h ++ ·) (viewerOf_map _)
  have hhe : handedOf (h ++ w.phone.close.2) = handedOf h := by
    rw [handedOf_append]
    exact (congrArg (handedOf h ++ ·) (map_viewer_silent _ (fun _ => rfl) _)).trans (List.append_nil _)
  have hse : sentOf (h ++ w.phone.close.2) = sentOf h := by
    rw [sentOf_append]
    exact (congrArg (sentOf h ++ ·) (map_viewer_silent _ (fun _ => rfl) _)).trans (List.append_nil _)
  have hreset : (handed w.phone.close.1.assembler w.channel).Sublist (handed w.phone.assembler w.channel) := by
    simp only [Phone.close]
    split
    · exact List.Sublist.refl _
    · exact handed_reset _ _ rfl _
  have hrest := hreset.append_left (handedOf h)
  rw [← hdata] at hrest
  obtain ⟨kept', hsub', hdata'⟩ := List.sublist_map_iff.1 hrest
  refine ⟨hve ▸ hstep, ?_, kept', hse ▸ hsub'.trans hsub, ?_, fun ho => ?_⟩
  · rw [hhe, ← hd.arrived]
    exact arrived_step _ _
  · rw [hhe]
    exact hdata'.symm
  · have hclosed := closed_close w.phone.viewer
    exact absurd (hclosed.symm.trans ho) (by decide)

/-- The decode loop goes on, with the same frames. -/
theorem Delivery.decode (hd : Delivery w h) {s : Decode.Step} (hs : s ≠ .frame) :
    Delivery { w with phone := { w.phone with viewer := (w.phone.viewer.step s).1 } }
      (h ++ (w.phone.viewer.step s).2.map .viewer) := by
  obtain ⟨kept, hsub, hdata, hopen⟩ := hd.kept
  have hstep : Decode.Inv ((w.phone.viewer.step s).1, viewerOf h ++ (w.phone.viewer.step s).2) := hd.viewer.step s
  have hnone {α : Type} (f : Event → Option α) (hf : ∀ e, f (.viewer e) = none) :
      (h ++ (w.phone.viewer.step s).2.map Event.viewer).filterMap f = h.filterMap f := by
    rw [List.filterMap_append, map_viewer_silent f hf, List.append_nil]
  have hve : viewerOf (h ++ (w.phone.viewer.step s).2.map .viewer) = viewerOf h ++ (w.phone.viewer.step s).2 := by
    rw [viewerOf_append, viewerOf_map]
  have hhe : handedOf (h ++ (w.phone.viewer.step s).2.map .viewer) = handedOf h := hnone _ fun _ => rfl
  have hse : sentOf (h ++ (w.phone.viewer.step s).2.map .viewer) = sentOf h := hnone _ fun _ => rfl
  refine ⟨hve ▸ hstep, ?_, kept, hse ▸ hsub, ?_, fun ho => ?_⟩
  · rw [hhe, ← hd.arrived]
    show (w.phone.viewer.step s).1.arrived = _
    rw [arrived_step, if_neg hs]
    rfl
  · rw [hhe]
    exact hdata
  · rw [hse]
    exact hopen (closed_step hd.viewer _ ho)

theorem Delivery.phone (hd : Delivery w h) (s : Decode.Step) :
    Delivery { w with phone := (w.phone.step s).1 } (h ++ (w.phone.step s).2) := by
  cases s with
  | frame => exact hd.silent rfl rfl rfl rfl rfl
  | close => exact hd.close
  | _ => exact hd.decode fun hs => by cases hs

end Phone

/-! ### Runs -/

section Run
variable {settings : CaptureSettings} {scaled : Scaled} {jpeg : Jpeg}

structure Inv (scaled : Scaled) (jpeg : Jpeg) (w : World) (h : List Event) : Prop where
  source : Source scaled jpeg w h
  paced : Paced w h
  delivery : Delivery w h

variable {w : World} {h : List Event}

theorem inv_start : Inv scaled jpeg {} [] where
  source := ⟨rfl, rfl, le_rfl, fun _ hx => absurd hx List.not_mem_nil, fun _ hx => absurd hx List.not_mem_nil,
    List.Pairwise.nil⟩
  paced := ⟨fun _ hf => (by cases hf), fun _ => rfl, List.Pairwise.nil, fun _ hx => absurd hx List.not_mem_nil, rfl, rfl⟩
  delivery := ⟨Decode.inv_start, rfl, [], List.Sublist.refl _, rfl, fun _ => rfl⟩

/-- The task goes on by itself, without an event. -/
theorem Inv.withPump (hi : Inv scaled jpeg w h) {p : Pump}
    (hsource : Source scaled jpeg { w with pump := p } h) (hpaced : Paced { w with pump := p } (h ++ [])) :
    Inv scaled jpeg { w with pump := p } (h ++ []) :=
  ⟨(List.append_nil h).symm ▸ hsource, hpaced, hi.delivery.silent rfl rfl rfl rfl rfl⟩

theorem Inv.stay (hi : Inv scaled jpeg w h) : Inv scaled jpeg w (h ++ []) := by
  rw [List.append_nil]
  exact hi

theorem Inv.step (hi : Inv scaled jpeg w h) (s : Step) :
    Inv scaled jpeg (w.step settings scaled jpeg s).1 (h ++ (w.step settings scaled jpeg s).2) := by
  cases s with
  | capture l =>
    refine ⟨hi.source.capture l, ?_, ?_⟩
    · simp only [World.step]
      split
      · exact hi.paced.silent ⟨rfl, rfl, rfl⟩ rfl ⟨rfl, rfl⟩ hi.paced.due id
      · exact hi.paced.silent .nil rfl ⟨rfl, rfl⟩ hi.paced.due id
    · simp only [World.step]
      split
      · exact hi.delivery.silent rfl rfl rfl rfl rfl
      · exact hi.delivery.silent rfl rfl rfl rfl rfl
  | tick d =>
    have hs := hi.source
    refine ⟨(List.append_nil h).symm ▸ ⟨hs.latest, hs.version, hs.seen, hs.stage, hs.encoded, hs.increasing⟩, ?_,
      hi.delivery.silent rfl rfl rfl rfl rfl⟩
    refine hi.paced.silent .nil rfl ⟨rfl, rfl⟩ (fun frame hf => ?_) id
    have hdue := hi.paced.due frame hf
    show w.pump.last + frameInterval ≤ w.now + d
    omega
  | begins =>
    simp only [World.step]
    split
    · next hstage =>
      have hfresh := hi.paced.fresh hstage
      refine hi.withPump (hi.source.withPump hi.source.seen hi.source.stage.older) ?_
      refine (List.append_nil h).symm ▸
        ⟨fun _ hf => (by cases hf), fun hf => (by cases hf), hi.paced.spaced, ?_, hi.paced.sent, hi.paced.dropped⟩
      intro time htime
      rw [hfresh] at htime
      cases htime
    · exact hi.stay
  | changed =>
    simp only [World.step]
    split
    · next hstage =>
      split_ifs with heq
      · exact hi.stay
      · exact hi.withPump (hi.source.changed heq hstage) (hi.paced.changed hstage)
    · exact hi.stay
  | framesOpen isOpen =>
    simp only [World.step]
    split
    · next frame hstage =>
      have htraced := hi.source.stage
      rw [hstage] at htraced
      have hframes : framesOf (if isOpen then [.encodes w.now] else []) = [] := by cases isOpen <;> rfl
      have hsent : sentOf (if isOpen then [.encodes w.now] else []) = [] := by cases isOpen <;> rfl
      have hviewer : viewerOf (if isOpen then [.encodes w.now] else []) = [] := by cases isOpen <;> rfl
      have hhanded : handedOf (if isOpen then [.encodes w.now] else []) = [] := by cases isOpen <;> rfl
      refine ⟨Source.silent ?_ hframes hsent, hi.paced.framesOpen hstage isOpen,
        hi.delivery.silent rfl rfl hviewer hhanded hsent⟩
      cases isOpen with
      | true => exact hi.source.withPump hi.source.seen htraced
      | false => exact hi.source.withPump hi.source.seen hi.source.stage.older
    · exact hi.stay
  | encoded =>
    simp only [World.step]
    split
    · next frame hstage =>
      refine hi.withPump (hi.source.encodes hstage) ?_
      cases JpegScreenEncoder.encode scaled jpeg .streamingDefault frame with
      | none => exact hi.paced.silent .nil rfl ⟨rfl, rfl⟩ (fun _ hf => by cases hf) fun hf => by cases hf
      | some encoding =>
        simp only [Pump.encoded]
        split <;> exact hi.paced.silent .nil rfl ⟨rfl, rfl⟩ (fun _ hf => by cases hf) fun hf => by cases hf
    · exact hi.stay
  | sent frames =>
    simp only [World.step]
    split
    · next encoded hstage =>
      exact ⟨hi.source.sent hstage _ _ _, hi.paced.sendReturned _ _ _ _ _, hi.delivery.sent _ _ _ _ _⟩
    · exact hi.stay
  | abort =>
    exact hi.withPump (hi.source.withPump hi.source.seen hi.source.stage.older)
      (hi.paced.silent .nil rfl ⟨rfl, rfl⟩ (fun _ hf => by cases hf) fun hf => by cases hf)
  | arrives =>
    simp only [World.step]
    split
    · exact hi.stay
    · next msg channel hch =>
      have hs := hi.source
      refine ⟨Source.silent ⟨hs.latest, hs.version, hs.seen, hs.stage, hs.encoded, hs.increasing⟩
        (framesOf_ofPhone (receive_ofPhone _ _)) (sentOf_ofPhone (receive_ofPhone _ _)), ?_,
        hi.delivery.arrives hch⟩
      exact hi.paced.silent (unpaced_ofPhone (receive_ofPhone _ _)) rfl ⟨rfl, rfl⟩ hi.paced.due id
  | viewer s =>
    have hs := hi.source
    refine ⟨Source.silent ⟨hs.latest, hs.version, hs.seen, hs.stage, hs.encoded, hs.increasing⟩
      (framesOf_ofPhone (step_ofPhone _ _)) (sentOf_ofPhone (step_ofPhone _ _)), ?_, hi.delivery.phone s⟩
    exact hi.paced.silent (unpaced_ofPhone (step_ofPhone _ _)) rfl ⟨rfl, rfl⟩ hi.paced.due id

theorem inv_run (l : List Step) :
    Inv scaled jpeg (World.run settings scaled jpeg l).1 (World.run settings scaled jpeg l).2 :=
  Run.invariant (I := fun p : World × List Event => Inv scaled jpeg p.1 p.2) (fun _ s hi => hi.step s)
    inv_start l

end Run

end DeskSync.Session.Stream
