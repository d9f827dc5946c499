import IotProxy.Proxy.TcpIngress
import Mathlib.Data.List.SplitLengths

/-!
# Segmentation

TCP delivers bytes and not messages, so the frames that a device is understood to send should not
depend on the pieces in which its bytes arrive. The frames of a sequence of bytes are those of
`Framing.Splits`; a connection is read as it should be (`Framed`) when its data events are these and
it is closed just if the header of a payload that is too large follows.
-/

namespace IotProxy.Proxy

open EventSystem Function TcpIngress List

def edgeFraming : Framing UInt8 where
  headerSize := edgeDataFrameHeaderSize
  headerSize_pos := by decide
  payloadSize header :=
    BigEndian.load ((header.drop (edgeMacSize + edgeTimestampSize)).take edgePayloadLengthSize)

theorem edgeDataFramePayloadSize_eq {bytes : Bytes}
    (complete : edgeDataFrameHeaderSize ≤ bytes.length) :
    edgeDataFramePayloadSize bytes = some (edgeFraming.announced bytes) := by
  rw [edgeDataFramePayloadSize, if_neg (not_lt.mpr complete)]
  simp [Framing.announced, edgeFraming, edgeDataFrameHeaderSize, drop_take, take_take]

theorem announced_of_payloadSize {bytes : Bytes} {payloadSize : ℕ}
    (announced : edgeDataFramePayloadSize bytes = some payloadSize) :
    edgeDataFrameHeaderSize ≤ bytes.length ∧ edgeFraming.announced bytes = payloadSize := by
  by_cases complete : edgeDataFrameHeaderSize ≤ bytes.length
  · rw [edgeDataFramePayloadSize_eq complete] at announced
    exact ⟨complete, Option.some.inj announced⟩
  · rw [edgeDataFramePayloadSize, if_pos (not_le.mp complete)] at announced
    cases announced

theorem announced_lt (bytes : Bytes) : edgeFraming.announced bytes < 2 ^ 32 := by
  refine (BigEndian.load_lt _).trans_le ?_
  have short : ∀ field : Bytes, (field.take edgePayloadLengthSize).length ≤ 4 := fun field => by
    rw [length_take]
    exact min_le_left _ _
  exact Nat.pow_le_pow_right (by decide) (short _)

namespace TcpIngress

variable (config : TcpIngressConfig)

theorem extractFrames_splits (buffer : Bytes) :
    edgeFraming.Splits config.maxEdgeFramePayloadSize buffer (extractFrames config buffer).frames
        (extractFrames config buffer).buffer ∧
      ((extractFrames config buffer).closeConnection = true ↔
        edgeFraming.Excessive config.maxEdgeFramePayloadSize
          (extractFrames config buffer).buffer) := by
  fun_induction extractFrames config buffer with
  | case1 buffer incomplete =>
    have short : buffer.length < edgeDataFrameHeaderSize := by
      by_contra complete
      rw [edgeDataFramePayloadSize_eq (not_lt.mp complete)] at incomplete
      cases incomplete
    refine ⟨Framing.splits_of_short fun complete => absurd complete (not_le.mpr short), ?_⟩
    simp only [Bool.false_eq_true, false_iff]
    exact fun excessive => absurd excessive.complete (not_le.mpr short)
  | case2 buffer payloadSize announced exceeds =>
    rcases announced_of_payloadSize announced with ⟨complete, rfl⟩
    have excessive : edgeFraming.Excessive config.maxEdgeFramePayloadSize buffer :=
      ⟨complete, exceeds⟩
    exact ⟨excessive.splits, iff_of_true rfl excessive⟩
  | case3 buffer payloadSize announced within frameSize short =>
    rcases announced_of_payloadSize announced with ⟨complete, rfl⟩
    refine ⟨Framing.splits_of_short fun _ => short, ?_⟩
    simp only [Bool.false_eq_true, false_iff]
    exact fun excessive => within excessive.exceeds
  | case4 buffer payloadSize announced within frameSize complete later ih =>
    rcases announced_of_payloadSize announced with ⟨-, rfl⟩
    refine ⟨?_, ih.2⟩
    have isFrame : edgeFraming.IsFrame config.maxEdgeFramePayloadSize (buffer.take frameSize) :=
      .of_take (not_lt.mp complete) (not_lt.mp within)
    have splits := Framing.Splits.cons isFrame ih.1
    rwa [take_append_drop] at splits

end TcpIngress

section View

def dataOf (streamId : ℕ) (events : List TcpEvent) : List Bytes :=
  (events.filter fun event => event.type = .data ∧ event.streamId = streamId).map TcpEvent.payload

/-- One connection: whether it is still there, what is in its buffer, and its data events. -/
structure ConnectionView where
  live : Bool
  buffer : Bytes
  delivered : List Bytes

namespace ConnectionView

def receive (config : TcpIngressConfig) (view : ConnectionView) (data : Bytes) : ConnectionView :=
  if !view.live || data.isEmpty then view
  else
    let extracted := TcpIngress.appendData config view.buffer data
    if extracted.closeConnection then { view with live := false, buffer := [] }
    else { view with
      buffer := extracted.buffer
      delivered := view.delivered ++ extracted.frames }

end ConnectionView

def IngressEvent.isReceived (fd : ℕ) : IngressEvent → Bool
  | .received sender _ => sender = fd
  | .accepted _ | .readClosed _ | .failed _ | .shutdownStream _ => false

def IngressEvent.data : IngressEvent → Bytes
  | .received _ data => data
  | .accepted _ | .readClosed _ | .failed _ | .shutdownStream _ => []

def chunksOf (fd : ℕ) (events : List IngressEvent) : List Bytes :=
  (events.filter (IngressEvent.isReceived fd)).map IngressEvent.data

namespace TcpIngress

variable (config : TcpIngressConfig) (fd streamId : ℕ)

def view (ingress : TcpIngress) : ConnectionView where
  live := ingress.connected fd
  buffer := (ingress.frameBufferByFd fd).getD []
  delivered := dataOf streamId ingress.events

/-- The connection has the stream id for itself. -/
structure Registered (ingress : TcpIngress) : Prop where
  own : ingress.connected fd = true → ingress.streamByFd fd = some streamId
  only : ∀ other, ingress.streamByFd other = some streamId → other = fd
  named : ∀ other, ingress.connectionByStream other = some fd → other = streamId

/-- Nothing but bytes happens to the connection, and no other one gets its stream id. -/
def Quiet (ingress : TcpIngress) : IngressEvent → Prop
  | .accepted other => other ≠ fd ∧ ingress.newStreamId config ≠ streamId
  | .received _ _ => True
  | .readClosed other | .failed other => other ≠ fd
  | .shutdownStream other => other ≠ streamId

instance (ingress : TcpIngress) (event : IngressEvent) :
    Decidable (Quiet config fd streamId ingress event) := by
  cases event <;> unfold Quiet <;> infer_instance

variable {config fd streamId} {ingress : TcpIngress}

theorem notify_view {event : TcpEvent} (notData : event.type ≠ .data) :
    (ingress.notify event).view fd streamId = ingress.view fd streamId := by
  unfold notify
  split
  · rfl
  · simp [view, dataOf, notData]

theorem Registered.notify (registered : ingress.Registered fd streamId) (event : TcpEvent) :
    (ingress.notify event).Registered fd streamId := by
  unfold TcpIngress.notify
  split
  · exact registered
  · exact ⟨registered.own, registered.only, registered.named⟩

theorem eq_some_of_update_none {table : ℕ → Option ℕ} {erased key value : ℕ}
    (found : update table erased none key = some value) : table key = some value := by
  by_cases same : key = erased
  · simp [same] at found
  · simpa [same] using found

variable {other : ℕ}

theorem Registered.erase (registered : ingress.Registered fd streamId) {otherStream : ℕ}
    {ingress' : TcpIngress}
    (own : ingress'.connected fd = true → ingress'.streamByFd fd = some streamId)
    (streams : ingress'.streamByFd = update ingress.streamByFd other none)
    (connections : ingress'.connectionByStream =
      update ingress.connectionByStream otherStream none) :
    ingress'.Registered fd streamId where
  own := own
  only third sameStream := registered.only third (eq_some_of_update_none (streams ▸ sameStream))
  named third sameFd := registered.named third (eq_some_of_update_none (connections ▸ sameFd))

variable (config ingress) in
theorem handleConnection_other {other : ℕ} (different : other ≠ fd)
    (fresh : ingress.connected other = true → ingress.newStreamId config ≠ streamId)
    (registered : ingress.Registered fd streamId) :
    (ingress.handleConnection config other).view fd streamId = ingress.view fd streamId ∧
      (ingress.handleConnection config other).Registered fd streamId := by
  unfold handleConnection
  split
  · next connected =>
      refine ⟨(notify_view ?_).trans ?_, Registered.notify ⟨?_, ?_, ?_⟩ _⟩
      · simp
      · simp [view, addStream, advance, different.symm]
      · intro live
        simpa [addStream, advance, different.symm] using registered.own live
      · intro third sameStream
        by_cases isOther : third = other
        · subst isOther
          simp only [addStream, update_self, Option.some.injEq] at sameStream
          exact absurd sameStream (fresh connected)
        · exact registered.only third (by simpa [addStream, isOther] using sameStream)
      · intro third sameFd
        by_cases isNew : third = ingress.newStreamId config
        · subst isNew
          simp only [addStream, update_self, Option.some.injEq] at sameFd
          exact absurd sameFd different
        · exact registered.named third (by simpa [addStream, isNew] using sameFd)
  · unfold removeStream
    cases ingress.streamByFd other with
    | none => exact ⟨rfl, registered⟩
    | some otherStream =>
        refine ⟨(notify_view ?_).trans ?_, (registered.erase ?_ rfl rfl).notify _⟩
        · simp
        · simp [view, different.symm]
        · intro live
          simpa [different.symm] using registered.own live

variable (config) in
theorem shutdown_other {other : ℕ} (different : other ≠ fd)
    (registered : ingress.Registered fd streamId) :
    (ingress.shutdown config other).view fd streamId = ingress.view fd streamId ∧
      (ingress.shutdown config other).Registered fd streamId := by
  unfold shutdown
  split
  · have still : ∀ live, update ingress.connected other live fd = ingress.connected fd :=
      fun live => update_of_ne different.symm _ _
    have kept := handleConnection_other config
      { ingress with connected := update ingress.connected other false } different
      (by simp) ⟨fun live => registered.own (still false ▸ live), registered.only,
        registered.named⟩
    exact ⟨kept.1.trans (by simp [view, still]), kept.2⟩
  · exact ⟨rfl, registered⟩

variable (config) in
theorem shutdown_own (registered : ingress.Registered fd streamId)
    (live : ingress.connected fd = true) :
    (ingress.shutdown config fd).view fd streamId =
        { ingress.view fd streamId with live := false, buffer := [] } ∧
      (ingress.shutdown config fd).Registered fd streamId := by
  have found := registered.own live
  simp only [shutdown, live, if_true, handleConnection, removeStream, update_self,
    Bool.false_eq_true, if_false, found]
  refine ⟨(notify_view ?_).trans ?_, (registered.erase ?_ rfl rfl).notify _⟩
  · simp
  · simp [view]
  · simp

theorem dataOf_append (events later : List TcpEvent) :
    dataOf streamId (events ++ later) = dataOf streamId events ++ dataOf streamId later := by
  simp [dataOf]

theorem dataOf_frames (other : ℕ) (frames : List Bytes) :
    dataOf streamId (frames.map fun frame => { type := .data, streamId := other, payload := frame })
      = if other = streamId then frames else [] := by
  split
  · next same =>
      subst same
      simp [dataOf, filter_map, comp_def]
  · next different => simp [dataOf, filter_map, comp_def, different]

theorem Registered.setBuffer (registered : ingress.Registered fd streamId) (other : ℕ)
    (buffer : Bytes) : (ingress.setBuffer other buffer).Registered fd streamId :=
  ⟨registered.own, registered.only, registered.named⟩

theorem handleData_other (different : other ≠ fd) (data : Bytes)
    (registered : ingress.Registered fd streamId) :
    (ingress.handleData config other data).view fd streamId = ingress.view fd streamId ∧
      (ingress.handleData config other data).Registered fd streamId := by
  simp only [handleData, bufferData]
  split
  · exact ⟨rfl, registered⟩
  · cases found : ingress.streamByFd other with
    | none => exact ⟨rfl, registered⟩
    | some otherStream =>
        have foreign : otherStream ≠ streamId := by
          rintro rfl
          exact different (registered.only other found)
        have kept := registered.setBuffer other
          (appendData config ((ingress.frameBufferByFd other).getD []) data).buffer
        simp only [deliver]
        split
        · have closed := shutdown_other config different kept
          exact ⟨closed.1.trans (by simp [view, TcpIngress.setBuffer, different.symm]), closed.2⟩
        · refine ⟨?_, kept.own, kept.only, kept.named⟩
          simp [view, TcpIngress.setBuffer, dataOf_append, dataOf_frames, foreign, different.symm]

theorem handleData_own (live : ingress.connected fd = true) (data : Bytes)
    (registered : ingress.Registered fd streamId) :
    (ingress.handleData config fd data).view fd streamId =
        (ingress.view fd streamId).receive config data ∧
      (ingress.handleData config fd data).Registered fd streamId := by
  have isLive : (ingress.view fd streamId).live = true := live
  simp only [handleData, bufferData, ConnectionView.receive, registered.own live, isLive, Bool.not_true,
    Bool.false_or, List.isEmpty_iff]
  split
  · exact ⟨rfl, registered⟩
  · have kept := registered.setBuffer fd
      (appendData config ((ingress.frameBufferByFd fd).getD []) data).buffer
    have sameBuffer : (ingress.view fd streamId).buffer = (ingress.frameBufferByFd fd).getD [] :=
      rfl
    rw [deliver, sameBuffer]
    split
    · have closed := shutdown_own config kept live
      exact ⟨closed.1, closed.2⟩
    · refine ⟨?_, kept.own, kept.only, kept.named⟩
      simp [view, live, dataOf_append, dataOf_frames, TcpIngress.setBuffer]

theorem handleReadClosed_other (different : other ≠ fd)
    (registered : ingress.Registered fd streamId) :
    (ingress.handleReadClosed other).view fd streamId = ingress.view fd streamId ∧
      (ingress.handleReadClosed other).Registered fd streamId := by
  simp only [handleReadClosed, closeReading]
  cases ingress.streamByFd other with
  | none => simpa using registered
  | some otherStream =>
    by_cases already : otherStream ∈ ingress.readClosedStreams
    · refine ⟨?_, by simpa [already] using ⟨registered.own, registered.only, registered.named⟩⟩
      simp [view, already, different.symm]
    · refine ⟨?_, by simpa [already] using ⟨registered.own, registered.only, registered.named⟩⟩
      simp [view, already, dataOf, different.symm]

theorem shutdownStream_other (different : other ≠ streamId)
    (registered : ingress.Registered fd streamId) :
    (ingress.shutdownStream config other).view fd streamId = ingress.view fd streamId ∧
      (ingress.shutdownStream config other).Registered fd streamId := by
  unfold shutdownStream
  split
  · exact ⟨rfl, registered⟩
  · split
    · exact ⟨rfl, registered⟩
    · next found =>
        refine shutdown_other config ?_ registered
        rintro rfl
        exact different (registered.named other found)

theorem accept_other (different : other ≠ fd) (fresh : ingress.newStreamId config ≠ streamId)
    (registered : ingress.Registered fd streamId) :
    (ingress.accept config other).view fd streamId = ingress.view fd streamId ∧
      (ingress.accept config other).Registered fd streamId := by
  unfold accept
  split
  · exact ⟨rfl, registered⟩
  · have still : update ingress.connected other true fd = ingress.connected fd :=
      update_of_ne different.symm _ _
    have kept := handleConnection_other config
      { ingress with connected := update ingress.connected other true } different
      (fun _ => fresh) ⟨fun live => registered.own (still ▸ live), registered.only,
        registered.named⟩
    exact ⟨kept.1.trans (by simp [view, still]), kept.2⟩

theorem view_step {event : IngressEvent} (quiet : Quiet config fd streamId ingress event)
    (registered : ingress.Registered fd streamId) :
    (ingress.step config event).view fd streamId =
        (if event.isReceived fd = true then (ingress.view fd streamId).receive config event.data
        else ingress.view fd streamId) ∧
      (ingress.step config event).Registered fd streamId := by
  cases event with
  | accepted other => exact accept_other quiet.1 quiet.2 registered
  | readClosed other =>
    simp only [step]
    split
    · exact handleReadClosed_other quiet registered
    · exact ⟨rfl, registered⟩
  | failed other => exact shutdown_other config quiet registered
  | shutdownStream other => exact shutdownStream_other quiet registered
  | received other data =>
    simp only [step, IngressEvent.isReceived, IngressEvent.data, decide_eq_true_eq]
    by_cases same : other = fd
    · subst same
      rw [if_pos rfl]
      split
      · next live => exact handleData_own live data registered
      · next gone =>
          refine ⟨?_, registered⟩
          simp [ConnectionView.receive, view, gone]
    · rw [if_neg same]
      split
      · exact handleData_other same data registered
      · exact ⟨rfl, registered⟩

theorem view_run {start finish : TcpIngress} {events : List IngressEvent}
    (registered : start.Registered fd streamId)
    (run : Run (fun ingress event => some (step config ingress event)) (Quiet config fd streamId)
      start events finish) :
    finish.view fd streamId =
      (chunksOf fd events).foldl (ConnectionView.receive config) (start.view fd streamId) := by
  rw [chunksOf, foldl_map]
  refine run.replay (view fd streamId) (Registered fd streamId) registered ?_ ?_
  · intro before after event quiet taken registered
    cases taken
    exact (view_step quiet registered).2
  · intro before after event quiet taken registered
    cases taken
    exact (view_step quiet registered).1

end TcpIngress

end View

section Reading

variable (config : TcpIngressConfig)

/-- A piece that comes after the bytes received so far fits into the buffer, next to what is
pending there. If it completes the header of a payload that is too large, it completes no frame
before that. -/
def FitsAfter (received chunk : Bytes) : Prop :=
  ∀ frames rest, edgeFraming.Splits config.maxEdgeFramePayloadSize received frames rest →
    ¬ edgeFraming.Excessive config.maxEdgeFramePayloadSize rest →
      rest.length + chunk.length ≤ TcpIngress.maxBufferSize config ∧
        ∀ frames' rest',
          edgeFraming.Splits config.maxEdgeFramePayloadSize (rest ++ chunk) frames' rest' →
            edgeFraming.Excessive config.maxEdgeFramePayloadSize rest' → frames' = []

def Fits (chunks : List Bytes) : Prop :=
  ∀ before chunk after, chunks = before ++ chunk :: after → FitsAfter config before.flatten chunk

/-- The data events are the frames that the bytes start with, and the connection is closed just if
a header of a payload that is too large comes next. -/
def Framed (received : Bytes) (view : ConnectionView) : Prop :=
  ∃ rest, edgeFraming.Splits config.maxEdgeFramePayloadSize received view.delivered rest ∧
    (view.live = false ↔ edgeFraming.Excessive config.maxEdgeFramePayloadSize rest)

/-- The connection is read as it should be, and what is pending is in the buffer. -/
def Tracks (received : Bytes) (view : ConnectionView) : Prop :=
  ∃ rest, edgeFraming.Splits config.maxEdgeFramePayloadSize received view.delivered rest ∧
    (view.live = false ↔ edgeFraming.Excessive config.maxEdgeFramePayloadSize rest) ∧
    (view.live = true → view.buffer = rest)

/-- The connection is closed, and a frame is missing or there is nothing to close it for. -/
def Strays (received : Bytes) (view : ConnectionView) : Prop :=
  view.live = false ∧
    ((∃ frame frames rest, edgeFraming.Splits config.maxEdgeFramePayloadSize received
        (view.delivered ++ frame :: frames) rest) ∨
      ∀ bytes, ¬ edgeFraming.Excessive config.maxEdgeFramePayloadSize bytes)

variable {config} {received chunk : Bytes} {view : ConnectionView} {chunks : List Bytes}

theorem fits_append_singleton :
    Fits config (chunks ++ [chunk]) ↔
      Fits config chunks ∧ FitsAfter config chunks.flatten chunk := by
  constructor
  · intro fits
    refine ⟨?_, fits chunks chunk [] rfl⟩
    rintro before other after rfl
    exact fits before other (after ++ [chunk]) (by simp)
  · rintro ⟨earlier, last⟩ before other after split
    rcases eq_nil_or_concat after with rfl | ⟨after, final, rfl⟩
    · rcases append_inj' split rfl with ⟨rfl, same⟩
      cases same
      exact last
    · refine earlier before other after ?_
      rw [concat_eq_append, ← cons_append, ← append_assoc] at split
      exact (append_inj' split rfl).1

theorem appendData_of_fits {buffer : Bytes}
    (fits : buffer.length + chunk.length ≤ TcpIngress.maxBufferSize config) :
    TcpIngress.appendData config buffer chunk =
      TcpIngress.extractFrames config (buffer ++ chunk) := by
  rw [TcpIngress.appendData, if_neg]
  omega

theorem appendData_of_full {buffer : Bytes}
    (full : TcpIngress.maxBufferSize config < buffer.length + chunk.length) :
    TcpIngress.appendData config buffer chunk = { buffer, closeConnection := true } := by
  rw [TcpIngress.appendData, if_pos]
  omega

theorem frame_of_full {rest : Bytes} (bounded : chunk.length ≤ config.maxEdgeFramePayloadSize)
    (pending : ¬ edgeFraming.Excessive config.maxEdgeFramePayloadSize rest)
    (full : TcpIngress.maxBufferSize config < rest.length + chunk.length) :
    (∃ frame, edgeFraming.IsFrame config.maxEdgeFramePayloadSize frame ∧
        frame <+: rest ++ chunk) ∨
      ∀ bytes, ¬ edgeFraming.Excessive config.maxEdgeFramePayloadSize bytes := by
  by_cases wraps : edgeDataFrameHeaderSize + config.maxEdgeFramePayloadSize < 2 ^ 64
  · left
    rw [TcpIngress.maxBufferSize, Nat.mod_eq_of_lt wraps] at full
    have complete : edgeFraming.headerSize ≤ rest.length := by
      change edgeDataFrameHeaderSize ≤ rest.length
      omega
    have within : edgeFraming.announced rest ≤ config.maxEdgeFramePayloadSize := by
      by_contra exceeds
      exact pending ⟨complete, not_le.mp exceeds⟩
    have sameSize : edgeFraming.announced (rest ++ chunk) = edgeFraming.announced rest :=
      Framing.announced_append complete
    refine ⟨_, .of_take ?_ (sameSize.symm ▸ within), take_prefix _ _⟩
    rw [sameSize, length_append]
    change edgeDataFrameHeaderSize + _ ≤ _
    omega
  · -- four bytes cannot announce more than such a limit
    right
    intro bytes excessive
    have small := announced_lt bytes
    have exceeds := excessive.exceeds
    have header : edgeDataFrameHeaderSize = 18 := rfl
    omega

theorem receive_of_gone (gone : view.live = false) : view.receive config chunk = view := by
  simp [ConnectionView.receive, gone]

theorem receive_of_live (live : view.live = true) (nonempty : chunk ≠ []) :
    view.receive config chunk =
      if (TcpIngress.appendData config view.buffer chunk).closeConnection = true then
        { view with live := false, buffer := [] }
      else
        { view with
          buffer := (TcpIngress.appendData config view.buffer chunk).buffer
          delivered := view.delivered ++
            (TcpIngress.appendData config view.buffer chunk).frames } := by
  simp [ConnectionView.receive, live, nonempty]

theorem Tracks.receive_of_fits (tracks : Tracks config received view) (nonempty : chunk ≠ [])
    (fits : FitsAfter config received chunk) :
    Tracks config (received ++ chunk) (view.receive config chunk) := by
  rcases tracks with ⟨rest, splits, closed, pending⟩
  by_cases excessive : edgeFraming.Excessive config.maxEdgeFramePayloadSize rest
  · have gone := closed.mpr excessive
    rw [receive_of_gone gone]
    have later := splits.append (excessive.append chunk).splits
    rw [append_nil] at later
    exact ⟨rest ++ chunk, later, iff_of_true gone (excessive.append chunk), by simp [gone]⟩
  · have live : view.live = true := by
      simpa using mt closed.mp excessive
    rcases fits _ rest splits excessive with ⟨room, unbroken⟩
    rcases extractFrames_splits config (rest ++ chunk) with
      ⟨splits', closes⟩
    rw [receive_of_live live nonempty, pending live, appendData_of_fits room]
    split
    · next close =>
        have excessive' := closes.mp close
        refine ⟨_, ?_, iff_of_true rfl excessive', nofun⟩
        have later := splits.append splits'
        rwa [unbroken _ _ splits' excessive', append_nil] at later
    · next stays =>
        refine ⟨_, splits.append splits', iff_of_false (by simp [live]) (mt closes.mpr stays), ?_⟩
        exact fun _ => rfl

theorem strays_of_frame {rest frame : Bytes} {frames : List Bytes}
    (splits : edgeFraming.Splits config.maxEdgeFramePayloadSize received view.delivered rest)
    (splits' : edgeFraming.Splits config.maxEdgeFramePayloadSize (rest ++ chunk) frames frame)
    (cut : frames ≠ []) :
    Strays config (received ++ chunk) { view with live := false, buffer := [] } := by
  rcases exists_cons_of_ne_nil cut with ⟨first, others, rfl⟩
  exact ⟨rfl, .inl ⟨first, others, _, splits.append splits'⟩⟩

theorem Tracks.receive_of_not_fits (tracks : Tracks config received view) (nonempty : chunk ≠ [])
    (bounded : chunk.length ≤ config.maxEdgeFramePayloadSize)
    (misfit : ¬ FitsAfter config received chunk) :
    Strays config (received ++ chunk) (view.receive config chunk) := by
  rcases tracks with ⟨rest, splits, closed, pending⟩
  simp only [FitsAfter, not_forall] at misfit
  rcases misfit with ⟨frames, rest', splits', excessive, misfit⟩
  rcases splits.unique splits' with ⟨-, rfl⟩
  have live : view.live = true := by
    simpa using mt closed.mp excessive
  rw [receive_of_live live nonempty, pending live]
  by_cases room : rest.length + chunk.length ≤ TcpIngress.maxBufferSize config
  · -- frames were cut and then thrown away for the header behind them
    rw [appendData_of_fits room]
    rcases extractFrames_splits config (rest ++ chunk) with
      ⟨splits'', closes⟩
    have broken : ∃ frames' rest', edgeFraming.Splits config.maxEdgeFramePayloadSize
        (rest ++ chunk) frames' rest' ∧
        edgeFraming.Excessive config.maxEdgeFramePayloadSize rest' ∧ frames' ≠ [] := by
      simpa [room] using misfit
    rcases broken with ⟨frames', rest', splits', excessive', cut⟩
    rcases splits''.unique splits' with ⟨sameFrames, sameRest⟩
    rw [if_pos (closes.mpr (sameRest ▸ excessive'))]
    exact strays_of_frame splits splits' cut
  · -- the buffer is full before anything is cut
    rw [appendData_of_full (not_le.mp room), if_pos rfl]
    rcases frame_of_full bounded excessive (not_le.mp room) with ⟨frame, isFrame, starts⟩ | never
    · rcases Framing.exists_splits edgeFraming config.maxEdgeFramePayloadSize (rest ++ chunk) with
        ⟨frames', rest', splits'⟩
      exact strays_of_frame splits splits' (splits'.ne_nil_of_frame isFrame starts)
    · exact ⟨rfl, .inr never⟩

theorem Strays.receive (strays : Strays config received view) :
    Strays config (received ++ chunk) (view.receive config chunk) := by
  rw [receive_of_gone strays.1]
  refine ⟨strays.1, ?_⟩
  rcases strays.2 with ⟨frame, frames, rest, splits⟩ | never
  · rcases splits.exists_append chunk with ⟨frames', rest', splits'⟩
    rw [append_assoc, cons_append] at splits'
    exact .inl ⟨frame, frames ++ frames', rest', splits'⟩
  · exact .inr never

theorem tracks_or_strays
    (cut : ∀ chunk ∈ chunks, chunk ≠ [] ∧ chunk.length ≤ config.maxEdgeFramePayloadSize) :
    (Fits config chunks ∧ Tracks config chunks.flatten
        (chunks.foldl (ConnectionView.receive config) ⟨true, [], []⟩)) ∨
      (¬ Fits config chunks ∧ Strays config chunks.flatten
        (chunks.foldl (ConnectionView.receive config) ⟨true, [], []⟩)) := by
  induction chunks using List.reverseRecOn with
  | nil =>
    left
    refine ⟨?_, [], Framing.splits_of_short nofun, ?_, fun _ => rfl⟩
    · intro before chunk after split
      simp at split
    · exact iff_of_false nofun fun excessive => absurd excessive.complete (by decide)
  | append_singleton chunks chunk ih =>
    have last := cut chunk (by simp)
    rw [fits_append_singleton, flatten_append, flatten_singleton, foldl_append,
      foldl_cons, foldl_nil]
    rcases ih fun earlier mem => cut earlier (by simp [mem]) with ⟨fits, tracks⟩ | ⟨misfit, strays⟩
    · by_cases fitsLast : FitsAfter config chunks.flatten chunk
      · exact .inl ⟨⟨fits, fitsLast⟩, tracks.receive_of_fits last.1 fitsLast⟩
      · exact .inr ⟨fun both => fitsLast both.2, tracks.receive_of_not_fits last.1 last.2 fitsLast⟩
    · exact .inr ⟨fun both => misfit both.1, strays.receive⟩

end Reading

structure TcpIngress.JustAccepted (fd streamId : ℕ) (ingress : TcpIngress) : Prop
    extends ingress.Registered fd streamId where
  fresh : ingress.view fd streamId = { live := true, buffer := [], delivered := [] }

theorem justAccepted_accept {config : TcpIngressConfig} {ingress : TcpIngress} {fd : ℕ}
    (free : ingress.connected fd = false)
    (unused : ∀ other, ingress.streamByFd other ≠ some (ingress.newStreamId config))
    (unnamed : ∀ other, ingress.connectionByStream other ≠ some fd)
    (nothing : dataOf (ingress.newStreamId config) ingress.events = []) :
    (ingress.accept config fd).JustAccepted fd (ingress.newStreamId config) := by
  simp only [accept, free, Bool.false_eq_true, if_false, handleConnection, update_self, if_true]
  refine ⟨Registered.notify ⟨?_, ?_, ?_⟩ _, (notify_view ?_).trans ?_⟩
  · intro _
    exact update_self ..
  · intro other sameStream
    by_contra different
    exact unused other (by simpa [addStream, different] using sameStream)
  · intro other sameFd
    by_contra different
    have earlier : update ingress.connectionByStream (ingress.newStreamId config)
        (some fd) other = some fd := sameFd
    rw [update_of_ne different] at earlier
    exact unnamed other earlier
  · simp
  · simp [view, addStream, advance, nothing]

/-- For all bytes and all ways to cut them: the connection is read as it should be, whatever
else happens at the node, just if the pieces fit. -/
theorem framed_iff_fits {config : TcpIngressConfig} {fd streamId : ℕ} {start finish : TcpIngress}
    {events : List IngressEvent} (large : config.recvBufferSize ≤ config.maxEdgeFramePayloadSize)
    (accepted : start.JustAccepted fd streamId)
    (cut : ∀ chunk ∈ chunksOf fd events, chunk ≠ [] ∧ chunk.length ≤ config.recvBufferSize)
    (run : Run (fun ingress event => some (ingress.step config event))
      (TcpIngress.Quiet config fd streamId) start events finish) :
    Framed config (chunksOf fd events).flatten (finish.view fd streamId) ↔
      Fits config (chunksOf fd events) := by
  rw [view_run accepted.toRegistered run, accepted.fresh]
  have bounded : ∀ chunk ∈ chunksOf fd events,
      chunk ≠ [] ∧ chunk.length ≤ config.maxEdgeFramePayloadSize :=
    fun chunk mem => ⟨(cut chunk mem).1, (cut chunk mem).2.trans large⟩
  rcases tracks_or_strays bounded with
    ⟨fits, rest, splits, closed, -⟩ | ⟨misfit, gone, strays⟩
  · exact iff_of_true ⟨rest, splits, closed⟩ fits
  · refine iff_of_false ?_ misfit
    rintro ⟨rest, splits, closed⟩
    rcases strays with ⟨frame, frames, rest', splits'⟩ | never
    · have same := (splits.unique splits').1
      simp at same
    · exact never rest (closed.mp gone)

section Pieces

def smallIngress : TcpIngressConfig where
  recvBufferSize := 20
  maxEdgeFramePayloadSize := 20

def oneDevice : TcpIngress := ({} : TcpIngress).accept smallIngress 7

def oneDeviceStream : ℕ := 2 ^ 32 + 1

theorem oneDevice_justAccepted : oneDevice.JustAccepted 7 oneDeviceStream := by
  have accepted : oneDevice.JustAccepted 7 (TcpIngress.newStreamId smallIngress {}) :=
    justAccepted_accept rfl (fun _ => nofun) (fun _ => nofun) rfl
  exact accepted

def deviceBytes (size next : ℕ) : Bytes :=
  List.replicate 14 0 ++ BigEndian.store 4 size ++ List.replicate size 1 ++
    (List.replicate 14 0 ++ BigEndian.store 4 next)

def arrivals (bytes : Bytes) (sizes : List ℕ) : List IngressEvent :=
  (sizes.splitLengths bytes).map (.received 7)

/-- The second piece ends with the frame, and the third one has the header of a payload that is too
large. -/
theorem frame_delivered :
    ∃ finish, Run (fun ingress event => some (ingress.step smallIngress event))
        (TcpIngress.Quiet smallIngress 7 oneDeviceStream) oneDevice
        (arrivals (deviceBytes 20 21) [19, 19, 18]) finish ∧
      (finish.view 7 oneDeviceStream).live = false ∧
      (finish.view 7 oneDeviceStream).delivered = [(deviceBytes 20 21).take 38] ∧
      Fits smallIngress (chunksOf 7 (arrivals (deviceBytes 20 21) [19, 19, 18])) := by
  refine Run.exists_of_execute (fun finish : TcpIngress =>
    (finish.view 7 oneDeviceStream).live = false ∧
      (finish.view 7 oneDeviceStream).delivered = [(deviceBytes 20 21).take 38])
    (by decide +kernel) ?_
  intro finish run facts
  rcases of_decide_eq_true facts with ⟨gone, delivered⟩
  have excessive : edgeFraming.Excessive 20 ((deviceBytes 20 21).drop 38) := by decide +kernel
  have isFrame : edgeFraming.IsFrame 20 ((deviceBytes 20 21).take 38) := by decide +kernel
  have framed : Framed smallIngress
      (chunksOf 7 (arrivals (deviceBytes 20 21) [19, 19, 18])).flatten
      (finish.view 7 oneDeviceStream) := by
    refine ⟨(deviceBytes 20 21).drop 38, ?_, iff_of_true gone excessive⟩
    rw [delivered]
    exact .cons isFrame excessive.splits
  exact ⟨gone, delivered,
    (framed_iff_fits (by decide) oneDevice_justAccepted (by decide +kernel) run).mp framed⟩

theorem not_framed_of_nothing {config : TcpIngressConfig} {received : Bytes}
    {view : ConnectionView} (gone : view.live = false) (nothing : view.delivered = [])
    (pending : ¬ edgeFraming.Excessive config.maxEdgeFramePayloadSize received) :
    ¬ Framed config received view := by
  rintro ⟨rest, splits, closed⟩
  have joined := splits.joined
  rw [nothing] at joined
  exact pending (joined ▸ closed.mp gone)

/-- The same bytes in other pieces: the frame is lost, and the connection closed, when a piece ends
beyond the frame and the buffer has no room for it. A frame is lost as well when a piece has its
end and a header of a payload that is too large. -/
theorem frame_lost_by_cut :
    (∃ finish, Run (fun ingress event => some (ingress.step smallIngress event))
        (TcpIngress.Quiet smallIngress 7 oneDeviceStream) oneDevice
        (arrivals (deviceBytes 20 20) [20, 20, 16]) finish ∧
      ¬ Framed smallIngress (chunksOf 7 (arrivals (deviceBytes 20 20) [20, 20, 16])).flatten
        (finish.view 7 oneDeviceStream)) ∧
    ∃ finish, Run (fun ingress event => some (ingress.step smallIngress event))
        (TcpIngress.Quiet smallIngress 7 oneDeviceStream) oneDevice
        (arrivals (deviceBytes 0 21) [17, 19]) finish ∧
      ¬ Framed smallIngress (chunksOf 7 (arrivals (deviceBytes 0 21) [17, 19])).flatten
        (finish.view 7 oneDeviceStream) := by
  constructor
  · refine Run.exists_of_execute (fun finish : TcpIngress =>
      (finish.view 7 oneDeviceStream).live = false ∧
        (finish.view 7 oneDeviceStream).delivered = []) (by decide +kernel) ?_
    intro finish _ facts
    rcases of_decide_eq_true facts with ⟨gone, nothing⟩
    exact not_framed_of_nothing gone nothing (by decide +kernel)
  · refine Run.exists_of_execute (fun finish : TcpIngress =>
      (finish.view 7 oneDeviceStream).live = false ∧
        (finish.view 7 oneDeviceStream).delivered = []) (by decide +kernel) ?_
    intro finish _ facts
    rcases of_decide_eq_true facts with ⟨gone, nothing⟩
    exact not_framed_of_nothing gone nothing (by decide +kernel)

end Pieces

end IotProxy.Proxy
