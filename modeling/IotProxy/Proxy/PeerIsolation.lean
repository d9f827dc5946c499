import IotProxy.Proxy.StreamAffinity

/-!
# Peer isolation

What happens to a connection that was opened for a stream of a peer should be a matter between that
peer and the target. `StreamView` is the machine that this asks for: it has the connections of one
peer under one stream id, and its steps are the frames of that peer for that stream and the ends of
its connections.

The egress of a node keeps one table for all peers, with the stream id as the key, and drops the
session of a frame before it comes to the table.
-/

namespace IotProxy.Proxy

open EventSystem List TcpEgress

/-- The frames that act on connections. -/
def TunnelFrameType.ofStream : TunnelFrameType → Bool
  | .open | .data | .close | .finish => true
  | .control | .replicate | .kafkaBroadcast => false

/-- One stream of one peer: the connections opened for it and the one that is in use. -/
structure StreamView where
  stopping : Bool := false
  current : Option ℕ := none
  conns : List EgressConn := []

variable {frame : TunnelFrame}

namespace StreamView

variable (view : StreamView)

def modify (serial : ℕ) (change : EgressConn → EgressConn) : StreamView :=
  { view with conns := view.conns.modify serial change }

def openStream (config : TcpEgressConfig) (streamId : ℕ) (connects : Bool) : StreamView :=
  if streamId = 0 ∨ config.target.host = [] ∨ config.target.port = 0 ∨ view.stopping
      ∨ view.current.isSome ∨ !connects then view
  else { view with current := some view.conns.length, conns := view.conns ++ [{}] }

def closeStream : StreamView :=
  match view.current with
  | none => view
  | some serial => { view with current := none }.modify serial TcpEgress.closeConn

def sendToStream (streamId : ℕ) (payload : Bytes) (outcome : WriteOutcome) : StreamView :=
  if streamId = 0 ∨ payload = [] ∨ view.stopping then view
  else
    match view.current with
    | none => view
    | some serial =>
      if !view.conns[serial]?.any (·.isOpen) then view
      else
        match outcome with
        | .complete => view.modify serial (TcpEgress.act (.write payload))
        | .failed taken =>
          (view.modify serial (TcpEgress.act (.write (payload.take taken)))).closeStream

def shutdownStreamWrite (streamId : ℕ) : StreamView :=
  if streamId = 0 then view
  else
    match view.current with
    | none => view
    | some serial =>
      view.modify serial fun conn =>
        if conn.isOpen then TcpEgress.act .shutdownWrite conn else conn

def receive (config : TcpEgressConfig) (frame : TunnelFrame) (answers : RuntimeAnswers) :
    StreamView :=
  if frame.streamId = 0 then view
  else
    match frame.type with
    | .open => view.openStream config frame.streamId answers.connects
    | .data => view.sendToStream frame.streamId frame.payload answers.write
    | .close => view.closeStream
    | .finish => view.shutdownStreamWrite frame.streamId
    | .control | .replicate | .kafkaBroadcast => view

theorem receive_of_not_ofStream (config : TcpEgressConfig)
    (answers : RuntimeAnswers) (other : frame.type.ofStream = false) :
    view.receive config frame answers = view := by
  unfold receive
  split
  · rfl
  · cases type : frame.type <;> rw [type] at other <;> first | rfl | cases other

def readEnd (serial : ℕ) : StreamView :=
  if !view.conns[serial]?.any (·.reading) then view
  else
    { view with current := none }.modify serial fun conn =>
      { TcpEgress.closeConn conn with reading := false }

def stop : StreamView :=
  if view.stopping then view else { view.closeStream with stopping := true }

end StreamView

namespace TcpEgress

variable {κ : Type}

def view (egress : TcpEgress κ) (opener : κ) (streamId : ℕ) : StreamView where
  stopping := egress.stopping
  current := (egress.lookup streamId).map ConnRef.serial
  conns := egress.conns opener streamId

/-- The stream id is the peer's own, and no id has two entries in the table. -/
structure Reserved (opener : κ) (streamId : ℕ) (egress : TcpEgress κ) : Prop where
  nodup : (egress.streams.map ConnRef.streamId).Nodup
  own : ∀ ref, egress.lookup streamId = some ref → ref.opener = opener
  others : ∀ other, other ≠ opener → egress.conns other streamId = []

section View

variable {egress : TcpEgress κ} {opener : κ} {streamId : ℕ}

theorem view_removeStream (removed : ℕ) :
    (egress.removeStream removed).view opener streamId =
      if streamId = removed then { egress.view opener streamId with current := none }
      else egress.view opener streamId := by
  simp only [view, removeStream_lookup]
  split <;> rfl

theorem Reserved.removeStream (reserved : egress.Reserved opener streamId) (removed : ℕ) :
    (egress.removeStream removed).Reserved opener streamId := by
  refine ⟨?_, ?_, reserved.others⟩
  · exact reserved.nodup.sublist (filter_sublist.map ConnRef.streamId)
  · intro ref found
    rw [removeStream_lookup] at found
    split at found
    · cases found
    · exact reserved.own ref found

variable {ref : ConnRef κ}

theorem Reserved.lookup (reserved : egress.Reserved opener streamId)
    (found : egress.lookup streamId = some ref) : opener = ref.opener ∧ streamId = ref.streamId :=
  ⟨(reserved.own ref found).symm, (streamId_of_lookup found).symm⟩

theorem current_of_lookup (found : egress.lookup streamId = some ref) :
    (egress.view opener streamId).current = some ref.serial := by
  simp [view, found]

theorem conn_eq_view (mine : opener = ref.opener ∧ streamId = ref.streamId) :
    egress.conn ref = (egress.view opener streamId).conns[ref.serial]? := by
  rw [conn, ← mine.1, ← mine.2]
  rfl

variable [DecidableEq κ]

theorem view_modifyConn (ref : ConnRef κ) (change : EgressConn → EgressConn) :
    (egress.modifyConn ref change).view opener streamId =
      if opener = ref.opener ∧ streamId = ref.streamId then
        (egress.view opener streamId).modify ref.serial change
      else egress.view opener streamId := by
  simp only [view, modifyConn_stopping, modifyConn_lookup, modifyConn_conns, StreamView.modify]
  split <;> rfl

theorem Reserved.modifyConn (reserved : egress.Reserved opener streamId) (ref : ConnRef κ)
    (change : EgressConn → EgressConn) :
    (egress.modifyConn ref change).Reserved opener streamId := by
  refine ⟨reserved.nodup, reserved.own, ?_⟩
  intro other stranger
  rw [modifyConn_conns]
  split
  · rw [reserved.others other stranger, modify_nil]
  · exact reserved.others other stranger

theorem view_closeStream (reserved : egress.Reserved opener streamId) (closed : ℕ) :
    (egress.closeStream closed).view opener streamId =
      if streamId = closed then (egress.view opener streamId).closeStream
      else egress.view opener streamId := by
  unfold closeStream
  split
  · next absent =>
      split
      · next same =>
          subst same
          simp [StreamView.closeStream, view, absent]
      · rfl
  · next ref found =>
      rw [view_modifyConn, view_removeStream]
      by_cases same : streamId = closed
      · subst same
        rw [if_pos (reserved.lookup found), if_pos rfl, if_pos rfl]
        simp [StreamView.closeStream, view, found]
      · have elsewhere : ¬ (opener = ref.opener ∧ streamId = ref.streamId) :=
          fun here => same (here.2.trans (streamId_of_lookup found))
        rw [if_neg elsewhere, if_neg same, if_neg same]

theorem Reserved.closeStream (reserved : egress.Reserved opener streamId) (closed : ℕ) :
    (egress.closeStream closed).Reserved opener streamId := by
  unfold TcpEgress.closeStream
  split
  · exact reserved
  · exact (reserved.removeStream closed).modifyConn _ _

theorem view_modifyConn_of_ne {other : ℕ} (different : streamId ≠ other)
    (found : egress.lookup other = some ref) (change : EgressConn → EgressConn) :
    (egress.modifyConn ref change).view opener streamId = egress.view opener streamId := by
  rw [view_modifyConn, if_neg]
  exact fun here => different (here.2.trans (streamId_of_lookup found))

theorem view_sendToStream_self (reserved : egress.Reserved opener streamId) (payload : Bytes)
    (outcome : WriteOutcome) :
    (egress.sendToStream streamId payload outcome).1.view opener streamId =
      (egress.view opener streamId).sendToStream streamId payload outcome := by
  have sameFlag : (egress.view opener streamId).stopping = egress.stopping := rfl
  unfold sendToStream StreamView.sendToStream
  rw [sameFlag]
  split
  · rfl
  · cases found : egress.lookup streamId with
    | none => simp [view, found]
    | some ref =>
      have mine := reserved.lookup found
      simp only [current_of_lookup found, conn_eq_view mine]
      split
      · rfl
      · cases outcome with
        | complete => rw [view_modifyConn, if_pos mine]
        | failed taken =>
          -- a failed write closes the stream after the part that was taken
          simp only
          rw [view_closeStream (reserved.modifyConn _ _), if_pos rfl, view_modifyConn, if_pos mine]

theorem view_sendToStream_of_ne (reserved : egress.Reserved opener streamId) {target : ℕ}
    (different : streamId ≠ target) (payload : Bytes) (outcome : WriteOutcome) :
    (egress.sendToStream target payload outcome).1.view opener streamId =
      egress.view opener streamId := by
  unfold sendToStream
  split
  · rfl
  · cases found : egress.lookup target with
    | none => rfl
    | some ref =>
      simp only
      split
      · rfl
      · cases outcome with
        | complete => exact view_modifyConn_of_ne different found _
        | failed taken =>
          simp only
          rw [view_closeStream (reserved.modifyConn _ _), if_neg different]
          exact view_modifyConn_of_ne different found _

theorem view_sendToStream (reserved : egress.Reserved opener streamId) (target : ℕ)
    (payload : Bytes) (outcome : WriteOutcome) :
    (egress.sendToStream target payload outcome).1.view opener streamId =
      if streamId = target then (egress.view opener streamId).sendToStream target payload outcome
      else egress.view opener streamId := by
  split
  · next same =>
      subst same
      exact view_sendToStream_self reserved payload outcome
  · next different => exact view_sendToStream_of_ne reserved different payload outcome

theorem Reserved.sendToStream (reserved : egress.Reserved opener streamId) (target : ℕ)
    (payload : Bytes) (outcome : WriteOutcome) :
    (egress.sendToStream target payload outcome).1.Reserved opener streamId := by
  unfold TcpEgress.sendToStream
  split
  · exact reserved
  · split
    · exact reserved
    · split
      · exact reserved
      · split
        · exact reserved.modifyConn _ _
        · exact (reserved.modifyConn _ _).closeStream _

theorem view_shutdownStreamWrite (reserved : egress.Reserved opener streamId) (target : ℕ) :
    (egress.shutdownStreamWrite target).view opener streamId =
      if streamId = target then (egress.view opener streamId).shutdownStreamWrite target
      else egress.view opener streamId := by
  unfold shutdownStreamWrite StreamView.shutdownStreamWrite
  by_cases isZero : target = 0
  · simp [isZero]
  · rw [if_neg isZero, if_neg isZero]
    cases found : egress.lookup target with
    | none =>
      by_cases same : streamId = target
      · subst same
        simp [view, found]
      · simp [same]
    | some ref =>
      by_cases same : streamId = target
      · subst same
        simp only [current_of_lookup found, if_true]
        rw [view_modifyConn, if_pos (reserved.lookup found)]
      · rw [if_neg same]
        exact view_modifyConn_of_ne same found _

theorem Reserved.shutdownStreamWrite (reserved : egress.Reserved opener streamId)
    (target : ℕ) : (egress.shutdownStreamWrite target).Reserved opener streamId := by
  unfold TcpEgress.shutdownStreamWrite
  split
  · exact reserved
  · split
    · exact reserved
    · exact reserved.modifyConn _ _

variable {sender : κ}

theorem view_openStream (config : TcpEgressConfig) {opened : ℕ} (connects : Bool)
    (allowed : streamId = opened → sender = opener ∧ egress.streams.length < config.maxStreams) :
    (egress.openStream config sender opened connects).1.view opener streamId =
      if streamId = opened then (egress.view opener streamId).openStream config opened connects
      else egress.view opener streamId := by
  unfold openStream
  by_cases same : streamId = opened
  · subst same
    rcases allowed rfl with ⟨rfl, room⟩
    have isCurrent : (egress.view sender streamId).current.isSome =
        (egress.lookup streamId).isSome := by
      simp [view]
    rw [if_pos rfl, StreamView.openStream, isCurrent]
    split
    · next refused => rw [if_pos (by tauto)]
    · next valid =>
        split
        · next taken => rw [if_pos (by have := not_le.mpr room; tauto)]
        · next free =>
            split
            · next refused => rw [if_pos (by tauto)]
            · next accepted =>
                rw [if_neg (by tauto)]
                simp [view, TcpEgress.lookup]
  · rw [if_neg same]
    have elsewhere : opened ≠ streamId := fun equal => same equal.symm
    split
    · rfl
    · split
      · rfl
      · split
        · rfl
        · by_cases own : opener = sender
          · subst own
            simp [view, TcpEgress.lookup, elsewhere, same]
          · simp [view, TcpEgress.lookup, elsewhere, own]

theorem Reserved.openStream (reserved : egress.Reserved opener streamId)
    (config : TcpEgressConfig) {opened : ℕ} (connects : Bool)
    (allowed : streamId = opened → sender = opener) :
    (egress.openStream config sender opened connects).1.Reserved opener streamId := by
  unfold TcpEgress.openStream
  split
  · exact reserved
  · split
    · exact reserved
    · next free =>
        split
        · exact reserved
        · have absent : egress.lookup opened = none := by
            simpa using (not_or.mp free).1
          refine ⟨nodup_cons.mpr ⟨?_, reserved.nodup⟩, ?_, ?_⟩
          · intro mem
            rcases mem_map.mp mem with ⟨ref, stored, same⟩
            have notFound := List.find?_eq_none.mp absent ref stored
            simp [same] at notFound
          · intro ref found
            by_cases same : opened = streamId
            · simp only [TcpEgress.lookup, List.find?_cons, same, decide_true] at found
              cases found
              exact allowed same.symm
            · simp only [TcpEgress.lookup, List.find?_cons, same, decide_false] at found
              exact reserved.own ref found
          · intro other stranger
            by_cases same : streamId = opened
            · -- only the peer itself may open the stream
              have notSender : other ≠ sender := allowed same ▸ stranger
              simpa [notSender] using reserved.others other stranger
            · by_cases isSender : other = sender
              · subst isSender
                simpa [same] using reserved.others other stranger
              · simpa [isSender] using reserved.others other stranger

theorem view_readEnd (reserved : egress.Reserved opener streamId) (ref : ConnRef κ) :
    (egress.readEnd ref).1.view opener streamId =
      if ref.opener = opener ∧ ref.streamId = streamId then
        (egress.view opener streamId).readEnd ref.serial
      else egress.view opener streamId := by
  unfold readEnd StreamView.readEnd
  by_cases mine : ref.opener = opener ∧ ref.streamId = streamId
  · rw [if_pos mine, conn_eq_view ⟨mine.1.symm, mine.2.symm⟩]
    split
    · rfl
    · rw [view_removeStream, if_pos mine.2.symm, view_modifyConn,
        if_pos ⟨mine.1.symm, mine.2.symm⟩]
      rfl
  · rw [if_neg mine]
    split
    · rfl
    · next reading =>
        by_cases same : ref.streamId = streamId
        · -- nobody else has a connection under the id, so the thread does not exist
          have missing : egress.conn ref = none := by
            simp [conn, same, reserved.others _ fun own => mine ⟨own, same⟩]
          simp [missing] at reading
        · rw [view_removeStream, if_neg (Ne.symm same), view_modifyConn]
          exact if_neg fun here => same here.2.symm

theorem Reserved.readEnd (reserved : egress.Reserved opener streamId) (ref : ConnRef κ) :
    (egress.readEnd ref).1.Reserved opener streamId := by
  unfold TcpEgress.readEnd
  split
  · exact reserved
  · exact (reserved.modifyConn _ _).removeStream _

theorem foldl_modifyConn_conns (refs : List (ConnRef κ)) (change : EgressConn → EgressConn)
    (egress : TcpEgress κ) :
    (refs.foldl (fun egress ref => egress.modifyConn ref change) egress).conns opener streamId =
      (refs.filter fun ref => ref.opener = opener ∧ ref.streamId = streamId).foldl
        (fun conns ref => conns.modify ref.serial change) (egress.conns opener streamId) := by
  induction refs generalizing egress with
  | nil => rfl
  | cons ref refs ih =>
    rw [foldl_cons, ih, modifyConn_conns, filter_cons]
    by_cases here : ref.opener = opener ∧ ref.streamId = streamId
    · rw [if_pos ⟨here.1.symm, here.2.symm⟩, if_pos (decide_eq_true here), foldl_cons]
    · rw [if_neg (fun equal => here ⟨equal.1.symm, equal.2.symm⟩), if_neg (by simpa using here)]

theorem Reserved.filter_streams (reserved : egress.Reserved opener streamId) :
    (egress.streams.filter fun ref => ref.opener = opener ∧ ref.streamId = streamId) =
      (egress.lookup streamId).toList := by
  cases found : egress.lookup streamId with
  | none =>
    have absent := List.find?_eq_none.mp found
    refine filter_eq_nil_iff.mpr fun ref stored => ?_
    have different := absent ref stored
    simp only [decide_eq_true_eq] at different ⊢
    exact fun here => different here.2
  | some ref =>
    rcases List.find?_eq_some_iff_append.mp found with ⟨-, before, after, split, earlier⟩
    have unique := reserved.nodup
    rw [split, map_append, map_cons, nodup_append] at unique
    have later : ∀ other ∈ after, other.streamId ≠ streamId := by
      intro other stored same
      refine (nodup_cons.mp unique.2.1).1 (mem_map.mpr ⟨other, stored, ?_⟩)
      rw [same, streamId_of_lookup found]
    have named := reserved.lookup found
    rw [split, filter_append, filter_cons_of_pos (by simp [← named.1, ← named.2]),
      filter_eq_nil_iff.mpr, filter_eq_nil_iff.mpr]
    · rfl
    · intro other stored
      have different := later other stored
      simp [different]
    · intro other stored
      have different := earlier other stored
      simp only [Bool.not_eq_true', decide_eq_false_iff_not] at different
      simp [different]

theorem view_stop (reserved : egress.Reserved opener streamId) :
    egress.stop.view opener streamId = (egress.view opener streamId).stop := by
  unfold stop StreamView.stop
  by_cases stopped : egress.stopping = true
  · rw [if_pos stopped, if_pos (show (egress.view opener streamId).stopping = true from stopped)]
  · rw [if_neg stopped,
      if_neg (show ¬ (egress.view opener streamId).stopping = true from stopped)]
    simp only [view, TcpEgress.lookup, List.find?_nil, foldl_modifyConn_conns,
      reserved.filter_streams, StreamView.closeStream]
    cases found : egress.lookup streamId with
    | none =>
      simp only [TcpEgress.lookup] at found
      simp [found]
    | some ref =>
      simp only [TcpEgress.lookup] at found
      simp [found, StreamView.modify]

theorem Reserved.stop (reserved : egress.Reserved opener streamId) :
    egress.stop.Reserved opener streamId := by
  unfold TcpEgress.stop
  split
  · exact reserved
  · refine ⟨nodup_nil, nofun, ?_⟩
    intro other stranger
    simp only [foldl_modifyConn_conns, reserved.others other stranger]
    induction (egress.streams.filter _) with
    | nil => rfl
    | cons ref refs ih => simpa using ih

/-- What a frame does to the egress, whatever else it does at the node. -/
def receive (config : TcpEgressConfig) (egress : TcpEgress κ) (sender : κ) (frame : TunnelFrame)
    (answers : RuntimeAnswers) : TcpEgress κ :=
  if frame.streamId = 0 then egress
  else
    match frame.type with
    | .open => (egress.openStream config sender frame.streamId answers.connects).1
    | .data => (egress.sendToStream frame.streamId frame.payload answers.write).1
    | .close => egress.closeStream frame.streamId
    | .finish => egress.shutdownStreamWrite frame.streamId
    | .control | .replicate | .kafkaBroadcast => egress

theorem receive_of_not_ofStream (config : TcpEgressConfig) (sender : κ) (answers : RuntimeAnswers)
    (other : frame.type.ofStream = false) :
    egress.receive config sender frame answers = egress := by
  unfold receive
  split
  · rfl
  · cases type : frame.type <;> rw [type] at other <;> first | rfl | cases other

theorem view_receive (reserved : egress.Reserved opener streamId) (config : TcpEgressConfig)
    (answers : RuntimeAnswers)
    (allowed : streamId = frame.streamId → frame.type = .open →
      sender = opener ∧ egress.streams.length < config.maxStreams) :
    (egress.receive config sender frame answers).view opener streamId =
      if streamId = frame.streamId then (egress.view opener streamId).receive config frame answers
      else egress.view opener streamId := by
  unfold receive StreamView.receive
  split
  · rw [ite_self]
  · cases type : frame.type with
    | «open» => exact view_openStream config _ fun same => allowed same type
    | data => exact view_sendToStream reserved _ _ _
    | close => exact view_closeStream reserved _
    | finish => exact view_shutdownStreamWrite reserved _
    | control | replicate | kafkaBroadcast => exact (ite_self _).symm

theorem Reserved.receive (reserved : egress.Reserved opener streamId) (config : TcpEgressConfig)
    (answers : RuntimeAnswers)
    (allowed : streamId = frame.streamId → frame.type = .open → sender = opener) :
    (egress.receive config sender frame answers).Reserved opener streamId := by
  unfold TcpEgress.receive
  split
  · exact reserved
  · cases type : frame.type with
    | «open» => exact reserved.openStream config _ fun same => allowed same type
    | data => exact reserved.sendToStream _ _ _
    | close => exact reserved.closeStream _
    | finish => exact reserved.shutdownStreamWrite _
    | control | replicate | kafkaBroadcast => exact reserved

end View

end TcpEgress

section Inbound

variable {config : KcpTunnelConfig} {answers : TunnelAnswers} {tunnel : KcpTunnel}
  {key : KcpSessionKey} {packet : Bytes} {frame : TunnelFrame}

theorem KcpTunnel.handleKcpMessage_of_ofStream (decoded : decodeTunnelFrame packet = some frame)
    (stream : frame.type.ofStream = true) :
    tunnel.handleKcpMessage config answers key packet =
      (tunnel, .frame { frame with broadcast := {} }) := by
  unfold handleKcpMessage
  rw [decoded]
  cases type : frame.type with
  | «open» | data | close | finish =>
    simp [prepareInboundBroadcast, isRelayedType, type]
  | control | replicate | kafkaBroadcast =>
    rw [type] at stream
    cases stream

theorem KcpTunnel.handleKcpMessage_type {unwrapped : TunnelFrame}
    (decoded : decodeTunnelFrame packet = some frame)
    (inbound : (tunnel.handleKcpMessage config answers key packet).2 = .frame unwrapped) :
    unwrapped.type = frame.type := by
  simp only [handleKcpMessage, decoded] at inbound
  split at inbound
  · cases inbound
  · split at inbound
    · cases inbound
    · cases inbound
      rfl

end Inbound

namespace ProxyRuntime

section Egress

variable (config : RuntimeConfig) (runtime : ProxyRuntime)

@[simp] theorem kcpSender_egress (cause : FrameCause) (answers : TunnelAnswers)
    (type : TunnelFrameType) (streamId : ℕ) (payload : Bytes) :
    (runtime.kcpSender config cause answers type streamId payload).egress = runtime.egress := by
  simp only [kcpSender]
  split <;> rfl

@[simp] theorem businessTcpEvent_egress (cause : FrameCause) (type : TcpEventType) (streamId : ℕ)
    (payload : Bytes) (answers : TunnelAnswers) :
    (runtime.businessTcpEvent config cause type streamId payload answers).egress =
      runtime.egress := by
  unfold businessTcpEvent
  split
  · rfl
  · cases type with
    | connected | closed => exact kcpSender_egress ..
    | data =>
      rw [kcpSender_egress]
      split <;> rfl

theorem onIngressEvent_egress (type : TcpEventType) (streamId : ℕ) (payload : Bytes)
    (answers : TunnelAnswers) :
    (runtime.onIngressEvent config type streamId payload answers).egress = runtime.egress := by
  cases type <;> simp only [onIngressEvent]
  · split <;> simp
  · split <;> simp
  · simp

theorem businessKcpFrame_egress (opener : KcpSessionKey) (frame : TunnelFrame)
    (answers : RuntimeAnswers) :
    (runtime.businessKcpFrame config opener frame answers).egress =
      runtime.egress.receive config.egress opener frame answers := by
  simp only [businessKcpFrame, TcpEgress.receive]
  split
  · rfl
  · cases frame.type with
    | «open» =>
      simp only
      split <;> simp
    | data =>
      simp only
      split
      · next empty => simp [TcpEgress.sendToStream, empty]
      · split <;> simp
    | close | finish | control | replicate | kafkaBroadcast => rfl

/-- The limit on bytes per second lets the frame through. -/
def Admits (frame : TunnelFrame) : Prop :=
  (runtime.admission.tryAcceptIngressBytes config.double config.admission runtime.steadyMs
    frame.payload.length).2 = true

instance (frame : TunnelFrame) : Decidable (runtime.Admits config frame) := by
  unfold Admits
  infer_instance

theorem onFrame_egress (opener : KcpSessionKey) (frame : TunnelFrame) (answers : RuntimeAnswers) :
    (runtime.onFrame config opener frame answers).egress =
      if frame.type.ofStream = true ∧ runtime.Admits config frame then
        runtime.egress.receive config.egress opener frame answers
      else runtime.egress := by
  simp only [onFrame, Admits]
  cases frame.type.ofStream.eq_false_or_eq_true with
  | inl stream =>
    have notBroadcast : frame.type ≠ .kafkaBroadcast := by
      intro type
      rw [type] at stream
      cases stream
    simp only [stream, notBroadcast, true_and, if_false, Bool.not_eq_true']
    split
    · next refused => rw [if_neg (by simp [refused])]
    · next accepted => rw [if_pos (by simpa using accepted), businessKcpFrame_egress]
  | inr other =>
    simp only [other, Bool.false_eq_true, false_and, if_false]
    split
    · rfl
    · split
      · split <;> rfl
      · rw [businessKcpFrame_egress, receive_of_not_ofStream _ _ _ other]

theorem onPacket_egress (key : KcpSessionKey) (bytes : Bytes) (answers : RuntimeAnswers) :
    (runtime.onPacket config key bytes answers).egress =
      match decodeTunnelFrame bytes with
      | none => runtime.egress
      | some frame =>
        if frame.type.ofStream = true ∧ runtime.Admits config frame then
          runtime.egress.receive config.egress key frame answers
        else runtime.egress := by
  cases decoded : decodeTunnelFrame bytes with
  | none => simp only [onPacket, KcpTunnel.handleKcpMessage, decoded]
  | some frame =>
    cases frame.type.ofStream.eq_false_or_eq_true with
    | inl stream =>
      simp only [onPacket, KcpTunnel.handleKcpMessage_of_ofStream decoded stream]
      exact onFrame_egress config runtime key { frame with broadcast := {} } answers
    | inr other =>
      simp only [onPacket, other, Bool.false_eq_true, false_and, if_false]
      split
      · rfl
      · rfl
      · next unwrapped inbound =>
          rw [onFrame_egress, KcpTunnel.handleKcpMessage_type decoded inbound, other]
          simp

end Egress

section Isolation

variable (config : RuntimeConfig) (key : KcpSessionKey) (streamId : ℕ)

/-- The events of a peer: its packets, the connections opened for it, and the stop of the node. -/
def ofPeer : RuntimeEvent → Bool
  | .packet sender _ _ => sender = key
  | .egressData ref _ _ | .egressEnd ref _ => ref.opener = key
  | .stopEgress => true
  | .clock .. | .routes .. | .rehash .. | .addLink .. | .ingress .. => false

def viewStep (view : StreamView) : RuntimeEvent → StreamView
  | .packet _ bytes answers =>
    match decodeTunnelFrame bytes with
    | none => view
    | some frame =>
      if streamId = frame.streamId then view.receive config.egress frame answers else view
  | .egressEnd ref _ => if ref.streamId = streamId then view.readEnd ref.serial else view
  | .stopEgress => view.stop
  | .egressData .. | .clock .. | .routes .. | .rehash .. | .addLink .. | .ingress .. => view

def frameOf : RuntimeEvent → Option (KcpSessionKey × TunnelFrame)
  | .packet sender bytes _ => (decodeTunnelFrame bytes).map fun frame => (sender, frame)
  | _ => none

/-- Only the peer sends frames for the stream, they are admitted, and when it opens the stream the
table is not full. -/
def Undisturbed (runtime : ProxyRuntime) (event : RuntimeEvent) : Prop :=
  ∀ received ∈ frameOf event, streamId = received.2.streamId → received.2.type.ofStream = true →
    received.1 = key ∧ runtime.Admits config received.2 ∧
      (received.2.type = .open → runtime.egress.streams.length < config.egress.maxStreams)

instance (runtime : ProxyRuntime) (event : RuntimeEvent) :
    Decidable (Undisturbed config key streamId runtime event) := by
  unfold Undisturbed
  infer_instance

variable {config key streamId}

theorem view_onPacket {runtime : ProxyRuntime} {sender : KcpSessionKey} {bytes : Bytes}
    {answers : RuntimeAnswers}
    (undisturbed : Undisturbed config key streamId runtime (.packet sender bytes answers))
    (reserved : runtime.egress.Reserved key streamId) :
    (runtime.onPacket config sender bytes answers).egress.view key streamId =
        (if sender = key then
          viewStep config streamId (runtime.egress.view key streamId) (.packet sender bytes answers)
        else runtime.egress.view key streamId) ∧
      (runtime.onPacket config sender bytes answers).egress.Reserved key streamId := by
  rw [onPacket_egress]
  cases decoded : decodeTunnelFrame bytes with
  | none =>
    simp only [viewStep, decoded, ite_self, true_and]
    exact reserved
  | some frame =>
    have own := undisturbed (sender, frame) (by simp [frameOf, decoded])
    simp only [viewStep, decoded]
    split
    · next acts =>
        have allowed : streamId = frame.streamId → frame.type = .open →
            sender = key ∧ runtime.egress.streams.length < config.egress.maxStreams :=
          fun same isOpen => ⟨(own same acts.1).1, (own same acts.1).2.2 isOpen⟩
        refine ⟨?_, reserved.receive _ _ fun same isOpen => (allowed same isOpen).1⟩
        rw [view_receive reserved _ _ allowed]
        by_cases same : streamId = frame.streamId
        · rw [if_pos same, if_pos (own same acts.1).1]
        · rw [if_neg same, ite_self]
    · next idle =>
        refine ⟨?_, reserved⟩
        by_cases same : streamId = frame.streamId
        · have other : frame.type.ofStream = false := by
            by_contra stream
            have stream := Bool.eq_true_of_not_eq_false stream
            exact idle ⟨stream, (own same stream).2.1⟩
          rw [if_pos same, StreamView.receive_of_not_ofStream _ _ _ other, ite_self]
        · rw [if_neg same, ite_self]

theorem changes_step {runtime : ProxyRuntime} {event : RuntimeEvent}
    (undisturbed : Undisturbed config key streamId runtime event)
    (reserved : runtime.egress.Reserved key streamId) :
    (runtime.step config event).egress.view key streamId =
        (if ofPeer key event = true then
          viewStep config streamId (runtime.egress.view key streamId) event
        else runtime.egress.view key streamId) ∧
      (runtime.step config event).egress.Reserved key streamId := by
  cases event with
  | packet sender bytes answers =>
    simpa only [step, ofPeer, decide_eq_true_eq] using view_onPacket undisturbed reserved
  | egressEnd ref answers =>
    have ended : (runtime.step config (.egressEnd ref answers)).egress =
        (runtime.egress.readEnd ref).1 := by
      simp only [step, onEgressEnd]
      split <;> simp
    rw [ended, view_readEnd reserved]
    refine ⟨?_, reserved.readEnd ref⟩
    simp only [ofPeer, viewStep, decide_eq_true_eq]
    split <;> simp_all
  | stopEgress => exact ⟨view_stop reserved, reserved.stop⟩
  | egressData ref payload answers =>
    have same : (runtime.step config (.egressData ref payload answers)).egress =
        runtime.egress := by
      simp only [step, onEgressData]
      split <;> simp
    rw [same]
    exact ⟨(ite_self _).symm, reserved⟩
  | ingress type other payload answers =>
    have same := onIngressEvent_egress config runtime type other payload answers.kcp
    exact ⟨congrArg (view · key streamId) same, same ▸ reserved⟩
  | rehash order =>
    simp only [step]
    split <;> exact ⟨rfl, reserved⟩
  | addLink peer conv =>
    simp only [step, addLink]
    split <;> exact ⟨rfl, reserved⟩
  | clock | routes => exact ⟨rfl, reserved⟩

theorem view_replay {start finish : ProxyRuntime} {events : List RuntimeEvent}
    (fresh : start.egress = {}) (run : Run (fun runtime event => some (runtime.step config event))
      (Undisturbed config key streamId) start events finish) :
    finish.egress.view key streamId =
      (events.filter (ofPeer key)).foldl (viewStep config streamId) {} := by
  have initially : start.egress.Reserved key streamId := by
    rw [fresh]
    exact ⟨nodup_nil, nofun, fun _ _ => rfl⟩
  have empty : start.egress.view key streamId = {} := by
    rw [fresh]
    rfl
  rw [← empty]
  refine run.replay (fun runtime : ProxyRuntime => runtime.egress.view key streamId)
    (fun runtime : ProxyRuntime => runtime.egress.Reserved key streamId) initially ?_ ?_
  · intro before after event undisturbed taken reserved
    cases taken
    exact (changes_step undisturbed reserved).2
  · intro before after event undisturbed taken reserved
    cases taken
    exact (changes_step undisturbed reserved).1

end Isolation

end ProxyRuntime

open ProxyRuntime in
/-- What is done to the connections of a peer's stream is a function of the events of the peer, in
all runs in which nobody else uses the stream id, whatever else happens at the node. -/
theorem conns_eq_of_same_frames {config : RuntimeConfig} {key : KcpSessionKey} {streamId : ℕ}
    {start₁ finish₁ start₂ finish₂ : ProxyRuntime} {events₁ events₂ : List RuntimeEvent}
    (fresh₁ : start₁.egress = {}) (fresh₂ : start₂.egress = {})
    (run₁ : Run (fun runtime event => some (runtime.step config event))
      (Undisturbed config key streamId) start₁ events₁ finish₁)
    (run₂ : Run (fun runtime event => some (runtime.step config event))
      (Undisturbed config key streamId) start₂ events₂ finish₂)
    (same : events₁.filter (ofPeer key) = events₂.filter (ofPeer key)) :
    finish₁.egress.conns key streamId = finish₂.egress.conns key streamId := by
  have replayed : finish₁.egress.view key streamId = finish₂.egress.view key streamId := by
    rw [view_replay fresh₁ run₁, view_replay fresh₂ run₂, same]
  exact congrArg StreamView.conns replayed

section Strangers

def sessionTwo : KcpSessionKey where
  addr := { addr := [10, 0, 0, 2], port := 9000 }
  conv := peerTwo.id

def ownFrames : List RuntimeEvent :=
  [ .packet sessionOne (encodeTunnelFrame .open 5 []) willing,
    .packet sessionOne (encodeTunnelFrame .data 5 [1]) willing ]

def strangeFrames (streamId : ℕ) : List RuntimeEvent :=
  [ .packet sessionTwo (encodeTunnelFrame .data streamId [9]) willing,
    .packet sessionTwo (encodeTunnelFrame .finish streamId []) willing,
    .packet sessionTwo (encodeTunnelFrame .close streamId []) willing ]

/-- The frames of the second peer for another stream do not matter. -/
theorem stranger_elsewhere :
    ∃ alone, Run (fun runtime event => some (runtime.step twoPeerConfig event))
        (ProxyRuntime.Undisturbed twoPeerConfig sessionOne 5) freshRuntime ownFrames alone ∧
      ∃ together, Run (fun runtime event => some (runtime.step twoPeerConfig event))
          (ProxyRuntime.Undisturbed twoPeerConfig sessionOne 5) freshRuntime
          (ownFrames ++ strangeFrames 7) together ∧
        alone.egress.conns sessionOne 5 = [{ actions := [.write [1]] }] ∧
        alone.egress.conns sessionOne 5 = together.egress.conns sessionOne 5 := by
  refine Run.exists_of_execute (fun alone : ProxyRuntime =>
    alone.egress.conns sessionOne 5 = [{ actions := [.write [1]] }]) (by decide +kernel) ?_
  intro alone runAlone written
  refine Run.exists_of_execute (fun _ => true) (by decide +kernel) ?_
  intro together runTogether _
  exact ⟨of_decide_eq_true written, conns_eq_of_same_frames rfl rfl runAlone runTogether rfl⟩

/-- The frames of the second peer for the same stream are written to the connection of the first
one, and half-close and close it. -/
theorem stranger_writes_and_closes :
    ∃ alone, Run (fun runtime event => some (runtime.step twoPeerConfig event))
        (fun _ _ => True) freshRuntime ownFrames alone ∧
      ∃ together, Run (fun runtime event => some (runtime.step twoPeerConfig event))
          (fun _ _ => True) freshRuntime (ownFrames ++ strangeFrames 5) together ∧
        ownFrames.filter (ProxyRuntime.ofPeer sessionOne) =
          (ownFrames ++ strangeFrames 5).filter (ProxyRuntime.ofPeer sessionOne) ∧
        alone.egress.conns sessionOne 5 = [{ actions := [.write [1]] }] ∧
        together.egress.conns sessionOne 5 =
          [{ actions := [.write [1], .write [9], .shutdownWrite, .close], isOpen := false }] := by
  refine Run.exists_of_execute (fun alone : ProxyRuntime =>
    alone.egress.conns sessionOne 5 = [{ actions := [.write [1]] }]) (by decide +kernel) ?_
  intro alone _ written
  refine Run.exists_of_execute (fun together : ProxyRuntime =>
    together.egress.conns sessionOne 5 =
      [{ actions := [.write [1], .write [9], .shutdownWrite, .close], isOpen := false }])
    (by decide +kernel) ?_
  intro together _ closed
  exact ⟨rfl, of_decide_eq_true written, of_decide_eq_true closed⟩

end Strangers

end IotProxy.Proxy
