import IotProxy.Proxy.Runtime

/-!
# Stream affinity

The frames of a stream are of use to one peer only: the one that got its `open` frame, or, for a
connection to the target, the one whose `open` frame it was opened for. The runtime chooses the next
hop anew for every frame, from scores that change with the load and the history of every peer.
-/

namespace IotProxy.Proxy

open List
open EventSystem (Run)

namespace ProxyRuntime

variable (config : RuntimeConfig) (runtime : ProxyRuntime)

def usable (entry : RouteEntry) : Bool :=
  RouteManager.usable config.double config.routes runtime.wallMs entry

def score (entry : RouteEntry) : ℚ :=
  routeScore config.double config.routes runtime.wallMs entry

/-- The node has a usable route to the peer, and every usable route to another one scores less. -/
def Unrivalled (peer : KcpConv) : Prop :=
  ∃ best ∈ runtime.routes.routes, best.node.id = peer ∧ runtime.usable config best = true ∧
    ∀ other ∈ runtime.routes.routes, runtime.usable config other = true →
      other.node.id ≠ peer → runtime.score config other < runtime.score config best

def NoRoute : Prop :=
  ∀ entry ∈ runtime.routes.routes, runtime.usable config entry = false

def staticSession : KcpSessionKey where
  addr := runtime.tunnel.peerAddr
  conv := config.tunnel.peer.id

/-- The peer has the best route, or there is no route and it is the configured one. -/
def LeadsTo (peer : KcpConv) : Prop :=
  runtime.Unrivalled config peer ∨ (runtime.NoRoute config ∧ config.tunnel.peer.id = peer)

/-- The peer with the best route is linked by the given session, or there is no route and the
session is that of the configured peer. -/
def LeadsBack (session : KcpSessionKey) : Prop :=
  (∃ entry ∈ runtime.routes.routes, runtime.Unrivalled config entry.node.id ∧
    ∀ link ∈ runtime.tunnel.findLink entry.node.id, link.session = session) ∨
  (runtime.NoRoute config ∧ runtime.staticSession config = session)

instance (peer : KcpConv) : Decidable (runtime.Unrivalled config peer) := by
  unfold Unrivalled
  infer_instance

instance : Decidable (runtime.NoRoute config) := by
  unfold NoRoute
  infer_instance

instance (peer : KcpConv) : Decidable (runtime.LeadsTo config peer) := by
  unfold LeadsTo
  infer_instance

instance (session : KcpSessionKey) : Decidable (runtime.LeadsBack config session) := by
  unfold LeadsBack
  infer_instance

/-- Whenever something happens to a local connection of the stream, the choice falls on the given
peer; whenever something happens to a connection to the target, it falls on the peer that the
connection was opened for. -/
def SteadyFor (streamId : ℕ) (peer : KcpConv) : RuntimeEvent → Prop
  | .ingress _ id _ _ => id = streamId → runtime.LeadsTo config peer
  | .egressData ref _ _ => ref.streamId = streamId → runtime.LeadsBack config ref.opener
  | .egressEnd ref _ => ref.streamId = streamId → runtime.LeadsBack config ref.opener
  | _ => True

instance (streamId : ℕ) (peer : KcpConv) (event : RuntimeEvent) :
    Decidable (runtime.SteadyFor config streamId peer event) := by
  cases event <;> unfold SteadyFor <;> infer_instance

end ProxyRuntime

/-- All frames of the stream that go back to a local connection went to one peer, and those that go
back to a connection to the target went to the session it was opened for. -/
def AffineFor (streamId : ℕ) (sent : List SentFrame) : Prop :=
  (∀ first ∈ sent, ∀ second ∈ sent, first.streamId = streamId → second.streamId = streamId →
    first.cause = .ingress → second.cause = .ingress → first.peer = second.peer) ∧
  (∀ frame ∈ sent, frame.streamId = streamId → ∀ opener, frame.cause = .egress opener →
    frame.session = opener)

namespace ProxyRuntime

variable {config : RuntimeConfig} {runtime : ProxyRuntime}

variable {peer : KcpConv} {session : KcpSessionKey}

section NextHop

theorem nextHop_of_unrivalled (unrivalled : runtime.Unrivalled config peer) :
    ∃ next, runtime.nextHop config = some next ∧ next.nextHop.id = peer := by
  rcases unrivalled with ⟨best, known, isPeer, isUsable, others⟩
  have candidate : best ∈ runtime.routes.routes.filter (runtime.usable config) :=
    mem_filter.mpr ⟨known, isUsable⟩
  cases chosen : (runtime.routes.routes.filter (runtime.usable config)).argmax
      (runtime.score config) with
  | none =>
    rw [argmax_eq_none.mp chosen] at candidate
    cases candidate
  | some entry =>
    refine ⟨_, congrArg (Option.map _) chosen, ?_⟩
    by_contra other
    have mem := mem_filter.mp (argmax_mem chosen)
    have above := le_of_mem_argmax candidate chosen
    exact absurd (others entry mem.1 mem.2 other) (not_lt.mpr above)

theorem nextHop_of_noRoute (noRoute : runtime.NoRoute config) : runtime.nextHop config = none := by
  have nothing : runtime.routes.routes.filter (runtime.usable config) = [] := by
    rw [filter_eq_nil_iff]
    intro entry known
    simp [noRoute entry known]
  exact congrArg (Option.map _) (argmax_eq_none.mpr nothing)

def hopPeer (config : RuntimeConfig) (runtime : ProxyRuntime) : KcpConv :=
  match runtime.nextHop config with
  | some next => next.nextHop.id
  | none => config.tunnel.peer.id

theorem hopPeer_congr {left right : ProxyRuntime} (routes : left.routes = right.routes)
    (time : left.wallMs = right.wallMs) : hopPeer config left = hopPeer config right := by
  simp only [hopPeer, nextHop, routes, time]

def HopSession (config : RuntimeConfig) (runtime : ProxyRuntime) (session : KcpSessionKey) :
    Prop :=
  match runtime.nextHop config with
  | some next => ∃ link ∈ runtime.tunnel.findLink next.nextHop.id, link.session = session
  | none => runtime.staticSession config = session

theorem hopPeer_of_leadsTo (leads : runtime.LeadsTo config peer) :
    hopPeer config runtime = peer := by
  unfold hopPeer
  rcases leads with unrivalled | ⟨noRoute, isPeer⟩
  · rcases nextHop_of_unrivalled unrivalled with ⟨next, chosen, isPeer⟩
    rw [chosen]
    exact isPeer
  · rw [nextHop_of_noRoute noRoute]
    exact isPeer

theorem eq_of_hopSession {opener : KcpSessionKey}
    (leads : runtime.LeadsBack config opener) (hop : HopSession config runtime session) :
    session = opener := by
  unfold HopSession at hop
  rcases leads with ⟨entry, _, unrivalled, linked⟩ | ⟨noRoute, isSession⟩
  · rcases nextHop_of_unrivalled unrivalled with ⟨next, chosen, isPeer⟩
    rw [chosen] at hop
    rcases hop with ⟨link, found, isSession⟩
    rw [isPeer] at found
    exact isSession.symm.trans (linked link found)
  · rw [nextHop_of_noRoute noRoute] at hop
    exact hop.symm.trans isSession

end NextHop

section Sent

variable {cause : FrameCause} {answers : TunnelAnswers} {type : TunnelFrameType} {streamId : ℕ}
  {payload : Bytes} {frame : SentFrame}

theorem session_of_sendFrameTo {tunnel : KcpTunnel}
    (sent : tunnel.sendFrameTo answers peer type streamId payload = some session) :
    ∃ link ∈ tunnel.findLink peer, link.session = session := by
  simp only [KcpTunnel.sendFrameTo] at sent
  split at sent
  · cases sent
  · split at sent
    · cases sent
    · next link found =>
        split at sent
        · exact ⟨link, found, Option.some.inj sent⟩
        · cases sent

theorem session_of_sendFrame
    (sent : runtime.tunnel.sendFrame config.tunnel answers type streamId payload = some session) :
    runtime.staticSession config = session := by
  simp only [KcpTunnel.sendFrame] at sent
  split at sent
  · cases sent
  · exact Option.some.inj sent

theorem sent_of_kcpSender
    (sent : frame ∈ (runtime.kcpSender config cause answers type streamId payload).sent) :
    frame ∈ runtime.sent ∨
      (frame.cause = cause ∧ frame.streamId = streamId ∧ frame.peer = hopPeer config runtime ∧
        HopSession config runtime frame.session) := by
  unfold kcpSender at sent
  unfold hopPeer HopSession
  cases hop : runtime.nextHop config with
  | some next =>
    simp only [hop] at sent ⊢
    split at sent
    · exact .inl sent
    · next session taken =>
        rcases mem_cons.mp sent with rfl | earlier
        · exact .inr ⟨rfl, rfl, rfl, session_of_sendFrameTo taken⟩
        · exact .inl earlier
  | none =>
    simp only [hop] at sent ⊢
    split at sent
    · exact .inl sent
    · next session taken =>
        rcases mem_cons.mp sent with rfl | earlier
        · exact .inr ⟨rfl, rfl, rfl, session_of_sendFrame taken⟩
        · exact .inl earlier

theorem sent_of_businessTcpEvent {tcpType : TcpEventType}
    (sent : frame ∈ (runtime.businessTcpEvent config cause tcpType streamId payload answers).sent) :
    frame ∈ runtime.sent ∨
      (frame.cause = cause ∧ frame.streamId = streamId ∧ frame.peer = hopPeer config runtime ∧
        (cause ≠ .ingress → HopSession config runtime frame.session)) := by
  have weaken {before : ProxyRuntime} {type : TunnelFrameType} {payload : Bytes}
      (sent : frame ∈ (before.kcpSender config cause answers type streamId payload).sent) :=
    (sent_of_kcpSender sent).imp_right fun facts =>
      (⟨facts.1, facts.2.1, facts.2.2.1, fun _ => facts.2.2.2⟩ :
        frame.cause = cause ∧ frame.streamId = streamId ∧ frame.peer = hopPeer config before ∧
          (cause ≠ .ingress → HopSession config before frame.session))
  simp only [businessTcpEvent] at sent
  split at sent
  · exact .inl sent
  · cases tcpType with
    | connected => exact weaken sent
    | closed => exact weaken sent
    | data =>
      simp only at sent
      split at sent
      · next isIngress =>
          -- replicating the data changes the tunnel, but not the routes
          rcases sent_of_kcpSender sent with earlier | ⟨isCause, sameStream, isPeer, _⟩
          · exact .inl earlier
          · exact .inr ⟨isCause, sameStream, isPeer.trans (hopPeer_congr rfl rfl),
              fun notIngress => absurd isIngress notIngress⟩
      · exact weaken sent

theorem sent_of_onIngressEvent {tcpType : TcpEventType}
    (sent : frame ∈ (runtime.onIngressEvent config tcpType streamId payload answers).sent) :
    frame ∈ runtime.sent ∨
      (frame.cause = .ingress ∧ frame.streamId = streamId ∧
        frame.peer = hopPeer config runtime) := by
  have business {admission : AdmissionControl}
      (sent : frame ∈ ({ runtime with admission }.businessTcpEvent config .ingress tcpType
        streamId payload answers).sent) :
      frame ∈ runtime.sent ∨ (frame.cause = .ingress ∧ frame.streamId = streamId ∧
        frame.peer = hopPeer config runtime) := by
    rcases sent_of_businessTcpEvent sent with earlier | ⟨isCause, sameStream, isPeer, _⟩
    · exact .inl earlier
    · exact .inr ⟨isCause, sameStream, isPeer.trans (hopPeer_congr rfl rfl)⟩
  unfold onIngressEvent at sent
  cases tcpType with
  | connected =>
    simp only at sent
    split at sent
    · exact business sent
    · exact .inl sent
  | closed => exact business sent
  | data =>
    simp only at sent
    split at sent
    · exact business sent
    · exact .inl sent

end Sent

theorem sent_of_businessKcpFrame {opener : KcpSessionKey} {received : TunnelFrame}
    {answers : RuntimeAnswers} {frame : SentFrame}
    (sent : frame ∈ (runtime.businessKcpFrame config opener received answers).sent) :
    frame ∈ runtime.sent ∨ frame.cause = .refusal := by
  have refused {egress : TcpEgress KcpSessionKey}
      (sent : frame ∈ ({ runtime with egress }.kcpSender config .refusal answers.kcp .close
        received.streamId []).sent) : frame ∈ runtime.sent ∨ frame.cause = .refusal := by
    rcases sent_of_kcpSender sent with earlier | ⟨isCause, _⟩
    · exact .inl earlier
    · exact .inr isCause
  simp only [businessKcpFrame] at sent
  split at sent
  · exact .inl sent
  · cases kind : received.type <;> simp only [kind] at sent
    case «open» =>
      split at sent
      · exact .inl sent
      · exact refused sent
    case data =>
      split at sent
      · exact .inl sent
      · split at sent
        · exact .inl sent
        · exact refused sent
    all_goals exact .inl sent

theorem sent_of_onPacket {key : KcpSessionKey} {bytes : Bytes} {answers : RuntimeAnswers}
    {frame : SentFrame} (sent : frame ∈ (runtime.onPacket config key bytes answers).sent) :
    frame ∈ runtime.sent ∨ frame.cause = .refusal := by
  simp only [onPacket] at sent
  split at sent
  · exact .inl sent
  · exact .inl sent
  · simp only [onFrame] at sent
    split at sent
    · exact .inl sent
    · split at sent
      · split at sent <;> exact .inl sent
      · have business := sent_of_businessKcpFrame sent
        exact business

/-- The frames of the stream that have been sent kept to the peer and to their openers. -/
def Kept (streamId : ℕ) (peer : KcpConv) (runtime : ProxyRuntime) : Prop :=
  ∀ frame ∈ runtime.sent, frame.streamId = streamId →
    (frame.cause = .ingress → frame.peer = peer) ∧
      ∀ opener, frame.cause = .egress opener → frame.session = opener

theorem kept_of_egress {streamId : ℕ} {ref : ConnRef KcpSessionKey}
    {egress : TcpEgress KcpSessionKey} {tcpType : TcpEventType} {payload : Bytes}
    {answers : TunnelAnswers}
    (leads : ref.streamId = streamId → runtime.LeadsBack config ref.opener)
    (kept : Kept streamId peer runtime) :
    Kept streamId peer ({ runtime with egress }.businessTcpEvent config (.egress ref.opener)
      tcpType ref.streamId payload answers) := by
  intro frame sent sameStream
  rcases sent_of_businessTcpEvent sent with earlier | ⟨isCause, isStream, _, hop⟩
  · exact kept frame earlier sameStream
  · rw [isCause]
    refine ⟨nofun, ?_⟩
    intro opener isOpener
    cases isOpener
    have hop : HopSession config runtime frame.session := hop (by simp)
    exact eq_of_hopSession (leads (isStream.symm.trans sameStream)) hop

theorem kept_step {streamId : ℕ} {event : RuntimeEvent}
    (steady : runtime.SteadyFor config streamId peer event) (kept : Kept streamId peer runtime) :
    Kept streamId peer (runtime.step config event) := by
  intro frame sent sameStream
  cases event with
  | clock wallMs steadyMs => exact kept frame sent sameStream
  | routes change => exact kept frame sent sameStream
  | stopEgress => exact kept frame sent sameStream
  | rehash order =>
    simp only [step] at sent
    split at sent <;> exact kept frame sent sameStream
  | addLink added conv =>
    simp only [step, addLink] at sent
    split at sent <;> exact kept frame sent sameStream
  | packet key bytes answers =>
    rcases sent_of_onPacket sent with earlier | isRefusal
    · exact kept frame earlier sameStream
    · simp [isRefusal]
  | ingress tcpType id payload answers =>
    rcases sent_of_onIngressEvent sent with earlier | ⟨isCause, isStream, isPeer⟩
    · exact kept frame earlier sameStream
    · rw [isCause]
      refine ⟨fun _ => ?_, nofun⟩
      exact isPeer.trans (hopPeer_of_leadsTo (steady (isStream.symm.trans sameStream)))
  | egressData ref payload answers =>
    simp only [step, onEgressData] at sent
    split at sent
    · exact kept_of_egress steady kept frame sent sameStream
    · exact kept frame sent sameStream
  | egressEnd ref answers =>
    simp only [step, onEgressEnd] at sent
    split at sent
    · exact kept_of_egress steady kept frame sent sameStream
    · exact kept frame sent sameStream

end ProxyRuntime

/-- In every run in which the choice is steady for a stream, its frames stay together. -/
theorem affine_of_steady {config : RuntimeConfig} {streamId : ℕ} {peer : KcpConv}
    {start finish : ProxyRuntime} {events : List RuntimeEvent} (nothingSent : start.sent = [])
    (run : Run (fun runtime event => some (runtime.step config event))
      (fun runtime event => runtime.SteadyFor config streamId peer event) start events finish) :
    AffineFor streamId finish.sent := by
  have initially : ProxyRuntime.Kept streamId peer start := by
    intro frame sent
    rw [nothingSent] at sent
    cases sent
  have kept : ProxyRuntime.Kept streamId peer finish := by
    refine run.invariant initially ?_
    intro before after event steady taken earlier
    cases taken
    exact ProxyRuntime.kept_step steady earlier
  constructor
  · intro first firstSent second secondSent firstStream secondStream firstIngress secondIngress
    rw [(kept first firstSent firstStream).1 firstIngress,
      (kept second secondSent secondStream).1 secondIngress]
  · intro frame sent sameStream opener isEgress
    exact (kept frame sent sameStream).2 opener isEgress

section TwoPeers

def twoPeerConfig : RuntimeConfig where
  double := .exact
  tunnel :=
    { identity := KcpConv.ofUint32 9
      peer := { endpoint := { host := [], port := 0 }, id := KcpConv.zero } }
  egress := { target := { host := "127.0.0.1".toList, port := 80 } }

def peerOne : NodeAddress where
  endpoint := { host := "10.0.0.1".toList, port := 9000 }
  id := KcpConv.ofUint32 1

def peerTwo : NodeAddress where
  endpoint := { host := "10.0.0.2".toList, port := 9000 }
  id := KcpConv.ofUint32 2

def sessionOne : KcpSessionKey where
  addr := { addr := [10, 0, 0, 1], port := 9000 }
  conv := peerOne.id

def freshRuntime : ProxyRuntime where
  tunnel := { running := true }
  admission := .new .exact {} 0

def willing : RuntimeAnswers where
  kcp :=
    { nowMs := 0, random := some (KcpConv.ofUint32 5), accepts := fun _ => true
      firstEntry := fun _ => 0 }

/-- Links and routes to both peers; the second one reports that half of its streams are taken. -/
def meetPeers : List RuntimeEvent :=
  [ .clock 1000000 0,
    .addLink peerOne peerOne.id,
    .addLink peerTwo peerTwo.id,
    .routes (.add peerOne none true 0 none),
    .routes (.add peerTwo none true 0
      (some { present := true, maxIngressStreams := 2, currentIngressStreams := 1 })) ]

/-- The first peer announces that it takes no more streams. -/
def peerOneFull : RuntimeEvent :=
  .routes (.add peerOne none true 0 (some { present := true, acceptingIngress := false }))

/-- A local connection is accepted and sends data, and one is opened to the target for the first
peer; as long as that peer has the best route, everything goes there. -/
theorem frames_stay_together :
    ∃ finish, Run (fun runtime event => some (runtime.step twoPeerConfig event))
        (fun runtime event => runtime.SteadyFor twoPeerConfig 5 peerOne.id event) freshRuntime
        (meetPeers ++
          [ .ingress .connected 5 [] willing,
            .ingress .data 5 [1] willing,
            .packet sessionOne (encodeTunnelFrame .open 5 []) willing,
            .egressData ⟨sessionOne, 5, 0⟩ [2] willing ]) finish ∧
      finish.sent.length = 3 ∧ AffineFor 5 finish.sent := by
  refine Run.exists_of_execute (fun finish : ProxyRuntime => finish.sent.length == 3)
    (by decide +kernel) ?_
  intro finish run sent
  exact ⟨beq_iff_eq.mp sent, affine_of_steady rfl run⟩

/-- When the first peer runs full between the events, the data of stream 5 goes to the second peer
although the first one was asked to open it, and so does the data of stream 7, which the first
peer had opened. -/
theorem frames_part_ways :
    ∃ finish, Run (fun runtime event => some (runtime.step twoPeerConfig event))
        (fun _ _ => True) freshRuntime
        (meetPeers ++
          [ .ingress .connected 5 [] willing,
            .packet sessionOne (encodeTunnelFrame .open 7 []) willing,
            peerOneFull,
            .ingress .data 5 [1] willing,
            .egressData ⟨sessionOne, 7, 0⟩ [2] willing ]) finish ∧
      ¬ AffineFor 5 finish.sent ∧ ¬ AffineFor 7 finish.sent := by
  refine Run.exists_of_execute (fun finish : ProxyRuntime =>
    (finish.sent.any fun first => finish.sent.any fun second =>
      first.streamId = 5 ∧ second.streamId = 5 ∧ first.cause = .ingress ∧
        second.cause = .ingress ∧ first.peer ≠ second.peer) &&
    (finish.sent.any fun frame =>
      frame.streamId = 7 ∧ frame.cause = .egress sessionOne ∧ frame.session ≠ sessionOne))
    (by decide +kernel) ?_
  intro finish _ facts
  simp only [Bool.and_eq_true, any_eq_true, decide_eq_true_eq] at facts
  rcases facts with ⟨⟨first, firstSent, second, secondSent, firstStream, secondStream,
    firstIngress, secondIngress, parted⟩, frame, sent, sameStream, isEgress, astray⟩
  constructor
  · intro affine
    exact parted (affine.1 first firstSent second secondSent firstStream secondStream firstIngress
      secondIngress)
  · intro affine
    exact astray (affine.2 frame sent sameStream sessionOne isEgress)

end TwoPeers

end IotProxy.Proxy
