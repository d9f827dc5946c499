import IotProxy.Lib.Interleaving
import IotProxy.Proxy.DiscoveryService
import IotProxy.Proxy.RouteTable

/-!
# The discovery service with threads

Every accepted connection has a thread of its own, two threads dial other nodes, and control
messages are handled by the threads of the tunnel. What they share is the route table and whatever
the callbacks of the service use. Each operation on the table holds its mutex, and so does each
access of a callback; between two of them other threads go on.

So an action of a call is one locked section, and the actions of different calls interleave.
Reading, parsing and checking a message is done together with the action before or after it.

The callback for links is given by its own locked sections (`LinkCallbacks`).
-/

namespace IotProxy.Proxy

open Json (AccessError)
open Interleaving
open EventSystem (Run)

structure LinkCallbacks (Links Stage : Type) where
  /-- Where a call of `kcp_link_callback_` begins, if the callback is set. -/
  kcpLink : Option (NodeAddress → KcpConv → Stage)
  /-- One locked section of the callback; it goes on or returns. -/
  linkStep : Links → Stage → Links × (Stage ⊕ Bool)
  kcpAdmission : Option (Links → NodeAddress → Bool)

structure DiscoverySetup (Links Stage : Type) extends calls : DiscoveryCalls where
  config : DiscoveryConfig
  callbacks : LinkCallbacks Links Stage

/-- What led to the call of the link callback: a node has introduced itself, or a dialled node has
answered. -/
inductive LinkCause where
  | hello
  | reply (node : NodeAddress) (capability : Option NodeCapability)
  deriving DecidableEq

namespace LinkCause

def source : LinkCause → Option NodeAddress
  | .hello => none
  | .reply node _ => some node

def capability : LinkCause → Option NodeCapability
  | .hello => none
  | .reply _ capability => capability

end LinkCause

inductive DiscoveryAction (Stage : Type) where
  | addRoute (node : NodeAddress) (source : Option NodeAddress) (kcpConnected : Bool)
      (advertisedHopCount : ℕ) (capability : Option NodeCapability)
  | markAttempt (id : KcpConv)
  | markSuccess (id : KcpConv) (kcpConnected : Bool)
  | markFailure (id : KcpConv)
  | connect (node : NodeAddress)
  | readLine (node : NodeAddress)
  | propose (source : Option NodeAddress) (item : Json)
  | checkKcpLinks (peer : NodeAddress)
  | askAdmission (peer : NodeAddress)
  | callLink (peer : NodeAddress) (conv : KcpConv) (cause : LinkCause)
  | linkStage (stage : Stage) (peer : NodeAddress) (cause : LinkCause)

structure LinkCall where
  peer : NodeAddress
  conv : KcpConv
  cause : LinkCause
  deriving DecidableEq

/-- What the threads of the service share, and the link callbacks that were made. -/
structure DiscoveryShared (Links : Type) where
  routes : RouteManager := {}
  links : Links
  linkCalls : List LinkCall := []

structure ActionAnswers where
  nowMs : ℤ
  connected : Bool := true
  line : Option Bytes := none

section Messages

variable {Links Stage : Type} (setup : DiscoverySetup Links Stage)

/-- What is done for a node that has introduced itself. -/
def sessionActions (peer : NodeAddress) (capability : Option NodeCapability) :
    List (DiscoveryAction Stage) :=
  [.addRoute peer none false 0 capability, .checkKcpLinks peer]

/-- What a line leads to in which a node introduces itself. -/
def helloActions (nowMs : ℤ) (remoteHost : Text) (line : Bytes) :
    Except AccessError (List (DiscoveryAction Stage)) := do
  match ← verifiedHello setup.config setup.calls nowMs line with
  | none => pure []
  | some (peer, capability) => pure (sessionActions (reachedAt remoteHost peer) capability)

/-- What a line leads to that a dialled node answers. -/
def responseActions (node : NodeAddress) (line : Bytes) :
    Except AccessError (List (DiscoveryAction Stage)) :=
  match setup.parse line with
  | none => pure []
  | some message => do
      let type ← message.value "type" Json.getString []
      if type = "routes".toList then
        match message.member "entries" with
        | some (.array entries) => pure (entries.map (.propose (some node)))
        | _ => pure []
      else if type = "node".toList then
        pure ((message.member "node").toList.map (.propose (some node)))
      else if type = "kcp_conv".toList then do
        match ← kcpConvOf setup.calls node message with
        | none => pure []
        | some (peer, conv, capability) => pure [.callLink peer conv (.reply node capability)]
      else pure []

/-- What a control message leads to. -/
def controlActions (payload : Bytes) : Except AccessError (List (DiscoveryAction Stage)) :=
  match setup.parse payload with
  | none => pure []
  | some message => do
      let type ← message.value "type" Json.getString []
      if type = "node".toList then
        pure ((message.member "node").toList.map (.propose none))
      else pure []

section Facts

open Except

variable {setup}

theorem ensures_responseActions (node : NodeAddress) (line : Bytes) :
    (responseActions setup node line).Ensures fun actions => ∀ action ∈ actions,
      (∃ item, action = .propose (some node) item) ∨
        ∃ peer conv capability, action = .callLink peer conv (.reply node capability) := by
  have nothing : (pure [] : Except AccessError (List (DiscoveryAction Stage))).Ensures
      fun actions => ∀ action ∈ actions, (∃ item, action = .propose (some node) item) ∨
        ∃ peer conv capability, action = .callLink peer conv (.reply node capability) :=
    ensures_pure (by simp)
  rw [responseActions]
  cases setup.parse line with
  | none => exact nothing
  | some message =>
    dsimp only
    apply ensures_bind
    intro type
    by_cases isRoutes : type = "routes".toList
    · rw [if_pos isRoutes]
      cases message.member "entries" with
      | none => exact nothing
      | some item =>
        cases item with
        | array entries =>
          apply ensures_pure
          intro action mem
          obtain ⟨item, -, rfl⟩ := List.mem_map.mp mem
          exact .inl ⟨item, rfl⟩
        | _ => exact nothing
    rw [if_neg isRoutes]
    by_cases isNode : type = "node".toList
    · rw [if_pos isNode]
      apply ensures_pure
      intro action mem
      obtain ⟨item, -, rfl⟩ := List.mem_map.mp mem
      exact .inl ⟨item, rfl⟩
    rw [if_neg isNode]
    by_cases isConv : type = "kcp_conv".toList
    · rw [if_pos isConv]
      apply ensures_bind
      intro found
      cases found with
      | none => exact nothing
      | some link =>
        apply ensures_pure
        intro action mem
        rw [List.mem_singleton] at mem
        exact .inr ⟨link.1, link.2.1, link.2.2, mem⟩
    · rw [if_neg isConv]
      exact nothing

theorem ensures_controlActions (payload : Bytes) :
    (controlActions setup payload).Ensures fun actions =>
      ∀ action ∈ actions, ∃ item, action = .propose none item := by
  rw [controlActions]
  cases setup.parse payload with
  | none => exact ensures_pure (by simp)
  | some message =>
    dsimp only
    apply ensures_bind
    intro type
    by_cases isNode : type = "node".toList
    · rw [if_pos isNode]
      apply ensures_pure
      intro action mem
      obtain ⟨item, -, rfl⟩ := List.mem_map.mp mem
      exact ⟨item, rfl⟩
    · rw [if_neg isNode]
      exact ensures_pure (by simp)

end Facts

end Messages

section Acting

variable {Links Stage : Type} (setup : DiscoverySetup Links Stage)

def afterLink (linked : Bool) (peer : NodeAddress) (cause : LinkCause) :
    List (DiscoveryAction Stage) :=
  if linked then
    [.addRoute peer cause.source true 0 cause.capability, .markSuccess peer.id true]
  else [.markFailure peer.id]

/-- What a node does to dial another one. -/
def dialActions (node : NodeAddress) : List (DiscoveryAction Stage) :=
  [.addRoute node none false 0 none, .markAttempt node.id, .connect node]

/-- Take an action: what it does to the shared state, and the actions that it leads to. -/
def DiscoveryShared.act (shared : DiscoveryShared Links) (answers : ActionAnswers) :
    DiscoveryAction Stage → Option (DiscoveryShared Links × List (DiscoveryAction Stage))
  | .addRoute node source kcpConnected advertisedHopCount capability =>
    some ({ shared with
      routes := (setup.config.addRoute setup.calls answers.nowMs shared.routes node source
        kcpConnected advertisedHopCount capability).1 }, [])
  | .markAttempt id =>
    some ({ shared with routes := shared.routes.markAttempt answers.nowMs id }, [])
  | .markSuccess id kcpConnected =>
    some ({ shared with routes := shared.routes.markSuccess answers.nowMs id kcpConnected }, [])
  | .markFailure id =>
    some ({ shared with
      routes := shared.routes.markFailure (routeManagerConfig setup.config) answers.nowMs id },
      [])
  | .connect node =>
    some (shared,
      if answers.connected then [.markSuccess node.id false, .readLine node]
      else [.markFailure node.id])
  | .readLine node =>
    match answers.line with
    | none => some (shared, [])
    | some line =>
      match responseActions setup node line with
      | .error _ => none
      | .ok actions => some (shared, actions ++ [.readLine node])
  | .propose source item =>
    match readRoute setup.truncate item with
    | .error _ => none
    | .ok none => some (shared, [])
    | .ok (some (route, hopCount, capability)) =>
      some ({ shared with
        routes := (setup.config.addRoute setup.calls answers.nowMs shared.routes route source
          false hopCount capability).1 }, [])
  | .checkKcpLinks peer =>
    some (shared,
      if shared.routes.canAddKcpLink (routeManagerConfig setup.config) then [.askAdmission peer]
      else [])
  | .askAdmission peer =>
    some (shared,
      if setup.callbacks.kcpAdmission.any fun admits => !admits shared.links peer then []
      else [.callLink peer (deriveKcpConvid peer.endpoint setup.config.localEndpoint) .hello])
  | .callLink peer conv cause =>
    match setup.callbacks.kcpLink with
    | none => some (shared, afterLink (cause = .hello) peer cause)
    | some enter =>
      some ({ shared with linkCalls := shared.linkCalls ++ [⟨peer, conv, cause⟩] },
        [.linkStage (enter peer conv) peer cause])
  | .linkStage stage peer cause =>
    match setup.callbacks.linkStep shared.links stage with
    | (links, .inl stage) => some ({ shared with links }, [.linkStage stage peer cause])
    | (links, .inr linked) => some ({ shared with links }, afterLink linked peer cause)

/-- What a locked section may do, for any answers of its callbacks. -/
inductive Acts (shared : DiscoveryShared Links) (answers : ActionAnswers) :
    DiscoveryAction Stage → DiscoveryShared Links → List (DiscoveryAction Stage) → Prop where
  | addRoute {node : NodeAddress} {source : Option NodeAddress} {kcpConnected : Bool}
      {advertisedHopCount : ℕ} {capability : Option NodeCapability} :
      Acts shared answers (.addRoute node source kcpConnected advertisedHopCount capability)
        { shared with
          routes := (setup.config.addRoute setup.calls answers.nowMs shared.routes node source
            kcpConnected advertisedHopCount capability).1 } []
  | markAttempt {id : KcpConv} :
      Acts shared answers (.markAttempt id)
        { shared with routes := shared.routes.markAttempt answers.nowMs id } []
  | markSuccess {id : KcpConv} {kcpConnected : Bool} :
      Acts shared answers (.markSuccess id kcpConnected)
        { shared with routes := shared.routes.markSuccess answers.nowMs id kcpConnected } []
  | markFailure {id : KcpConv} :
      Acts shared answers (.markFailure id)
        { shared with
          routes := shared.routes.markFailure (routeManagerConfig setup.config) answers.nowMs id }
        []
  | reached {node : NodeAddress} :
      Acts shared answers (.connect node) shared [.markSuccess node.id false, .readLine node]
  | unreached {node : NodeAddress} :
      Acts shared answers (.connect node) shared [.markFailure node.id]
  | ended {node : NodeAddress} : Acts shared answers (.readLine node) shared []
  | answered {node : NodeAddress} {line : Bytes} {actions : List (DiscoveryAction Stage)}
      (arrived : answers.line = some line) (read : responseActions setup node line = .ok actions) :
      Acts shared answers (.readLine node) shared (actions ++ [.readLine node])
  | unusable {source : Option NodeAddress} {item : Json} :
      Acts shared answers (.propose source item) shared []
  | proposed {source : Option NodeAddress} {item : Json} {route : NodeAddress} {hopCount : ℕ}
      {capability : Option NodeCapability}
      (read : readRoute setup.truncate item = .ok (some (route, hopCount, capability))) :
      Acts shared answers (.propose source item)
        { shared with
          routes := (setup.config.addRoute setup.calls answers.nowMs shared.routes route source
            false hopCount capability).1 } []
  | full {peer : NodeAddress} : Acts shared answers (.checkKcpLinks peer) shared []
  | room {peer : NodeAddress} :
      Acts shared answers (.checkKcpLinks peer) shared [.askAdmission peer]
  | refused {peer : NodeAddress} : Acts shared answers (.askAdmission peer) shared []
  | admitted {peer : NodeAddress} :
      Acts shared answers (.askAdmission peer) shared
        [.callLink peer (deriveKcpConvid peer.endpoint setup.config.localEndpoint) .hello]
  | unset {peer : NodeAddress} {conv : KcpConv} {cause : LinkCause}
      (isUnset : setup.callbacks.kcpLink = none) :
      Acts shared answers (.callLink peer conv cause) shared (afterLink (cause = .hello) peer cause)
  | called {peer : NodeAddress} {conv : KcpConv} {cause : LinkCause}
      {enter : NodeAddress → KcpConv → Stage} (isSet : setup.callbacks.kcpLink = some enter) :
      Acts shared answers (.callLink peer conv cause)
        { shared with linkCalls := shared.linkCalls ++ [⟨peer, conv, cause⟩] }
        [.linkStage (enter peer conv) peer cause]
  | continued {stage next : Stage} {peer : NodeAddress} {cause : LinkCause} {links : Links}
      (result : setup.callbacks.linkStep shared.links stage = (links, .inl next)) :
      Acts shared answers (.linkStage stage peer cause) { shared with links }
        [.linkStage next peer cause]
  | returned {stage : Stage} {linked : Bool} {peer : NodeAddress} {cause : LinkCause}
      {links : Links} (result : setup.callbacks.linkStep shared.links stage = (links, .inr linked)) :
      Acts shared answers (.linkStage stage peer cause) { shared with links }
        (afterLink linked peer cause)

variable {setup} in
theorem acts_of_act {shared after : DiscoveryShared Links} {answers : ActionAnswers}
    {action : DiscoveryAction Stage} {more : List (DiscoveryAction Stage)}
    (acted : shared.act setup answers action = some (after, more)) :
    Acts setup shared answers action after more := by
  cases action with
  | addRoute =>
    cases acted
    exact .addRoute
  | markAttempt =>
    cases acted
    exact .markAttempt
  | markSuccess =>
    cases acted
    exact .markSuccess
  | markFailure =>
    cases acted
    exact .markFailure
  | connect node =>
    cases acted
    split_ifs
    · exact .reached
    · exact .unreached
  | readLine node =>
    simp only [DiscoveryShared.act] at acted
    cases arrived : answers.line with
    | none =>
      rw [arrived] at acted
      cases acted
      exact .ended
    | some line =>
      cases read : responseActions setup node line with
      | error error =>
        simp only [arrived, read] at acted
        cases acted
      | ok actions =>
        simp only [arrived, read] at acted
        cases acted
        exact .answered arrived read
  | propose source item =>
    simp only [DiscoveryShared.act] at acted
    cases read : readRoute setup.truncate item with
    | error error =>
      rw [read] at acted
      cases acted
    | ok found =>
      rw [read] at acted
      cases found with
      | none =>
        cases acted
        exact .unusable
      | some found =>
        cases acted
        exact .proposed read
  | checkKcpLinks peer =>
    cases acted
    split_ifs
    · exact .room
    · exact .full
  | askAdmission peer =>
    cases acted
    split_ifs
    · exact .refused
    · exact .admitted
  | callLink peer conv cause =>
    simp only [DiscoveryShared.act] at acted
    cases isSet : setup.callbacks.kcpLink with
    | none =>
      rw [isSet] at acted
      cases acted
      exact .unset isSet
    | some enter =>
      rw [isSet] at acted
      cases acted
      exact .called isSet
  | linkStage stage peer cause =>
    simp only [DiscoveryShared.act] at acted
    cases result : setup.callbacks.linkStep shared.links stage with
    | mk links returned =>
      rw [result] at acted
      cases returned with
      | inl next =>
        cases acted
        exact .continued result
      | inr linked =>
        cases acted
        exact .returned result

variable {setup} in
theorem distinctIds_of_acts {before shared : DiscoveryShared Links} {answers : ActionAnswers}
    {action : DiscoveryAction Stage} {more : List (DiscoveryAction Stage)}
    (acts : Acts setup before answers action shared more) (distinct : before.routes.DistinctIds) :
    shared.routes.DistinctIds := by
  cases acts with
  | addRoute | proposed =>
    rw [DiscoveryConfig.addRoute]
    split_ifs
    · exact distinct
    · exact distinct.addRoute
  | markAttempt => exact distinct.modify fun _ same => same
  | markSuccess => exact distinct.markSuccess
  | markFailure => exact distinct.markFailure
  | _ => exact distinct

end Acting

structure DiscoveryThreads (Links Stage : Type) where
  shared : DiscoveryShared Links
  calls : List (List (DiscoveryAction Stage)) := []
  /-- The lines in which nodes have introduced themselves, with the time of their check. -/
  greetings : List (ℤ × Bytes) := []
  dialled : List NodeAddress := []

inductive DiscoveryEvent where
  | session (nowMs : ℤ) (remoteHost : Text) (line : Bytes)
  | dial (node : NodeAddress)
  | control (payload : Bytes)
  | act (index : ℕ) (answers : ActionAnswers)
  /-- The library changes the iteration order of the route table. -/
  | rehash (order : List RouteEntry)

namespace DiscoveryThreads

variable {Links Stage : Type} (setup : DiscoverySetup Links Stage)

/-- The nodes that are dialled come from the configuration or the route table; the loops skip the
node's own id. -/
def step (state : DiscoveryThreads Links Stage) :
    DiscoveryEvent → Option (DiscoveryThreads Links Stage)
  | .session nowMs remoteHost line =>
    match helloActions setup nowMs remoteHost line with
    | .error _ => none
    | .ok actions =>
      some { state with
        calls := start state.calls actions, greetings := (nowMs, line) :: state.greetings }
  | .dial node =>
    if node.id = setup.config.id then none
    else some { state with
      calls := start state.calls (dialActions node), dialled := node :: state.dialled }
  | .control payload =>
    match controlActions setup payload with
    | .error _ => none
    | .ok actions => some { state with calls := start state.calls actions }
  | .act index answers =>
    match next? state.calls index with
    | none => none
    | some action =>
      match state.shared.act setup answers action with
      | none => none
      | some (shared, more) =>
        some { state with shared, calls := resume state.calls index more }
  | .rehash order =>
    if order.Perm state.shared.routes.routes then
      some { state with
        shared := { state.shared with routes := { state.shared.routes with routes := order } } }
    else none

variable {setup} {state after : DiscoveryThreads Links Stage}

theorem step_act {index : ℕ} {answers : ActionAnswers}
    (stepped : state.step setup (.act index answers) = some after) :
    ∃ action shared more, next? state.calls index = some action ∧
      Acts setup state.shared answers action shared more ∧
      after = { state with shared, calls := resume state.calls index more } := by
  simp only [step] at stepped
  cases next : next? state.calls index with
  | none =>
    rw [next] at stepped
    cases stepped
  | some action =>
    cases acted : state.shared.act setup answers action with
    | none =>
      simp only [next, acted] at stepped
      cases stepped
    | some result =>
      simp only [next, acted, Option.some.injEq] at stepped
      exact ⟨action, result.1, result.2, rfl, acts_of_act acted, stepped.symm⟩

variable (setup) in
inductive Begins : List (DiscoveryAction Stage) → Prop where
  | session (peer : NodeAddress) (capability : Option NodeCapability) :
      Begins (sessionActions peer capability)
  | dial {node : NodeAddress} (other : node.id ≠ setup.config.id) : Begins (dialActions node)
  | control {actions : List (DiscoveryAction Stage)}
      (proposals : ∀ action ∈ actions, ∃ item, action = .propose none item) : Begins actions

variable (setup state) in
inductive Steps : DiscoveryEvent → DiscoveryShared Links → List (List (DiscoveryAction Stage)) →
    Prop where
  | begun (event : DiscoveryEvent) {call : List (DiscoveryAction Stage)}
      (begins : Begins setup call) : Steps event state.shared (start state.calls call)
  | acted {index : ℕ} {answers : ActionAnswers} {action : DiscoveryAction Stage}
      {shared : DiscoveryShared Links} {more : List (DiscoveryAction Stage)}
      (next : next? state.calls index = some action)
      (acts : Acts setup state.shared answers action shared more) :
      Steps (.act index answers) shared (resume state.calls index more)
  | rehashed {order : List RouteEntry} (same : order.Perm state.shared.routes.routes) :
      Steps (.rehash order)
        { state.shared with routes := { state.shared.routes with routes := order } } state.calls

theorem steps_of_step {event : DiscoveryEvent} (stepped : state.step setup event = some after) :
    Steps setup state event after.shared after.calls := by
  cases event with
  | session nowMs remoteHost line =>
    simp only [step] at stepped
    cases read : helloActions setup nowMs remoteHost line with
    | error error =>
      rw [read] at stepped
      cases stepped
    | ok actions =>
      rw [read] at stepped
      cases stepped
      obtain ⟨verified, -, isCall⟩ := Except.bind_eq_ok.mp read
      cases verified <;> cases isCall
      · exact .begun _ (.control (by simp))
      · exact .begun _ (.session _ _)
  | dial node =>
    simp only [step, Option.ite_none_left_eq_some, Option.some.injEq] at stepped
    obtain ⟨other, rfl⟩ := stepped
    exact .begun _ (.dial other)
  | control payload =>
    simp only [step] at stepped
    cases read : controlActions setup payload with
    | error error =>
      rw [read] at stepped
      cases stepped
    | ok actions =>
      rw [read] at stepped
      cases stepped
      exact .begun _ (.control (ensures_controlActions payload actions read))
  | act index answers =>
    obtain ⟨action, shared, more, next, acts, rfl⟩ := step_act stepped
    exact .acted next acts
  | rehash order =>
    simp only [step, Option.ite_none_right_eq_some, Option.some.injEq] at stepped
    obtain ⟨same, rfl⟩ := stepped
    exact .rehashed same

end DiscoveryThreads

end IotProxy.Proxy
