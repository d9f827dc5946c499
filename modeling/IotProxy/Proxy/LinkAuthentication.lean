import IotProxy.Proxy.DiscoveryThreads

/-!
# Who gets a link

A node that introduces itself proves its name by a signature. A node that is dialled does not: its
answer may offer a link in the name of any node, which is not compared with the dialled one.
-/

namespace IotProxy.Proxy

open EventSystem (Run)
open Interleaving List

variable {Links Stage : Type} {setup : DiscoverySetup Links Stage}

/-- A `hello` carries a signature that is valid under the id of the peer, for this node as the target
and for the time and the nonce that it carries. -/
def Signed (config : DiscoveryConfig) (calls : DiscoveryCalls) (hello : Json) (peer : NodeAddress) :
    Prop :=
  ∃ timestamp timestampMs nonce nonceHex text signatureHex signature,
    hello.member "timestamp_ms" = some timestamp ∧
    timestamp.getInt64 calls.truncate = .ok timestampMs ∧
    hello.member "nonce" = some nonce ∧ nonce.getString = .ok nonceHex ∧
    hello.member "signature" = some text ∧ text.getString = .ok signatureHex ∧
    parseHex512 signatureHex = some signature ∧
    calls.verifyNodeMessage peer.id (helloSigningPayload peer config.id timestampMs nonceHex)
      signature = true

variable (setup) in
/-- The line introduces a node with this id, and is signed by it for this node. -/
def SignedHello (line : Bytes) (id : KcpConv) : Prop :=
  ∃ hello item peer, setup.parse line = some hello ∧ hello.member "node" = some item ∧
    nodeFromJson setup.truncate item = .ok (some peer) ∧ peer.id = id ∧
    Signed setup.config setup.calls hello peer

section Hello

open Except

theorem signed_of_verified {config : DiscoveryConfig} {calls : DiscoveryCalls} {nowMs : ℤ}
    {hello : Json} {peer : NodeAddress}
    (verified : verifyHelloSignature config calls nowMs hello peer = .ok true) :
    Signed config calls hello peer := by
  unfold verifyHelloSignature at verified
  split at verified
  case h_2 => cases verified
  next timestamp nonce text isTimestamp isNonce isSignature =>
    split_ifs at verified
    · cases verified
    · obtain ⟨timestampMs, readTimestamp, verified⟩ := bind_eq_ok.mp verified
      split_ifs at verified
      · cases verified
      · obtain ⟨nonceHex, readNonce, verified⟩ := bind_eq_ok.mp verified
        obtain ⟨signatureHex, readSignature, verified⟩ := bind_eq_ok.mp verified
        split at verified
        case h_2 => cases verified
        next signature _ isHex =>
          have passes := Except.ok.inj verified
          rw [Bool.and_eq_true] at passes
          exact ⟨timestamp, timestampMs, nonce, nonceHex, text, signatureHex, signature,
            isTimestamp, readTimestamp, isNonce, readNonce, isSignature, readSignature, isHex,
            passes.2⟩

theorem signedHello_of_verifiedHello {nowMs : ℤ} {line : Bytes} {peer : NodeAddress}
    {capability : Option NodeCapability}
    (verified : verifiedHello setup.config setup.calls nowMs line =
      .ok (some (peer, capability))) : SignedHello setup line peer.id := by
  unfold verifiedHello at verified
  split at verified
  case h_1 => cases verified
  next hello parsed =>
    obtain ⟨expected, -, verified⟩ := bind_eq_ok.mp verified
    split at verified
    case h_2 => cases verified
    next _ _ item isItem =>
      obtain ⟨found, read, verified⟩ := bind_eq_ok.mp verified
      cases found with
      | none => cases verified
      | some found =>
        obtain ⟨_, -, verified⟩ := bind_eq_ok.mp verified
        obtain ⟨passes, checked, verified⟩ := bind_eq_ok.mp verified
        cases passes <;> cases verified
        exact ⟨hello, item, peer, parsed, isItem, read, rfl, signed_of_verified checked⟩

end Hello

@[simp]
theorem id_reachedAt (host : Text) (peer : NodeAddress) : (reachedAt host peer).id = peer.id := by
  rw [reachedAt]
  split_ifs <;> rfl

section Answers

variable (setup) in
/-- If the answer of a dialled node offers a link, then in the name of that node. -/
def namesDialled (node : NodeAddress) (line : Bytes) : Bool :=
  match responseActions setup node line with
  | .error _ => true
  | .ok actions => actions.all fun action =>
    match action with
    | .callLink peer _ _ => peer.id = node.id
    | _ => true

variable (setup) in
def readingNamesDialled : Option (DiscoveryAction Stage) → Option Bytes → Bool
  | some (.readLine node), some line => namesDialled setup node line
  | _, _ => true

variable (setup) in
def RepliesNameDialled (state : DiscoveryThreads Links Stage) : DiscoveryEvent → Prop
  | .act index answers =>
    readingNamesDialled setup (next? state.calls index) answers.line = true
  | _ => True

end Answers

section Invariant

def Justified (setup : DiscoverySetup Links Stage) (state : DiscoveryThreads Links Stage)
    (peer : NodeAddress) : LinkCause → Prop
  | .hello => ∃ greeting ∈ state.greetings, SignedHello setup greeting.2 peer.id
  | .reply node _ => node ∈ state.dialled ∧ node.id = peer.id

def SoundAction (setup : DiscoverySetup Links Stage) (state : DiscoveryThreads Links Stage) :
    DiscoveryAction Stage → Prop
  | .connect node => node ∈ state.dialled
  | .readLine node => node ∈ state.dialled
  | .checkKcpLinks peer => Justified setup state peer .hello
  | .askAdmission peer => Justified setup state peer .hello
  | .callLink peer _ cause => Justified setup state peer cause
  | _ => True

structure Authenticated (setup : DiscoverySetup Links Stage)
    (state : DiscoveryThreads Links Stage) : Prop where
  pending : ∀ action ∈ pending state.calls, SoundAction setup state action
  linkCalls : ∀ call ∈ state.shared.linkCalls, Justified setup state call.peer call.cause
  others : ∀ node ∈ state.dialled, node.id ≠ setup.config.id

structure RecordsKept (state after : DiscoveryThreads Links Stage) : Prop where
  greetings : state.greetings ⊆ after.greetings
  dialled : state.dialled ⊆ after.dialled

variable {state after : DiscoveryThreads Links Stage}

theorem Justified.mono {peer : NodeAddress} {cause : LinkCause} (recorded : RecordsKept state after)
    (justified : Justified setup state peer cause) : Justified setup after peer cause := by
  cases cause with
  | hello =>
    obtain ⟨greeting, mem, signed⟩ := justified
    exact ⟨greeting, recorded.greetings mem, signed⟩
  | reply node capability => exact ⟨recorded.dialled justified.1, justified.2⟩

theorem SoundAction.mono {action : DiscoveryAction Stage} (recorded : RecordsKept state after)
    (sound : SoundAction setup state action) : SoundAction setup after action := by
  cases action with
  | connect node => exact recorded.dialled sound
  | readLine node => exact recorded.dialled sound
  | checkKcpLinks peer =>
    have justified : Justified setup state peer .hello := sound
    exact justified.mono recorded
  | askAdmission peer =>
    have justified : Justified setup state peer .hello := sound
    exact justified.mono recorded
  | callLink peer conv cause => exact Justified.mono recorded sound
  | _ => trivial

theorem soundAction_afterLink (linked : Bool) (peer : NodeAddress) (cause : LinkCause) :
    ∀ action ∈ afterLink linked peer cause, SoundAction setup state action := by
  cases linked <;> simp [afterLink, SoundAction]

theorem soundAction_of_acts {action : DiscoveryAction Stage} {answers : ActionAnswers}
    {shared : DiscoveryShared Links} {more : List (DiscoveryAction Stage)}
    (sound : SoundAction setup state action)
    (names : ∀ node, action = .readLine node → ∀ line ∈ answers.line,
      namesDialled setup node line = true)
    (acts : Acts setup state.shared answers action shared more) :
    (∀ action ∈ more, SoundAction setup state action) ∧
      ∀ call ∈ shared.linkCalls, call ∈ state.shared.linkCalls ∨
        Justified setup state call.peer call.cause := by
  have unchanged : ∀ call ∈ state.shared.linkCalls, call ∈ state.shared.linkCalls ∨
      Justified setup state call.peer call.cause := fun _ mem => .inl mem
  cases acts with
  | addRoute | markAttempt | markSuccess | markFailure | ended | unusable | proposed | full
  | refused => exact ⟨by simp, unchanged⟩
  | reached => exact ⟨by simpa [SoundAction] using sound, unchanged⟩
  | unreached => exact ⟨by simp [SoundAction], unchanged⟩
  | @answered node line actions arrived read =>
    have named := names node rfl line arrived
    simp only [namesDialled, read, all_eq_true] at named
    refine ⟨?_, unchanged⟩
    intro action mem
    rcases mem_append.mp mem with isNew | again
    · rcases ensures_responseActions node line actions read action isNew with
        ⟨item, rfl⟩ | ⟨peer, conv, capability, rfl⟩
      · trivial
      · exact ⟨sound, (by simpa using named _ isNew : peer.id = node.id).symm⟩
    · cases mem_singleton.mp again
      exact sound
  | room | admitted =>
    refine ⟨?_, unchanged⟩
    intro action mem
    cases mem_singleton.mp mem
    exact sound
  | @unset peer conv cause isUnset => exact ⟨soundAction_afterLink _ peer cause, unchanged⟩
  | called isSet =>
    refine ⟨by simp [SoundAction], ?_⟩
    intro call mem
    rcases mem_append.mp mem with old | new
    · exact .inl old
    · cases mem_singleton.mp new
      exact .inr sound
  | continued => exact ⟨by simp [SoundAction], unchanged⟩
  | @returned stage linked peer cause => exact ⟨soundAction_afterLink linked peer cause, unchanged⟩

theorem Authenticated.mono (authenticated : Authenticated setup state)
    (recorded : RecordsKept state after)
    (sameLinks : after.shared.linkCalls = state.shared.linkCalls)
    (pending : ∀ action ∈ Interleaving.pending after.calls,
      action ∈ Interleaving.pending state.calls ∨ SoundAction setup after action)
    (others : ∀ node ∈ after.dialled, node.id ≠ setup.config.id) : Authenticated setup after where
  pending action mem := by
    rcases pending action mem with old | sound
    · exact (authenticated.pending action old).mono recorded
    · exact sound
  linkCalls call mem := by
    rw [sameLinks] at mem
    exact (authenticated.linkCalls call mem).mono recorded
  others := others

theorem Authenticated.begun {call : List (DiscoveryAction Stage)}
    (authenticated : Authenticated setup state) (recorded : RecordsKept state after)
    (sameLinks : after.shared.linkCalls = state.shared.linkCalls)
    (calls : after.calls = start state.calls call)
    (sound : ∀ action ∈ call, SoundAction setup after action)
    (others : ∀ node ∈ after.dialled, node.id ≠ setup.config.id) : Authenticated setup after := by
  refine authenticated.mono recorded sameLinks (fun action mem => ?_) others
  rw [calls, pending_start, Multiset.mem_add, Multiset.mem_coe] at mem
  exact mem.symm.imp_right (sound action)

theorem Authenticated.step {event : DiscoveryEvent} (authenticated : Authenticated setup state)
    (names : RepliesNameDialled setup state event) (stepped : state.step setup event = some after) :
    Authenticated setup after := by
  cases event with
  | session nowMs remoteHost line =>
    simp only [DiscoveryThreads.step] at stepped
    cases read : helloActions setup nowMs remoteHost line with
    | error error =>
      rw [read] at stepped
      cases stepped
    | ok actions =>
      rw [read] at stepped
      cases stepped
      obtain ⟨verified, checked, isCall⟩ := Except.bind_eq_ok.mp read
      refine authenticated.begun ⟨subset_cons_self _ _, .refl _⟩ rfl rfl ?_ authenticated.others
      cases verified with
      | none =>
        cases isCall
        simp
      | some verified =>
        cases isCall
        have justified : ∃ greeting ∈ (nowMs, line) :: state.greetings,
            SignedHello setup greeting.2 (reachedAt remoteHost verified.1).id :=
          ⟨(nowMs, line), mem_cons_self, by simpa using signedHello_of_verifiedHello checked⟩
        simpa [sessionActions, SoundAction, Justified] using justified
  | dial node =>
    simp only [DiscoveryThreads.step] at stepped
    by_cases own : node.id = setup.config.id
    · rw [if_pos own] at stepped
      cases stepped
    · rw [if_neg own] at stepped
      cases stepped
      refine authenticated.begun ⟨.refl _, subset_cons_self _ _⟩ rfl rfl ?_ ?_
      · simp [dialActions, SoundAction]
      · rw [forall_mem_cons]
        exact ⟨own, authenticated.others⟩
  | control payload =>
    simp only [DiscoveryThreads.step] at stepped
    cases read : controlActions setup payload with
    | error error =>
      rw [read] at stepped
      cases stepped
    | ok actions =>
      rw [read] at stepped
      cases stepped
      refine authenticated.begun ⟨.refl _, .refl _⟩ rfl rfl ?_ authenticated.others
      intro action mem
      obtain ⟨item, rfl⟩ := ensures_controlActions payload actions read action mem
      trivial
  | act index answers =>
    obtain ⟨action, shared, more, next, acts, rfl⟩ := DiscoveryThreads.step_act stepped
    have recorded : RecordsKept state { state with
        shared, calls := resume state.calls index more } :=
      ⟨List.Subset.refl _, List.Subset.refl _⟩
    have isNamed : ∀ node, action = .readLine node → ∀ line ∈ answers.line,
        namesDialled setup node line = true := by
      rintro node rfl line isLine
      rw [Option.mem_def] at isLine
      simpa only [RepliesNameDialled, next, isLine, readingNamesDialled] using names
    obtain ⟨sound, calls⟩ := soundAction_of_acts
      (authenticated.pending action (mem_pending_of_next next)) isNamed acts
    refine ⟨?_, ?_, authenticated.others⟩
    · refine forall_pending_resume next authenticated.pending ?_ ?_
      · intro action sound
        exact sound.mono recorded
      · intro action mem
        exact (sound action mem).mono recorded
    · intro call mem
      rcases calls call mem with old | justified
      · exact (authenticated.linkCalls call old).mono recorded
      · exact justified.mono recorded
  | rehash order =>
    simp only [DiscoveryThreads.step, Option.ite_none_right_eq_some, Option.some.injEq] at stepped
    obtain ⟨-, rfl⟩ := stepped
    exact authenticated.mono ⟨.refl _, .refl _⟩ rfl (fun _ => .inl) authenticated.others

end Invariant

section Results

instance (state : DiscoveryThreads Links Stage) (event : DiscoveryEvent) :
    Decidable (RepliesNameDialled setup state event) :=
  match event with
  | .act index answers => inferInstanceAs (Decidable
      (readingNamesDialled setup (next? state.calls index) answers.line = true))
  | .session .. | .dial .. | .control .. | .rehash .. => .isTrue trivial

def dialledNode : NodeAddress where
  endpoint := { host := "10.0.0.2".toList, port := 9000 }
  id := .ofUint32 2

def offerFor (id : KcpConv) : Bytes :=
  Text.toBytes <| "\x7b\"type\":\"kcp_conv\",\"node\":\x7b\"host\":\"10.0.0.2\",".toList ++
    "\"port\":9000,\"public_key\":\"".toList ++ convidToHex id ++ "\"\x7d,\"convid\":\"".toList ++
    convidToHex (.ofUint32 7) ++ "\"\x7d".toList

def dialAndOffer (id : KcpConv) : List DiscoveryEvent :=
  [ .dial dialledNode, .act 0 { nowMs := 1000 }, .act 0 { nowMs := 1000 },
    .act 0 { nowMs := 1000 }, .act 0 { nowMs := 1000 },
    .act 0 { nowMs := 1000, line := some (offerFor id) }, .act 0 { nowMs := 1000 } ]

end Results

end IotProxy.Proxy
