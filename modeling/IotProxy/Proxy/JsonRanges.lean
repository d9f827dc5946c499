import IotProxy.Proxy.DiscoveryExceptions
import IotProxy.Proxy.RouteFile

/-!
# Ports and hop counts of documents

The library narrows an integer of 64 bits to `unsigned` before the program looks at its range. Both
readers of nodes take a port above 2³² for its lower half, and a hop count is capped after it has
been narrowed.
-/

namespace IotProxy.Proxy

open Json (AccessError)

section Numbers

/-- The integer that a document has under a key, as it is written. -/
def writtenInteger (item : Json) (key : String) : Option ℤ :=
  match item.member key with
  | some (.number literal) =>
    match Json.storedNumber literal with
    | .unsigned value => some value
    | .integer value => some value
    | .float => none
  | _ => none

variable {truncate : Text → ℤ} {item : Json} {key : String}

theorem getUnsigned_of_writtenInteger {number : Json} {value : ℤ}
    (found : item.member key = some number) (written : writtenInteger item key = some value)
    (bits : ℕ) : number.getUnsigned truncate bits = .ok (value % 2 ^ bits).toNat := by
  rw [writtenInteger, found] at written
  cases number with
  | number literal =>
    cases isStored : Json.storedNumber literal with
    | unsigned stored =>
      simp only [isStored, Option.some.injEq] at written
      simp only [Json.getUnsigned, Json.getNumber, isStored, ← written]
      rfl
    | integer stored =>
      simp only [isStored, Option.some.injEq] at written
      simp only [Json.getUnsigned, Json.getNumber, isStored, ← written]
      rfl
    | float =>
      simp only [isStored] at written
      cases written
  | _ => cases written

theorem writtenInteger_of_isNumberUnsigned {number : Json} (found : item.member key = some number)
    (unsigned : number.isNumberUnsigned = true) :
    ∃ value : ℕ, writtenInteger item key = some (value : ℤ) := by
  rw [writtenInteger, found]
  cases number with
  | number literal =>
    rw [Json.isNumberUnsigned] at unsigned
    split at unsigned
    · next value isStored => exact ⟨value, by simp only [isStored]⟩
    · cases unsigned
  | _ => cases unsigned

end Numbers

section Ports

variable {truncate : Text → ℤ} {item : Json} {node : NodeAddress}

theorem port_of_nodeFromJsonNamed {idText : Json → Except AccessError (Option Text)}
    (accepted : nodeFromJsonNamed idText truncate item = .ok (some node)) :
    ∃ port : ℕ, writtenInteger item "port" = some (port : ℤ) ∧
      node.endpoint.port = port % 2 ^ 32 ∧ 1 ≤ port % 2 ^ 32 ∧ port % 2 ^ 32 ≤ 65535 := by
  unfold nodeFromJsonNamed at accepted
  split at accepted
  · next host port isHost isPort =>
      split_ifs at accepted with wrongType
      · cases accepted
      · rw [Bool.or_eq_true, not_or, Bool.not_eq_true', Bool.not_eq_true', Bool.not_eq_false,
          Bool.not_eq_false] at wrongType
        rcases writtenInteger_of_isNumberUnsigned isPort wrongType.2 with ⟨value, written⟩
        have narrowed := @getUnsigned_of_writtenInteger truncate _ _ _ _ isPort written 32
        cases isText : idText item with
        | error thrown =>
          rw [isText] at accepted
          cases accepted
        | ok text =>
          rw [isText, Except.ok_bind] at accepted
          cases text with
          | none => cases accepted
          | some text =>
            cases isString : host.getString with
            | error thrown =>
              simp only [isString] at accepted
              cases accepted
            | ok hostText =>
              simp only [isString, narrowed, Except.ok_bind] at accepted
              split_ifs at accepted with outOfRange
              · cases accepted
              · rcases Option.map_eq_some_iff.mp (Except.ok.inj accepted) with ⟨id, -, rfl⟩
                refine ⟨value, written, ?_⟩
                dsimp only
                omega
  · cases accepted

/-- The port of an accepted node is the written one, and in range, if and only if the written one
has at most 32 bits. -/
theorem port_iff {idText : Json → Except AccessError (Option Text)}
    (accepted : nodeFromJsonNamed idText truncate item = .ok (some node)) :
    ∃ port : ℕ, writtenInteger item "port" = some (port : ℤ) ∧
      (1 ≤ port ∧ port ≤ 65535 ∧ node.endpoint.port = port ↔ port < 2 ^ 32) := by
  rcases port_of_nodeFromJsonNamed accepted with ⟨port, written, isPort, positive, inRange⟩
  refine ⟨port, written, ?_⟩
  rw [isPort]
  omega

end Ports

theorem routeHopCountFromJson_eq {truncate : Text → ℤ} {item : Json} {hops : ℕ}
    (written : writtenInteger item "hop_count" = some (hops : ℤ)) :
    routeHopCountFromJson truncate item = .ok (min (hops % 2 ^ 32) 255) := by
  have present : ∃ number, item.member "hop_count" = some number := by
    rw [writtenInteger] at written
    split at written
    · next literal found => exact ⟨_, found⟩
    · cases written
  rcases present with ⟨number, found⟩
  have narrowed := @getUnsigned_of_writtenInteger truncate _ _ _ _ found written 32
  cases item with
  | object members =>
    rw [Json.member] at found
    rw [routeHopCountFromJson, Json.value, found]
    dsimp only
    rw [narrowed]
    norm_cast
  | _ => cases found

/-- What the readers make of the written numbers is exact if and only if narrowing them to 32 bits
is. A hop count may lose its upper half as long as the rest of it is still capped. -/
theorem written_numbers_exact_iff (truncate : Text → ℤ) (item : Json) :
    (∀ node, RouteFile.nodeFromJson truncate item = .ok (some node) →
      ∃ port : ℕ, writtenInteger item "port" = some (port : ℤ) ∧
        (1 ≤ port ∧ port ≤ 65535 ∧ node.endpoint.port = port ↔ port < 2 ^ 32)) ∧
    (∀ node, nodeFromJson truncate item = .ok (some node) →
      ∃ port : ℕ, writtenInteger item "port" = some (port : ℤ) ∧
        (1 ≤ port ∧ port ≤ 65535 ∧ node.endpoint.port = port ↔ port < 2 ^ 32)) ∧
    (∀ hops : ℕ, writtenInteger item "hop_count" = some (hops : ℤ) →
      (routeHopCountFromJson truncate item = .ok (min hops 255) ↔
        hops < 2 ^ 32 ∨ 255 ≤ hops % 2 ^ 32)) := by
  refine ⟨fun node accepted => ?_, fun node accepted => ?_, fun hops written => ?_⟩
  · exact port_iff (show nodeFromJsonNamed RouteFile.nodeIdText truncate item = _ from accepted)
  · exact port_iff (show nodeFromJsonNamed nodeIdText truncate item = _ from accepted)
  · rw [routeHopCountFromJson_eq written, Except.ok.injEq]
    omega

def numbersDocument (port hops : ℕ) : Json :=
  object [("host", .string "10.0.0.1".toList), ("port", numberJson port),
    ("id", .string (convidToHex (.ofUint32 7))), ("hop_count", numberJson hops)]

def numbersNode (port : ℕ) : NodeAddress :=
  { endpoint := { host := "10.0.0.1".toList, port }, id := .ofUint32 7 }

/-- Port 8080 and hop count 3 are read back. -/
theorem written_numbers_kept :
    routeHopCountFromJson (fun _ => 0) (numbersDocument 8080 3) = .ok 3 ∧
    ∃ port : ℕ, writtenInteger (numbersDocument 8080 3) "port" = some (port : ℤ) ∧
      (1 ≤ port ∧ port ≤ 65535 ∧ (numbersNode 8080).endpoint.port = port ↔ port < 2 ^ 32) := by
  rcases written_numbers_exact_iff (fun _ => 0) (numbersDocument 8080 3) with ⟨-, ports, hops⟩
  exact ⟨(hops 3 (by decide +kernel)).mpr (by decide), ports (numbersNode 8080) (by decide +kernel)⟩

/-- The port 2³² + 1 becomes port 1 and the hop count 2³² becomes 0. -/
theorem written_numbers_narrowed :
    writtenInteger (numbersDocument 4294967297 4294967296) "port" = some 4294967297 ∧
    RouteFile.nodeFromJson (fun _ => 0) (numbersDocument 4294967297 4294967296) =
      .ok (some (numbersNode 1)) ∧
    nodeFromJson (fun _ => 0) (numbersDocument 4294967297 4294967296) =
      .ok (some (numbersNode 1)) ∧
    writtenInteger (numbersDocument 4294967297 4294967296) "hop_count" = some 4294967296 ∧
    routeHopCountFromJson (fun _ => 0) (numbersDocument 4294967297 4294967296) = .ok 0 := by
  decide +kernel

end IotProxy.Proxy
