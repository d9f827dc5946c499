import IotProxy.Storage.EdgeRows

/-!
# The text of a payload

The Base64 encoder of the proxy is a loop over the indices of the payload with machine words. It
computes the standard encoding (`base64Encode_eq_encode`), so that the storage service gets every
payload back, and so does a decoder that insists on zero bits in a padded group.
-/

namespace IotProxy.Storage

open Proxy List Base64

section Text

/-- The bits of a padded group that belong to no byte are zero. -/
def ZeroTail : Text → Prop
  | [_, last, '=', '='] => ∃ value, Base64.sextet last = some value ∧ value % 16 = 0
  | [_, _, last, '='] => ∃ value, Base64.sextet last = some value ∧ value % 4 = 0
  | _ :: _ :: _ :: _ :: rest => ZeroTail rest
  | _ => True

theorem encode_padding (data : Bytes) :
    ∃ body : Text, (∀ char ∈ body, char ∈ alphabet) ∧
      encode data = body ++ List.replicate ((3 - data.length % 3) % 3) '=' := by
  fun_induction encode data with
  | case1 => exact ⟨[], by simp, rfl⟩
  | case2 first chunk =>
    exact ⟨[symbol (chunk / 262144), symbol (chunk / 4096)], by simp [symbol_mem_alphabet], rfl⟩
  | case3 first second chunk =>
    exact ⟨[symbol (chunk / 262144), symbol (chunk / 4096),
      symbol (chunk / 64)], by simp [symbol_mem_alphabet], rfl⟩
  | case4 first second third rest chunk ih =>
    rcases ih with ⟨body, inAlphabet, isText⟩
    refine ⟨symbol (chunk / 262144) :: symbol (chunk / 4096) ::
      symbol (chunk / 64) :: symbol chunk :: body, ?_, ?_⟩
    · simpa [symbol_mem_alphabet] using inAlphabet
    · have samePadding : (rest.length + 1 + 1 + 1) % 3 = rest.length % 3 := by omega
      simp [isText, samePadding]

theorem length_encode (data : Bytes) :
    (encode data).length = 4 * ((data.length + 2) / 3) := by
  fun_induction encode data with
  | case1 => rfl
  | case2 first chunk => simp
  | case3 first second chunk => simp
  | case4 first second third rest chunk ih =>
    simp only [length_cons, ih]
    omega

theorem zeroTail_encode (data : Bytes) : ZeroTail (encode data) := by
  fun_induction encode data with
  | case1 => trivial
  | case2 first chunk =>
    refine ⟨_, sextet_symbol _, ?_⟩
    omega
  | case3 first second chunk =>
    have notPadding := symbol_ne_padding (chunk / 64)
    simp only [ZeroTail]
    refine ⟨_, sextet_symbol _, ?_⟩
    omega
  | case4 first second third rest chunk ih =>
    have notPadding := symbol_ne_padding chunk
    unfold ZeroTail
    split
    · next same =>
        simp only [List.cons.injEq] at same
        exact absurd same.2.2.2.1 notPadding
    · next same =>
        simp only [List.cons.injEq] at same
        exact absurd same.2.2.2.1 notPadding
    · next same =>
        simp only [List.cons.injEq] at same
        rcases same with ⟨-, -, -, -, rfl⟩
        exact ih
    · trivial

/-- The encoder of the proxy has the standard length, alphabet and padding, and both the storage
service and a decoder that checks the unused bits get the payload back from its text. -/
theorem base64Encode_correct :
    (∀ data : Bytes,
      (base64Encode data).length = 4 * ((data.length + 2) / 3) ∧
      (∃ body : Text, (∀ char ∈ body, char ∈ Base64.alphabet) ∧
        base64Encode data = body ++ List.replicate ((3 - data.length % 3) % 3) '=') ∧
      decodePayload (base64Encode data) = .ok data ∧
      ZeroTail (base64Encode data) ∧ Base64.decodeGroups (base64Encode data) = some data) ∧
    Function.Injective base64Encode := by
  refine ⟨fun data => ?_, fun data other same => ?_⟩
  · rw [base64Encode_eq_encode]
    exact ⟨length_encode data, encode_padding data, decodePayload_encode data,
      zeroTail_encode data, decodeGroups_encode data⟩
  · have decoded := decodePayload_encode data
    rw [← base64Encode_eq_encode, same, base64Encode_eq_encode, decodePayload_encode] at decoded
    exact (Except.ok.inj decoded).symm

end Text

end IotProxy.Storage
