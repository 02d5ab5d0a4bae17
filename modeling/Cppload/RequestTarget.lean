import Cppload.Http11Client

/-!
# The target of a request

`build_request` takes CR and LF out of the path and encodes what its allow-list does not
name.  The target has no byte that could end the request line early, and decoding it
gives the path without its line breaks.
-/

namespace Cppload.Http11

open Percent

/-- The bytes that `url_encode_path` copies. -/
def isPathByte (byte : UInt8) : Bool :=
  isAlnum byte || unreservedPunctuation.contains byte

theorem urlEncodePath_eq_encode (raw : List UInt8) : urlEncodePath raw = encode isPathByte raw :=
  rfl

/-- A visible ASCII character: neither blank nor control nor beyond ASCII. -/
def IsVisible (byte : UInt8) : Prop :=
  32 < byte ∧ byte < 127

theorem isVisible_of_isPathByte : ∀ byte, isPathByte byte = true → IsVisible byte := by
  unfold IsVisible
  refine forall_byte ?_
  decide +kernel

theorem isVisible_of_isUpperHex : ∀ byte, isUpperHex byte = true → IsVisible byte := by
  unfold IsVisible
  refine forall_byte ?_
  decide +kernel

theorem isVisible_urlEncodePath (raw : List UInt8) :
    ∀ byte ∈ urlEncodePath raw, IsVisible byte := by
  rw [urlEncodePath_eq_encode]
  apply (encoded_encode raw).forall_mem IsVisible isVisible_of_isPathByte
  · exact ⟨by decide, by decide⟩
  · exact isVisible_of_isUpperHex

theorem decode_urlEncodePath (raw : List UInt8) : decode (urlEncodePath raw) = some raw := by
  rw [urlEncodePath_eq_encode]
  exact decode_encode (by decide +kernel) raw

theorem target_of_buildRequest {isVerb : String → Bool} {request : Request}
    {message : RequestMessage} (built : buildRequest isVerb request = .ok message) :
    message.target = urlEncodePath (request.path.filter fun byte => byte ≠ 13 && byte ≠ 10) := by
  unfold buildRequest at built
  split at built
  · split at built
    · cases built
    · obtain rfl := Except.ok.inj built
      rfl
  · cases built

theorem exists_buildRequest (isVerb : String → Bool) {request : Request}
    (known : isVerb request.method = true) (accepted : request.throws = false) :
    ∃ message, buildRequest isVerb request = .ok message := by
  simp [buildRequest, known, accepted]

/-- The target of every request that is built is clean and loses nothing but line
breaks. -/
theorem buildRequest_target_clean {isVerb : String → Bool} {request : Request}
    {message : RequestMessage} (built : buildRequest isVerb request = .ok message) :
    (∀ byte ∈ message.target, byte ≠ 13 ∧ byte ≠ 10 ∧ 32 < byte ∧ byte < 127) ∧
    decode message.target =
      some (request.path.filter fun byte => byte ≠ 13 && byte ≠ 10) := by
  rw [target_of_buildRequest built]
  refine ⟨fun byte member => ?_, decode_urlEncodePath _⟩
  obtain ⟨low, high⟩ := isVisible_urlEncodePath _ byte member
  refine ⟨?_, ?_, low, high⟩
  · rintro rfl
    exact absurd low (by decide)
  · rintro rfl
    exact absurd low (by decide)

/-- A request whose path has a blank, a line break and a percent sign. -/
def brokenRequest : Request where
  method := "GET"
  path := [47, 97, 32, 13, 10, 37]
  body := []
  headers := []
  host := "localhost"
  port := 80
  useTls := false

theorem buildRequest_target_clean_broken :
    ∃ message, buildRequest (fun method => method = "GET") brokenRequest = .ok message ∧
      message.target = [47, 97, 37, 50, 48, 37, 50, 53] ∧
      decode message.target = some [47, 97, 32, 37] := by
  have accepted : brokenRequest.throws = false := by decide +kernel
  obtain ⟨message, built⟩ := exists_buildRequest (· = "GET") rfl accepted
  have target := target_of_buildRequest built
  refine ⟨message, built, ?_, (buildRequest_target_clean built).2⟩
  rw [target]
  decide +kernel

end Cppload.Http11
