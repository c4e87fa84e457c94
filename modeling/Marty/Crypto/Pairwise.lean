import Marty.Lib.Base64
import Marty.Lib.Text

/-! `compute_pairwise_id`: the message of the HMAC is the client id and the subject with a colon
between them, as its documentation prescribes. -/

namespace Marty.Crypto.Pairwise

open Lib Lib.Base64

/-- The message, in UTF-8. -/
def message (clientId subjectIdentifier : String) : Bytes :=
  Text.encode (clientId ++ ":" ++ subjectIdentifier)

/-- `hmac` is HMAC-SHA256; a secret that is not of 32 bytes is rejected. -/
def computePairwiseId (hmac : Bytes → Bytes → Bytes) (holderSecret : Bytes)
    (clientId subjectIdentifier : String) : Option String :=
  if holderSecret.length = 32 then
    some (urlsafe (hmac holderSecret (message clientId subjectIdentifier)))
  else none

variable {hmac : Bytes → Bytes → Bytes} {holderSecret : Bytes}
  {clientId subjectIdentifier clientId' subjectIdentifier' : String}

theorem message_eq_iff : message clientId subjectIdentifier = message clientId' subjectIdentifier' ↔
    Text.Joined ":" clientId subjectIdentifier clientId' subjectIdentifier' := by
  rw [message, message, Text.encode_injective.eq_iff]
  exact Text.joined_iff rfl

/-- Client ids without a colon are told apart. -/
theorem eq_of_joined (h : Text.Joined ":" clientId subjectIdentifier clientId' subjectIdentifier')
    (hclient : ':' ∉ clientId.toList) (hclient' : ':' ∉ clientId'.toList) :
    clientId = clientId' ∧ subjectIdentifier = subjectIdentifier' := by
  rcases h with h | ⟨w, rfl, -⟩ | ⟨w, rfl, -⟩
  · exact h
  · simp at hclient'
  · simp at hclient

/-- Two pairs give the same message, and where HMAC does not collide on their messages the same
identifier, exactly when the colon that joins one of them stands inside a part of the other; not so
for distinct pairs whose client ids have no colon. -/
theorem pairwise_id_eq_iff (hmac : Bytes → Bytes → Bytes) (holderSecret : Bytes)
    (clientId subjectIdentifier clientId' subjectIdentifier' : String)
    (hsecret : holderSecret.length = 32)
    (hcollision : hmac holderSecret (message clientId subjectIdentifier) =
        hmac holderSecret (message clientId' subjectIdentifier') →
      message clientId subjectIdentifier = message clientId' subjectIdentifier') :
    (message clientId subjectIdentifier = message clientId' subjectIdentifier' ↔
      Text.Joined ":" clientId subjectIdentifier clientId' subjectIdentifier') ∧
    (computePairwiseId hmac holderSecret clientId subjectIdentifier =
        computePairwiseId hmac holderSecret clientId' subjectIdentifier' ↔
      Text.Joined ":" clientId subjectIdentifier clientId' subjectIdentifier') ∧
    (':' ∉ clientId.toList → ':' ∉ clientId'.toList →
      (clientId, subjectIdentifier) ≠ (clientId', subjectIdentifier') →
      message clientId subjectIdentifier ≠ message clientId' subjectIdentifier' ∧
        computePairwiseId hmac holderSecret clientId subjectIdentifier ≠
          computePairwiseId hmac holderSecret clientId' subjectIdentifier') := by
  have hid : computePairwiseId hmac holderSecret clientId subjectIdentifier =
      computePairwiseId hmac holderSecret clientId' subjectIdentifier' ↔
        message clientId subjectIdentifier = message clientId' subjectIdentifier' := by
    rw [computePairwiseId, computePairwiseId, if_pos hsecret, if_pos hsecret, Option.some.injEq,
      urlsafe_injective.eq_iff]
    constructor
    · exact hcollision
    · intro h
      rw [h]
  refine ⟨message_eq_iff, hid.trans message_eq_iff, fun hclient hclient' hne => ?_⟩
  have hmessage : message clientId subjectIdentifier ≠ message clientId' subjectIdentifier' := by
    intro h
    obtain ⟨rfl, rfl⟩ := eq_of_joined (message_eq_iff.mp h) hclient hclient'
    exact hne rfl
  exact ⟨hmessage, fun h => hmessage (hid.mp h)⟩

def zeroSecret : Bytes := List.replicate 32 0

/-- The digests of two messages under the secret of zeros. -/
def digests (_ : Bytes) (data : Bytes) : Bytes :=
  if data = message "rp-a" "holder" then
    [190, 41, 6, 167, 254, 72, 154, 160, 164, 113, 175, 36, 147, 189, 117, 181, 103, 225, 172, 196,
      12, 162, 28, 157, 193, 227, 242, 63, 4, 145, 145, 62]
  else
    [249, 99, 54, 58, 199, 206, 195, 25, 73, 12, 129, 41, 253, 166, 173, 226, 136, 99, 56, 92, 102,
      106, 34, 188, 205, 55, 52, 255, 116, 91, 48, 184]

theorem relying_parties_apart :
    computePairwiseId digests zeroSecret "rp-a" "holder" ≠
      computePairwiseId digests zeroSecret "rp-b" "holder" :=
  ((pairwise_id_eq_iff digests zeroSecret "rp-a" "holder" "rp-b" "holder" rfl
    (by decide +kernel)).2.2 (by decide) (by decide) (by decide)).2

/-- The scheme of a URL as the client id, and the rest of it before the subject. -/
theorem url_split_same_message :
    ("https://rp.example", "alice") ≠ ("https", "//rp.example:alice") ∧
      message "https://rp.example" "alice" = message "https" "//rp.example:alice" ∧
      ∀ hmac : Bytes → Bytes → Bytes,
        computePairwiseId hmac zeroSecret "https://rp.example" "alice" =
          computePairwiseId hmac zeroSecret "https" "//rp.example:alice" := by
  have hmessage : message "https://rp.example" "alice" = message "https" "//rp.example:alice" :=
    congrArg Text.encode (by decide)
  refine ⟨by decide, hmessage, fun hmac => ?_⟩
  rw [computePairwiseId, computePairwiseId, hmessage]

end Marty.Crypto.Pairwise
