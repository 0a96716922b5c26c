import Drovery.Data.JsValue
import Drovery.Data.JsonText
import Drovery.Objects.Delivery
import Drovery.Objects.Uuid

namespace Drovery

def qrTtlMs : Nat := 5 * 60 * 1000

-- The time in milliseconds, as far as the clock can show it.
abbrev DateNow := Fin 8640000000000001

def DateNow.number (now : DateNow) : JsNumber :=
  .ofNat now (now.isLt.le.trans (by decide))

-- What the code relies on of the crypto library and of the stack.
structure QrCrypto where
  -- How many arrays can be nested in a value that is converted.
  depth : Nat
  -- The digest of a text under the secret.
  hmac  : String → String
  -- Whether a value can be read as a buffer, and its bytes are those of a text.
  equal : Json → String → Bool
  hmac_ne      : ∀ s, hmac s ≠ ""
  equal_string : ∀ s t, equal (.string s) t = decide (s = t)

namespace WorkflowsService

inductive Reason
  | malformed
  | badSignature
  | expired
  deriving DecidableEq

structure Verdict where
  valid      : Bool
  deliveryId : Option Json
  reason     : Option Reason
  deriving DecidableEq

def refused (reason : Reason) : Verdict where
  valid      := false
  deliveryId := none
  reason     := some reason

def accepted (deliveryId : Json) : Verdict where
  valid      := true
  deliveryId := some deliveryId
  reason     := none

-- There is no signature if the conversion of a value to a string throws.
def signQr (C : QrCrypto) (deliveryId timestamp : Json) : Option String := do
  let deliveryId ← deliveryId.text C.depth
  let timestamp ← timestamp.text C.depth
  some <| C.hmac <| deliveryId ++ "." ++ timestamp

-- The delivery is looked up before, where `found` is its user.
def generateQrPayload (C : QrCrypto) (found : Option UserId) (now : DateNow) (U : UserId) (D : Uuid) :
    Except AppError String :=
  if found ≠ some U then
    .error <| .notFound "error.delivery.not_found"
  else
    let deliveryId : Json := .string D.text
    let timestamp : Json := .number now.number
    match signQr C deliveryId timestamp with
    | none     => .error <| .internal "TypeError"
    | some sig => .ok <| Json.stringify <| .object [
        ("deliveryId", deliveryId), ("timestamp", timestamp), ("sig", .string sig)
      ]

-- Whether the age of a timestamp exceeds the limit.
def isExpired (C : QrCrypto) (now : DateNow) (timestamp : Json) : Option Bool :=
  (timestamp.toNumber C.depth).map fun timestamp => (timestamp.subFrom now.number.toRat).lt qrTtlMs

-- Nothing is returned if the validation throws.
def validateQrPayload (C : QrCrypto) (now : DateNow) (payload : String) : Option Verdict :=
  match Json.parse payload with
  | none        => some <| refused .malformed
  | some .null  => none
  | some parsed =>
    match parsed.get "deliveryId", parsed.get "timestamp", parsed.get "sig" with
    | some deliveryId, some timestamp, some sig =>
      if ¬Json.truthy deliveryId ∨ ¬Json.truthy timestamp ∨ ¬Json.truthy sig then
        some <| refused .malformed
      else do
        let expected ← signQr C deliveryId timestamp
        if ¬C.equal sig expected then
          some <| refused .badSignature
        else if ← isExpired C now timestamp then
          some <| refused .expired
        else
          some <| accepted deliveryId
    | _, _, _ => some <| refused .malformed

end WorkflowsService

end Drovery
