import Bos3000.Lib.Sha256

-- Signatures of webhook bodies.
namespace Bos3000.Webhook

-- The bytes of a Go string that is valid UTF-8.
def utf8 (s : String) : List UInt8 := s.toUTF8.data.toList

-- hex.EncodeToString
def encodeToString (bytes : List UInt8) : String :=
  String.ofList (bytes.flatMap fun b => Nat.toDigits 16 (b.toNat / 16) ++ Nat.toDigits 16 (b.toNat % 16))

-- SignPayload computes HMAC-SHA256 of payload using the given secret.
def signPayload (secret : String) (payload : List UInt8) : String :=
  encodeToString (Sha256.hmac (utf8 secret) payload)

-- VerifySignature checks if a signature matches the expected HMAC-SHA256.
def verifySignature (secret : String) (payload : List UInt8) (signature : String) : Bool :=
  signPayload secret payload = signature

end Bos3000.Webhook
