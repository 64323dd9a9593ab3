import MetricRelay.Signature.Sha256

/-!
# Keyed tags

The keyed-hash message authentication code over SHA-256: the message is hashed behind one mask of
the key, and the result behind another.

Main definition:

- `tag`: the thirty-two bytes that a key gives to a message.

Main result:

- `length_tag`: a tag has thirty-two bytes.
-/

namespace MetricRelay.Hmac

open Utf8 (Bytes)

/-- A key as one block: longer keys are hashed, shorter ones filled up with zeros. -/
def block (key : Bytes) : Bytes :=
  let key := if 64 < key.length then Sha256.digest key else key
  key ++ List.replicate (64 - key.length) 0

/-- The tag that a key gives to a message. -/
def tag (key message : Bytes) : Bytes :=
  let masked := fun m : UInt8 => (block key).map (· ^^^ m)
  Sha256.digest (masked 0x5c ++ Sha256.digest (masked 0x36 ++ message))

/-- A tag has thirty-two bytes. -/
theorem length_tag (key message : Bytes) : (tag key message).length = 32 :=
  Sha256.length_digest _

end MetricRelay.Hmac
