import Gossveil.CurveEncoding
import Gossveil.Keys

namespace Gossveil

/-!
# Signatures from a Montgomery key

The secret scalar signs on the Edwards curve.  The verifier maps the public
key to its Edwards image, whose sign it finds in the signature's last byte.
-/

/-- `std.crypto.ecc.Edwards25519`: a group whose points have coordinates. -/
class Edwards25519 (Point : Type) extends AddCommGroup Point where
  basePoint : Point
  x : Point → Fe
  y : Point → Fe
  mul : Point → Block 32 → Outcome PointError Point
  mulDoubleBasePublic :
    Point → Block 32 → Point → Block 32 → Outcome PointError Point
  fromBytes : Block 32 → Option Point

namespace Edwards25519

variable {Point : Type} [Edwards25519 Point]

/-- The y-coordinate, and the sign of the x-coordinate in the free bit. -/
def toBytes (p : Point) : Block 32 :=
  (Fe.toBytes (y p)).withTop (Fe.isNegative (x p))

end Edwards25519

/-- `X25519.Curve.basePoint.clampedMul(scalar)`, as bytes. -/
class X25519 where
  basePointMul : (scalar : Block 32) → Option (Block 32)

namespace Signing

open Edwards25519

/-- The bytes before the secret in the hash of a nonce. -/
def noncePrefix : Bytes :=
  List.replicate 64 0xfe

section Model

variable {Point : Type} [Edwards25519 Point]

/-- An undecodable image is a bad key. -/
def edwardsImage (u : Block 32) (signBit : Bool) : Option Point :=
  let fe := Fe.fromBytes u
  let y := (fe - 1) * (fe + 1)⁻¹
  fromBytes ((Fe.toBytes y).withTop signBit)

variable [Sha512]

/-- The scalar of the commitment. -/
def nonceScalar (secret : Block 32) (nonce : Block 64) : Block 32 :=
  Scalar.reduce64
    (Sha512.hash (noncePrefix ++ secret.bytes ++ nonce.bytes))

/-- The scalar that binds commitment, key and message. -/
def challengeScalar
    (commitment publicBytes : Block 32)
    (message : Bytes) :
    Block 32 :=
  Scalar.reduce64
    (Sha512.hash (commitment.bytes ++ publicBytes.bytes ++ message))

variable (Point)

/--
Signs with the clamped secret; the sign of its point goes into the signature.
-/
def sign
    (secret : Block 32)
    (message : Bytes)
    (nonce : Block 64) :
    Outcome PointError (Block 64) := do
  let a := Curve.clamp secret
  let publicPoint : Point ← mul basePoint a
  let publicBytes := toBytes publicPoint
  let signBit := publicBytes.top
  let r := nonceScalar secret nonce
  let multiple : Point ← mul basePoint r
  let commitment := toBytes multiple
  let challenge := challengeScalar commitment publicBytes message
  let response := Scalar.mulAdd challenge a r
  return commitment.append (response.withTop signBit)

/-- The commitment is not the identity and comes out of the equation again. -/
def verify
    (key : Block 32)
    (message : Bytes)
    (signature : Block 64) :
    Bool :=
  let half := signature.slice 32 32 Block.second_of_two
  let signBit := half.top
  let response := half.withTop false
  let encoded := signature.slice 0 32 Block.first_of_two
  match (fromBytes encoded : Option Point) with
  | none => false
  | some commitment =>
      if x commitment = 0 then
        false
      else
        match (edwardsImage key signBit : Option Point) with
        | none => false
        | some image =>
            let challenge := challengeScalar encoded (toBytes image) message
            match
              mulDoubleBasePublic (basePoint : Point) response (-image)
                challenge
            with
            | .ok check => encoded = toBytes check
            | _ => false

end Model

end Signing

end Gossveil
