import Gossveil.Keys
import Gossveil.Scalars

namespace Gossveil

/-!
# The stateful hash

Bytes are absorbed into a pending HMAC keyed with the state.  A ratchet
finishes it into the next state, and only then can bytes be squeezed out.
-/

/-- A pending HMAC: its key, and the bytes it was given so far. -/
structure Hmac where
  key : Bytes
  data : Bytes
  deriving DecidableEq

/-- A transcript: what is absorbed is hashed into the state at each ratchet. -/
structure Sponge where
  hasher : Hmac
  state : Block 32
  absorbing : Bool
  deriving DecidableEq

namespace Sponge

variable [Hashes]

/-- Takes in some bytes. -/
def absorb (sponge : Sponge) (input : Bytes) : Sponge :=
  if sponge.absorbing then
    { sponge with
      hasher := ⟨sponge.hasher.key, sponge.hasher.data ++ input⟩ }
  else
    { sponge with
      hasher := ⟨sponge.state.bytes, input⟩
      absorbing := true }

/-- Makes what has been absorbed the new state. -/
def ratchet (sponge : Sponge) : Sponge :=
  if sponge.absorbing then
    let data := sponge.hasher.data ++ [0]
    { hasher := ⟨sponge.hasher.key, data⟩
      state := Hashes.hmac sponge.hasher.key data
      absorbing := false }
  else
    sponge

/-- Takes in some bytes and makes them the new state. -/
def absorbRatchet (sponge : Sponge) (input : Bytes) : Sponge :=
  (sponge.absorb input).ratchet

/-- A transcript that begins with a label. -/
def init (label : Bytes) : Sponge :=
  absorbRatchet ⟨⟨(Block.zero 32).bytes, []⟩, Block.zero 32, false⟩ label

/-- The digest of one turn of the squeezing loop. -/
def digest (state : Block 32) (turn : Nat) : Block 32 :=
  Hashes.hmac state.bytes (bigEndian 8 turn ++ [1])

/-- The digests of the loop, the last of them cut. -/
def stream (state : Block 32) (size : Nat) : Bytes :=
  ((List.range ((size + 31) / 32)).flatMap fun turn =>
    (digest state turn).bytes).take size

theorem length_stream (state : Block 32) (size : Nat) :
    (stream state size).length = size := by
  simp only [stream, List.length_take, List.length_flatMap, Block.length_eq,
    List.map_const', List.sum_replicate, List.length_range, smul_eq_mul]
  omega

/-- What a sponge yields, whatever becomes of it. -/
def squeezed (sponge : Sponge) (size : Nat) : Block size :=
  ⟨stream sponge.state size, length_stream ..⟩

/-- The sponge has to be ratcheted first. -/
def squeeze
    {ε : Type}
    (sponge : Sponge)
    (size : Nat) :
    Outcome ε (Block size × Sponge) := do
  Outcome.assert (sponge.absorbing = false)
  let next := Hashes.hmac sponge.state.bytes (bigEndian 8 size ++ [2])
  return (sponge.squeezed size, { sponge with state := next })

/-- A scalar from sixty-four squeezed bytes. -/
def scalarValue {ε : Type} (sponge : Sponge) : Outcome ε (Block 32 × Sponge) := do
  let (wide, sponge) ← sponge.squeeze 64
  return (Scalar.reduce64 wide, sponge)

@[simp] theorem absorbing_ratchet (sponge : Sponge) :
    sponge.ratchet.absorbing = false := by
  rw [ratchet]
  by_cases pending : sponge.absorbing = true
  · rw [if_pos pending]
  · rw [if_neg pending]
    exact Bool.eq_false_of_not_eq_true pending

@[simp] theorem absorbing_absorbRatchet (sponge : Sponge) (input : Bytes) :
    (sponge.absorbRatchet input).absorbing = false :=
  absorbing_ratchet _

/-- A ratcheted sponge can be squeezed. -/
theorem squeeze_eq_ok
    {ε : Type}
    {sponge : Sponge}
    (ratcheted : sponge.absorbing = false)
    (size : Nat) :
    ∃ next : Sponge,
      sponge.squeeze size =
        (.ok (sponge.squeezed size, next) :
          Outcome ε (Block size × Sponge)) := by
  rw [squeeze, Outcome.assert_of ratcheted]
  exact ⟨_, rfl⟩

/-- A ratcheted sponge yields a reduced scalar. -/
theorem scalarValue_eq_ok
    {ε : Type}
    {sponge : Sponge}
    (ratcheted : sponge.absorbing = false) :
    ∃ next : Sponge,
      sponge.scalarValue =
        (.ok (Scalar.reduce64 (sponge.squeezed 64), next) :
          Outcome ε (Block 32 × Sponge)) := by
  obtain ⟨next, squeezed⟩ := squeeze_eq_ok (ε := ε) ratcheted 64
  rw [scalarValue, squeezed]
  exact ⟨next, rfl⟩

end Sponge

end Gossveil
