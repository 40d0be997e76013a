import Gossveil.Reductions

namespace Gossveil.Lattice

/-!
# Polynomials of 256 coefficients

The transform, its inverse and the product between them work in place, pair of
coefficients by pair of coefficients.  A loop is a fold over the turns of its
counter.
-/

/-- A polynomial by its 256 coefficients. -/
structure Poly where
  cs : Vector Int16 256
  deriving DecidableEq

namespace Poly

variable {ε : Type} [Checks]

/-- The polynomial without terms. -/
def zero : Poly :=
  ⟨Vector.replicate 256 0⟩

/-- One coefficient; an index out of range traps. -/
def coefficient (p : Poly) (index : Nat) : Outcome ε Int16 :=
  Outcome.unwrap p.cs[index]?

/-- Replaces one coefficient. -/
def put (p : Poly) (index : Nat) (value : Int16) : Outcome ε Poly :=
  if inside : index < 256 then
    .ok ⟨p.cs.set index value inside⟩
  else
    .trap

/-- A loop that fills a new polynomial from its first coefficient on. -/
def build (entry : Nat → Outcome ε Int16) : Outcome ε Poly :=
  (List.range 256).foldlM
    (fun out index => do
      let value ← entry index
      out.put index value)
    zero

/-- The sum, coefficient by coefficient. -/
def add (a b : Poly) : Outcome ε Poly :=
  build fun index => do
    let first : Int16 ← a.coefficient index
    let second : Int16 ← b.coefficient index
    checked (first.toInt + second.toInt)

/-- Reduces every coefficient to a small one. -/
def barrett (a : Poly) : Outcome ε Poly :=
  build fun index => do
    let c ← a.coefficient index
    return feBarrett c

/-- Brings every coefficient into the range below the prime. -/
def normalize (a : Poly) : Outcome ε Poly :=
  build fun index => do
    let c ← a.coefficient index
    csubq (feBarrett c)

/-! ## The transform -/

/-- One butterfly of the transform. -/
def butterfly (z : Int16) (l : Nat) (p : Poly) (j : Nat) : Outcome ε Poly := do
  let upper : Int16 ← p.coefficient (j + l)
  let t : Int16 ← reduce (z.toInt * upper.toInt)
  let lower : Int16 ← p.coefficient j
  let difference ← checked (lower.toInt - t.toInt)
  let p ← p.put (j + l) difference
  let lower : Int16 ← p.coefficient j
  let sum ← checked (lower.toInt + t.toInt)
  p.put j sum

/-- One level; `offset` is `2 * l * block`. -/
def nttLevel (l : Nat) (state : Poly × Nat) : Outcome ε (Poly × Nat) :=
  (List.range (256 / (2 * l))).foldlM
    (fun (p, zi) block => do
      let zi := zi + 1
      let z ← zeta zi
      let p ←
        (List.range l).foldlM
          (fun p place => butterfly z l p (2 * l * block + place)) p
      return (p, zi))
    state

/-- The levels halve `l` from 128 down to 2. -/
def ntt (a : Poly) : Outcome ε Poly := do
  let (p, _) ←
    (List.range 7).foldlM
      (fun state level => nttLevel (256 / 2 ^ (level + 1)) state) (a, 0)
  return p

/-! ## The inverse transform -/

/-- Coefficients to be reduced after each level, which a -1 ends. -/
def invNttReductions : List Int :=
  [ -1, -1, 16, 17, 48, 49, 80, 81, 112, 113, 144, 145, 176, 177, 208, 209, 240,
    241, -1, 0, 1, 32, 33, 34, 35, 64, 65, 96, 97, 98, 99, 128, 129, 160, 161,
    162, 163, 192, 193, 224, 225, 226, 227, -1, 2, 3, 66, 67, 68, 69, 70, 71,
    130, 131, 194, 195, 196, 197, 198, 199, -1, 4, 5, 6, 7, 132, 133, 134, 135,
    136, 137, 138, 139, 140, 141, 142, 143, -1, -1 ]

/-- The reductions up to the next -1, and what is left of the table. -/
def reductions (p : Poly) : List Int → Outcome ε (Poly × List Int)
  | [] => .trap
  | idx :: rest =>
      if idx < 0 then
        return (p, rest)
      else do
        let c ← p.coefficient idx.toNat
        let p ← p.put idx.toNat (feBarrett c)
        reductions p rest

/-- One butterfly of the inverse transform. -/
def inverseButterfly
    (minusZeta : Int16)
    (l : Nat)
    (p : Poly)
    (j : Nat) :
    Outcome ε Poly := do
  let upper : Int16 ← p.coefficient (j + l)
  let lower : Int16 ← p.coefficient j
  let t : Int16 ← checked (upper.toInt - lower.toInt)
  let sum ← checked (lower.toInt + upper.toInt)
  let p ← p.put j sum
  let product ← reduce (minusZeta.toInt * t.toInt)
  p.put (j + l) product

/-- One level of the inverse transform, with the place in the table. -/
def invNttLevel (l : Nat) (state : Poly × Nat) : Outcome ε (Poly × Nat) :=
  (List.range (256 / (2 * l))).foldlM
    (fun (p, zi) block => do
      let minusZeta ← zeta zi
      let zi ← Outcome.sub zi 1
      let p ←
        (List.range l).foldlM
          (fun p place =>
            inverseButterfly minusZeta l p (2 * l * block + place)) p
      return (p, zi))
    state

/-- The levels double `l` from 2 up to 128. -/
def invNtt (a : Poly) : Outcome ε Poly := do
  let ((p, _), _) ←
    (List.range 7).foldlM
      (fun (state, table) level => do
        let (p, zi) ← invNttLevel (2 ^ (level + 1)) state
        let (p, table) ← reductions p table
        return ((p, zi), table))
      ((a, 127), invNttReductions)
  build fun index => do
    let c : Int16 ← p.coefficient index
    reduce (mont2Over128 * c.toInt)

/-! ## The product of transforms -/

/-- The product of two residues modulo `X ^ 2 - z` and modulo `X ^ 2 + z`. -/
def mulGroup (a b : Poly) (p : Poly) (group : Nat) : Outcome ε Poly := do
  let i := 4 * group
  let z : Int16 ← zeta (64 + group)
  let a0 : Int16 ← a.coefficient i
  let a1 : Int16 ← a.coefficient (i + 1)
  let a2 : Int16 ← a.coefficient (i + 2)
  let a3 : Int16 ← a.coefficient (i + 3)
  let b0 : Int16 ← b.coefficient i
  let b1 : Int16 ← b.coefficient (i + 1)
  let b2 : Int16 ← b.coefficient (i + 2)
  let b3 : Int16 ← b.coefficient (i + 3)
  let a1b1 : Int16 ← reduce (a1.toInt * b1.toInt)
  let a0b0 : Int16 ← reduce (a0.toInt * b0.toInt)
  let a1b0 : Int16 ← reduce (a1.toInt * b0.toInt)
  let a0b1 : Int16 ← reduce (a0.toInt * b1.toInt)
  let scaled : Int16 ← reduce (a1b1.toInt * z.toInt)
  let c0 ← checked (scaled.toInt + a0b0.toInt)
  let p ← p.put i c0
  let c1 ← checked (a0b1.toInt + a1b0.toInt)
  let p ← p.put (i + 1) c1
  let a3b3 : Int16 ← reduce (a3.toInt * b3.toInt)
  let a2b2 : Int16 ← reduce (a2.toInt * b2.toInt)
  let a3b2 : Int16 ← reduce (a3.toInt * b2.toInt)
  let a2b3 : Int16 ← reduce (a2.toInt * b3.toInt)
  let scaled : Int16 ← reduce (a3b3.toInt * z.toInt)
  let c2 ← checked (a2b2.toInt - scaled.toInt)
  let p ← p.put (i + 2) c2
  let c3 ← checked (a2b3.toInt + a3b2.toInt)
  p.put (i + 3) c3

/-- The product of two transformed polynomials, four coefficients at a time. -/
def mulHat (a b : Poly) : Outcome ε Poly :=
  (List.range 64).foldlM (mulGroup a b) zero

end Poly

end Gossveil.Lattice
