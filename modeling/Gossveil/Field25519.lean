import Mathlib.Algebra.Field.ZMod
import Gossveil.Pratt
import Gossveil.Scalars

namespace Gossveil

/-!
# The field of Edwards25519

A field element travels as 32 bytes, least significant first, of which the top
bit is free.  Both its modulus and the order of the group are prime.
-/

namespace Field25519

/-- The modulus, the order of the group and the primes these rest on. -/
def certificate : List Pratt.Entry :=
  [
    ⟨2, 1, []⟩, ⟨3, 2, [(2, 1)]⟩, ⟨5, 2, [(2, 2)]⟩, ⟨7, 3, [(2, 1), (3, 1)]⟩,
    ⟨11, 2, [(2, 1), (5, 1)]⟩, ⟨13, 2, [(2, 2), (3, 1)]⟩, ⟨17, 3, [(2, 4)]⟩,
    ⟨19, 2, [(2, 1), (3, 2)]⟩, ⟨23, 5, [(2, 1), (11, 1)]⟩,
    ⟨29, 2, [(2, 2), (7, 1)]⟩, ⟨31, 3, [(2, 1), (3, 1), (5, 1)]⟩,
    ⟨37, 2, [(2, 2), (3, 2)]⟩, ⟨41, 6, [(2, 3), (5, 1)]⟩,
    ⟨43, 3, [(2, 1), (3, 1), (7, 1)]⟩, ⟨47, 5, [(2, 1), (23, 1)]⟩,
    ⟨53, 2, [(2, 2), (13, 1)]⟩, ⟨59, 2, [(2, 1), (29, 1)]⟩,
    ⟨67, 2, [(2, 1), (3, 1), (11, 1)]⟩, ⟨73, 5, [(2, 3), (3, 2)]⟩,
    ⟨79, 3, [(2, 1), (3, 1), (13, 1)]⟩, ⟨83, 2, [(2, 1), (41, 1)]⟩,
    ⟨97, 5, [(2, 5), (3, 1)]⟩, ⟨103, 5, [(2, 1), (3, 1), (17, 1)]⟩,
    ⟨107, 2, [(2, 1), (53, 1)]⟩, ⟨113, 3, [(2, 4), (7, 1)]⟩,
    ⟨127, 3, [(2, 1), (3, 2), (7, 1)]⟩, ⟨131, 2, [(2, 1), (5, 1), (13, 1)]⟩,
    ⟨173, 2, [(2, 2), (43, 1)]⟩, ⟨223, 3, [(2, 1), (3, 1), (37, 1)]⟩,
    ⟨239, 7, [(2, 1), (7, 1), (17, 1)]⟩, ⟨269, 2, [(2, 2), (67, 1)]⟩,
    ⟨307, 5, [(2, 1), (3, 2), (17, 1)]⟩, ⟨353, 3, [(2, 5), (11, 1)]⟩,
    ⟨419, 2, [(2, 1), (11, 1), (19, 1)]⟩, ⟨479, 13, [(2, 1), (239, 1)]⟩,
    ⟨487, 3, [(2, 1), (3, 5)]⟩, ⟨991, 6, [(2, 1), (3, 2), (5, 1), (11, 1)]⟩,
    ⟨1361, 3, [(2, 4), (5, 1), (17, 1)]⟩,
    ⟨1723, 3, [(2, 1), (3, 1), (7, 1), (41, 1)]⟩,
    ⟨2437, 2, [(2, 2), (3, 1), (7, 1), (29, 1)]⟩,
    ⟨2551, 6, [(2, 1), (3, 1), (5, 2), (17, 1)]⟩,
    ⟨2851, 2, [(2, 1), (3, 1), (5, 2), (19, 1)]⟩,
    ⟨2939, 2, [(2, 1), (13, 1), (113, 1)]⟩,
    ⟨3727, 3, [(2, 1), (3, 4), (23, 1)]⟩, ⟨3797, 2, [(2, 2), (13, 1), (73, 1)]⟩,
    ⟨4153, 5, [(2, 3), (3, 1), (173, 1)]⟩, ⟨5879, 11, [(2, 1), (2939, 1)]⟩,
    ⟨9463, 3, [(2, 1), (3, 1), (19, 1), (83, 1)]⟩,
    ⟨17231, 13, [(2, 1), (5, 1), (1723, 1)]⟩,
    ⟨22111, 6, [(2, 1), (3, 1), (5, 1), (11, 1), (67, 1)]⟩,
    ⟨30703, 3, [(2, 1), (3, 1), (7, 1), (17, 1), (43, 1)]⟩,
    ⟨32573, 2, [(2, 2), (17, 1), (479, 1)]⟩,
    ⟨34123, 2, [(2, 1), (3, 1), (11, 2), (47, 1)]⟩,
    ⟨37853, 2, [(2, 2), (9463, 1)]⟩,
    ⟨41081, 3, [(2, 3), (5, 1), (13, 1), (79, 1)]⟩,
    ⟨57467, 2, [(2, 1), (59, 1), (487, 1)]⟩, ⟨65147, 2, [(2, 1), (32573, 1)]⟩,
    ⟨75707, 2, [(2, 1), (37853, 1)]⟩, ⟨82163, 2, [(2, 1), (41081, 1)]⟩,
    ⟨132049, 26, [(2, 4), (3, 2), (7, 1), (131, 1)]⟩,
    ⟨132667, 5, [(2, 1), (3, 1), (22111, 1)]⟩,
    ⟨137849, 3, [(2, 3), (17231, 1)]⟩,
    ⟨409477, 2, [(2, 2), (3, 1), (34123, 1)]⟩,
    ⟨430751, 17, [(2, 1), (5, 3), (1723, 1)]⟩,
    ⟨531581, 2, [(2, 2), (5, 1), (7, 1), (3797, 1)]⟩,
    ⟨569003, 2, [(2, 1), (7, 1), (97, 1), (419, 1)]⟩,
    ⟨1224481, 13, [(2, 5), (3, 1), (5, 1), (2551, 1)]⟩,
    ⟨1923133, 2, [(2, 2), (3, 1), (43, 1), (3727, 1)]⟩,
    ⟨8574133, 2, [(2, 2), (3, 1), (7, 1), (103, 1), (991, 1)]⟩,
    ⟨14741173, 2, [(2, 2), (3, 2), (409477, 1)]⟩,
    ⟨58964693, 2, [(2, 2), (14741173, 1)]⟩,
    ⟨292386187, 2, [(2, 1), (3, 4), (307, 1), (5879, 1)]⟩,
    ⟨2773320623, 5, [(2, 1), (2437, 1), (569003, 1)]⟩,
    ⟨72106336199, 7, [(2, 1), (13, 1), (2773320623, 1)]⟩,
    ⟨213441916511, 13, [(2, 1), (5, 1), (73, 1), (292386187, 1)]⟩,
    ⟨1257559732178653, 2,
      [(2, 2), (3, 1), (7, 1), (23, 1), (531581, 1), (1224481, 1)]⟩,
    ⟨1919519569386763, 2,
      [(2, 1), (3, 1), (7, 1), (19, 1), (47, 2), (127, 1), (8574133, 1)]⟩,
    ⟨31757755568855353, 10,
      [(2, 3), (3, 1), (31, 1), (107, 1), (223, 1), (4153, 1), (430751, 1)]⟩,
    ⟨4434155615661930479, 17,
      [(2, 1), (41, 1), (43, 1), (1257559732178653, 1)]⟩,
    ⟨3044861653679985063343, 5,
      [(2, 1), (3, 1), (11, 1), (30703, 1), (82163, 1), (132667, 1),
        (137849, 1)]⟩,
    ⟨172054593956031949258510691, 2,
      [(2, 1), (5, 1), (1361, 1), (2851, 1), (4434155615661930479, 1)]⟩,
    ⟨198211423230930754013084525763697, 5,
      [(2, 4), (3, 1), (23, 1), (58964693, 1), (3044861653679985063343, 1)]⟩,
    ⟨75445702479781427272750846543864801, 7,
      [(2, 5), (3, 2), (5, 2), (75707, 1), (72106336199, 1),
        (1919519569386763, 1)]⟩,
    ⟨19757330305831588566944191468367130476339, 2,
      [(2, 1), (269, 1), (213441916511, 1), (172054593956031949258510691, 1)]⟩,
    ⟨276602624281642239937218680557139826668747, 2,
      [(2, 1), (7, 1), (19757330305831588566944191468367130476339, 1)]⟩,
    ⟨74058212732561358302231226437062788676166966415465897661863160754340907, 2,
      [(2, 1), (3, 1), (353, 1), (57467, 1), (132049, 1), (1923133, 1),
        (31757755568855353, 1), (75445702479781427272750846543864801, 1)]⟩,
    ⟨2 ^ 252 + 27742317777372353535851937790883648493, 2,
      [(2, 2), (3, 1), (11, 1), (198211423230930754013084525763697, 1),
        (276602624281642239937218680557139826668747, 1)]⟩,
    ⟨2 ^ 255 - 19, 2,
      [(2, 2), (3, 1), (65147, 1),
        (74058212732561358302231226437062788676166966415465897661863160754340907, 1)]⟩
  ]

/-- The certificate passes its check. -/
theorem certificate_accepted : Pratt.accepted 256 [] certificate = true := by
  decide +kernel

theorem certified_prime
    {entry : Pratt.Entry}
    (certified : entry ∈ certificate) :
    entry.prime.Prime :=
  Pratt.prime_of_accepted (List.forall_mem_nil _) certificate_accepted entry
    certified

/-- The modulus of the field is prime. -/
theorem modulus_prime : (2 ^ 255 - 19).Prime :=
  certified_prime (List.mem_of_mem_getLast? rfl)

end Field25519

/-- The order of the group is prime. -/
theorem Scalar.groupOrder_prime : Scalar.groupOrder.Prime :=
  Field25519.certified_prime
    (List.mem_of_mem_getLast? (l := Field25519.certificate.dropLast) rfl
      |> List.mem_of_mem_dropLast)

/-- An element of the field of the curve. -/
abbrev Fe : Type :=
  ZMod (2 ^ 255 - 19)

instance fieldPrime : Fact (2 ^ 255 - 19).Prime :=
  ⟨Field25519.modulus_prime⟩

end Gossveil
