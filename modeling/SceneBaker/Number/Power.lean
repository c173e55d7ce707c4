/-! # Powers

A power with a natural exponent is the standard one of its base, whatever other structure is known
of the base. A base of unknown type is a natural.
-/

namespace SceneBaker.Number

@[default_instance 12000]
instance (priority := 12000) powNat : Pow Nat Nat := @instPowNat Nat instNatPowNat

@[default_instance 11000]
instance (priority := 11000) powInt : Pow Int Nat := @instPowNat Int Int.instNatPow

end SceneBaker.Number
