/-!
# Powers

`2 ^ 64` is the core library's power in every module. A module that imports algebra would take the
power of monoids instead, and its words would be bounded by other terms than the words of the
modules below it.
-/

namespace PowerShare

@[default_instance 20000]
instance (priority := 20000) powNat : Pow Nat Nat := @instPowNat Nat instNatPowNat

/-- A base of which nothing is known is a natural number, so this instance comes second. -/
@[default_instance 15000]
instance (priority := 20000) powInt : Pow Int Nat := @instPowNat Int Int.instNatPow

end PowerShare
