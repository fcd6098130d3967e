import PowerShare.Number.Notation

/-!
# Charge

Power figures are charges in milliampere hours. They come from measured energy or from a current
held for some time, and people read them with about three significant digits.

* `Charge.ofEnergy` and `Charge.ofCurrentTime` are plain rescalings: the voltage is already part
  of the energy figure;
* `Charge.text` chooses the count of decimal places by the size of the charge.
-/

namespace PowerShare

/-- A charge in milliampere hours. -/
abbrev Charge := Binary64

namespace Charge

/-- The charge of a measured energy in microjoules. -/
def ofEnergy (microjoules : Int64) : Charge :=
  Binary64.ofInt microjoules.toInt / Binary64.ofNat 3600000000 * Binary64.ofNat 1000

/-- The charge of a current held for a time, given as their product in milliampere
milliseconds. -/
def ofCurrentTime (product : Binary64) : Charge := product / Binary64.ofNat 3600000

/-- The bounds below which a charge is shown with so many decimal places, smallest first. -/
def bands : List (Decimal × Nat) :=
  [(⟨1, -5⟩, 8), (⟨1, -4⟩, 7), (⟨1, -3⟩, 6), (⟨1, -2⟩, 5), (⟨1, -1⟩, 4), (⟨1, 0⟩, 3), (⟨1, 1⟩, 2),
    (⟨1, 2⟩, 1)]

/-- How many decimal places a charge is shown with. -/
def places (charge : Charge) : Nat :=
  match bands.find? fun band => charge.abs.less (band.1.toBinary64 false) with
  | some band => band.2
  | none => 0

/-- The charge as people read it. -/
def text (charge : Charge) : String :=
  if charge.isZero then "0" else String.ofList (fixedPlaces charge.places charge)

end Charge

end PowerShare
