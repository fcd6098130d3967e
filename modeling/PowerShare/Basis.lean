import PowerShare.Sample

/-!
# The basis of a power figure

A figure rests on the best data that a sample has: measured energy first, then the charge that the
component reported, then an estimate from the profile. `Basis.choose` decides on the bare data,
`Sample.basis` on a sample; every combination has exactly one basis.
-/

namespace PowerShare

/-- What a power figure rests on. -/
inductive Basis where
  /-- Energy that was measured. -/
  | measured
  /-- The charge reported by the component. -/
  | reported
  /-- Time in each mode and the currents of the profile. -/
  | estimated
  /-- Nothing; duration and power are zero. -/
  | unavailable
  deriving DecidableEq, Inhabited

namespace Basis

def all : List Basis := [measured, reported, estimated, unavailable]

def name : Basis → String
  | measured => "measured_energy"
  | reported => "reported_power"
  | estimated => "profile_estimate"
  | unavailable => "unavailable"

/-- The basis of a figure. Reported charge counts only beside usable currents, and not when an
estimate is forced. -/
def choose (energy? : Option Int64) (charge? : Option Charge) (usable forced : Bool) : Basis :=
  if energy?.any (0 ≤ ·) then measured
  else if !forced && charge?.any (fun c => !c.isZero && c.isFinite) && usable then reported
  else if usable then estimated
  else unavailable

end Basis

/-- What a caller may ask of one attribution. -/
structure Options where
  /-- Split every consumer's power by run state. -/
  breakdown : Bool := false
  /-- Estimate from the profile even where the component reported a charge. -/
  forceEstimate : Bool := false
  deriving DecidableEq, Inhabited

/-- The basis of the figures for one sample. -/
def Sample.basis (s : Sample) (currents : Currents) (options : Options) : Basis :=
  Basis.choose s.measured? s.reported? currents.isUsable options.forceEstimate

end PowerShare
