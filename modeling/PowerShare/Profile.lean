import PowerShare.Charge
import PowerShare.Component
import PowerShare.Duration

/-!
# Power profiles

A profile says what current each component draws while idle, receiving and transmitting. It is
calibration data, so it may be missing (all zero) and has to be checked:

* `Currents.isUsable` : an estimate needs all three currents, none of them zero;
* `Currents.check` and `Profile.check` refuse negative and non-finite currents, and name the first
  one in the order of components and of activities.
-/

namespace PowerShare

/-- What a component does while it draws a current. -/
inductive Mode where
  | idle
  | rx
  | tx
  deriving DecidableEq

def Mode.name : Mode → String
  | .idle => "idle"
  | .rx => "rx"
  | .tx => "tx"

/-- The current in milliamperes that a component draws in each mode. -/
structure Currents where
  idle : Binary64 := .zero
  rx : Binary64 := .zero
  tx : Binary64 := .zero
  deriving DecidableEq, Inhabited

/-- Why a name or a profile is refused. -/
inductive ProfileError where
  | unknownComponent (text : String)
  | invalidCurrent (component : Component) (mode : Mode) (value : Binary64)
  deriving DecidableEq

def ProfileError.message : ProfileError → String
  | .unknownComponent text => "unknown component: " ++ text
  | .invalidCurrent component mode value =>
    "invalid " ++ mode.name ++ " constant for " ++ component.name ++ ": " ++
      String.ofList (Notation.plain.render value)

/-- The component that a person means, or why the text names none. -/
def Component.parse (text : String) : Except ProfileError Component :=
  match Component.ofAlias? text with
  | some component => .ok component
  | none => .error (.unknownComponent text)

namespace Currents

def modes (c : Currents) : List (Mode × Binary64) := [(.idle, c.idle), (.rx, c.rx), (.tx, c.tx)]

/-- An estimate can be made only from three finite currents that are not zero. -/
def isUsable (c : Currents) : Bool := c.modes.all fun m => !m.2.isZero && m.2.isFinite

/-- A current that a profile may hold. Zero is allowed; it makes the currents unusable. -/
def isValid (value : Binary64) : Bool := value.isFinite && !value.less .zero

/-- The charge drawn in the given times. -/
def estimate (c : Currents) (idle rx tx : Duration) : Charge :=
  Charge.ofCurrentTime
    (Binary64.ofNat idle.toNat * c.idle + Binary64.ofNat rx.toNat * c.rx +
      Binary64.ofNat tx.toNat * c.tx)

/-- The first current that is not valid, as an error. -/
def check (component : Component) (c : Currents) : Except ProfileError Unit :=
  match c.modes.find? fun m => !isValid m.2 with
  | some m => .error (.invalidCurrent component m.1 m.2)
  | none => .ok ()

end Currents

/-- The currents of every component. -/
structure Profile where
  bluetooth : Currents := {}
  wifi : Currents := {}
  modem : Currents := {}
  deriving DecidableEq, Inhabited

namespace Profile

def currents (p : Profile) : Component → Currents
  | .bluetooth => p.bluetooth
  | .wifi => p.wifi
  | .modem => p.modem

/-- The profile with one component's currents replaced. -/
def set (p : Profile) (component : Component) (c : Currents) : Profile :=
  match component with
  | .bluetooth => { p with bluetooth := c }
  | .wifi => { p with wifi := c }
  | .modem => { p with modem := c }

/-- Replacing the currents of one component leaves those of the others. -/
theorem currents_set (p : Profile) (component other : Component) (c : Currents) :
    (p.set other c).currents component = if component = other then c else p.currents component := by
  cases component <;> cases other <;> rfl

/-- The first invalid current of the first component that has one, as an error. -/
def check (p : Profile) : Except ProfileError Unit :=
  Component.all.forM fun component => (p.currents component).check component

end Profile

end PowerShare
