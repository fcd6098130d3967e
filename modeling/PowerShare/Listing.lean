import PowerShare.Report
import PowerShare.Settings
import PowerShare.SystemUsage

/-!
# Listings

What a person reads: lines of text with columns that end below one another. A column is filled up
to its width from the left and is wider where its text is; the number of a consumer is never
filled up.

`profileToml` is the exception: the currents of a profile as TOML text.
-/

namespace PowerShare

/-- A text with blanks in front of it up to the width. -/
def alignRight (width : Nat) (text : String) : String :=
  String.ofList (List.replicate (width - text.length) ' ') ++ text

/-- A title behind an empty line. -/
def titleLines (title : String) : List String := ["", "=== " ++ title ++ " ==="]

/-! ## 1. Marked lines -/

def doneLine (text : String) : String := "✓ " ++ text

def failedLine (text : String) : String := "✗ " ++ text

def noteLine (text : String) : String := "ℹ " ++ text

def warningLine (text : String) : String := "⚠ " ++ text

/-! ## 2. Reports -/

/-- A duration and a charge behind a label. -/
def usageLine (label : String) (duration : Duration) (charge : Charge) : String :=
  "  " ++ label ++ alignRight 10 duration.text ++ "ms " ++ alignRight 14 charge.text

/-- A count of bytes, or a dash. -/
def bytesText : Option UInt64 → String
  | some n => toString n.toNat
  | none => "-"

/-- The columns of a share behind the name of its consumer. -/
def shareColumns (consumer time charge rx tx basis : String) : String :=
  "  " ++ consumer ++ " " ++ alignRight 12 time ++ " " ++ alignRight 14 charge ++ " " ++
    alignRight 12 rx ++ " " ++ alignRight 12 tx ++ "  " ++ basis

/-- A share, and below it the run states with a charge above zero. -/
def shareLines (consumer : Consumer) (s : Share) : List String :=
  shareColumns consumer.text s.duration.text s.charge.text (bytesText s.rxBytes?)
      (bytesText s.txBytes?) s.basis.name ::
    match s.byState? with
    | none => []
    | some m =>
      (m.entries.filter fun e => Binary64.zero.less e.2).map fun e =>
        "  " ++ alignRight 10 e.1.state.name ++ " " ++ alignRight 27 (Charge.text e.2)

/-- A report with the given number of consumers. -/
def reportLines (top : Nat) (r : Report) : List String :=
  titleLines r.component.name ++
    [usageLine "Device:        " r.device.duration r.device.charge ++
        "  (" ++ r.device.basis.name ++ ")",
      usageLine "All consumers: " r.tracked.duration r.tracked.charge,
      usageLine "System only:   " r.systemDuration r.systemCharge] ++
    if r.shares.isEmpty then []
    else
      ["", shareColumns (alignRight 10 "CONSUMER") "TIME(ms)" "POWER" "RX" "TX" "MODEL"] ++
        ((r.top top).flatMap fun e => ((r.shares.get? e.1).map (shareLines e.1)).getD []) ++
        if top < r.shares.size then ["  ... " ++ toString (r.shares.size - top) ++ " more"] else []

/-- An outcome with the given number of consumers. -/
def outcomeLines (top : Nat) : Outcome → List String
  | .report r => reportLines top r
  | .unsupported component =>
    [warningLine (component.name ++ ": activity reporting not supported, skipped")]

/-! ## 3. Summaries -/

def systemLines : Option SystemUsage → List String
  | some u =>
    ("  System usage: " ++ u.duration.text ++ "ms " ++ u.charge.text) ::
      u.absorbed.map fun c => "    includes consumer " ++ c.text
  | none => ["  No system usage"]

/-- The summary of a component, or why it has none. -/
def summaryLines (component : Component) : Option Summary → List String
  | some s =>
    titleLines (s.component.name ++ " (legacy)") ++ systemLines s.system? ++
      ["  " ++ toString s.shares.size ++ " consumers, " ++
        toString (s.shares.values.filter (·.absorbed)).length ++ " folded into system usage"]
  | none => [noteLine (component.name ++ ": no legacy report (unusable profile)")]

/-! ## 4. Profiles -/

/-- A current with three places. -/
def currentColumn (x : Binary64) : String := alignRight 10 (String.ofList (fixedPlaces 3 x))

def profileColumns (component idle rx tx status : String) : String :=
  "  " ++ alignRight 10 component ++ " " ++ alignRight 10 idle ++ " " ++ alignRight 10 rx ++ " " ++
    alignRight 10 tx ++ "  " ++ status

/-- The currents of every component, and the system consumers if there are any. -/
def settingsLines (t : Settings) : List String :=
  titleLines "Power profile" ++
    [profileColumns "COMPONENT" "IDLE(mA)" "RX(mA)" "TX(mA)" "STATUS"] ++
    (Component.all.map fun component =>
      let c := t.profile.currents component
      profileColumns component.name (currentColumn c.idle) (currentColumn c.rx)
        (currentColumn c.tx) (if c.isUsable then "usable" else "unusable")) ++
    if t.system.isEmpty then []
    else [noteLine ("System consumers: " ++ ", ".intercalate (t.system.map Consumer.text))]

/-- A current of a TOML table. Whole numbers keep their point, so that they stay numbers. -/
def tomlEntry (mode : Mode) (x : Binary64) : String :=
  mode.name ++ "_ma = " ++ String.ofList (settingNotation.render x)

/-- The table of one component. -/
def tomlTable (component : Component) (c : Currents) : List String :=
  ("[" ++ component.name ++ "]") :: c.modes.map fun m => tomlEntry m.1 m.2

/-- A profile as TOML text, an empty line between the tables. -/
def profileToml (p : Profile) : List String :=
  [""].intercalate (Component.all.map fun component => tomlTable component (p.currents component))

end PowerShare
