import PowerShare.Text.Pattern.Reading

/-!
# Usable patterns

Not every pattern that can be read is of use (`Pattern.isUsable`):

* it must not be nested deeper than `Pattern.depthLimit`;
* while characters are those of the standard, there are no tables of their kinds, their cases and
  their words: the short classes, letters of any case and the edges of words need bytes;
* what matches single bytes must match none but those of one-byte characters.
-/

namespace PowerShare

/-! ## 1. Depth -/

namespace CharSet

mutual

/-- How deep sets lie in a set. -/
def depth : CharSet → Nat
  | union sets => depthOfAll sets + 1
  | operation left right => max left.depth right.depth + 1
  | bracketed _ inner => inner.depth + 1
  | _ => 0

/-- How deep sets lie in the deepest of some sets. -/
def depthOfAll : List CharSet → Nat
  | [] => 0
  | set :: rest => max set.depth (depthOfAll rest)

end

end CharSet

namespace Pattern

mutual

/-- How deep patterns lie in a pattern. -/
def depth : Pattern → Nat
  | set _ inner => inner.depth + 1
  | repeated p => p.depth + 1
  | group _ p => p.depth + 1
  | sequence ps => depthOfAll ps + 1
  | choice ps => depthOfAll ps + 1
  | _ => 0

/-- How deep patterns lie in the deepest of some patterns. -/
def depthOfAll : List Pattern → Nat
  | [] => 0
  | p :: rest => max p.depth (depthOfAll rest)

end

/-- The depth up to which patterns are used. -/
def depthLimit : Nat := 250

end Pattern

/-! ## 2. Modes -/

/-- How a place of a pattern is understood. -/
structure PatternMode where
  /-- Letters stand for both cases. -/
  anyCase : Bool := false
  /-- Bytes are matched, and not characters. -/
  bytes : Bool := false
  deriving DecidableEq, Inhabited

/-- The mode behind a switch. -/
def PatternMode.switched (m : PatternMode) (s : PatternSwitch) : PatternMode :=
  { anyCase := (s.setting? 'i').getD m.anyCase
    bytes := ((s.setting? 'u').map (!·)).getD m.bytes }

/-- Whether a character takes one byte. -/
def isSingleByte (c : Char) : Bool := c.toNat < 128

/-- Whether a class of one-byte characters is usable. What it leaves out is no such class. -/
def PatternMode.allowsClass (m : PatternMode) (negated : Bool) : Bool :=
  if m.bytes then !negated else !m.anyCase

mutual

/-- Whether a set of characters is usable. -/
def CharSet.isUsable (m : PatternMode) : CharSet → Bool
  | .nothing => true
  | .char c => if m.bytes then isSingleByte c else !m.anyCase
  | .span first last => if m.bytes then isSingleByte first && isSingleByte last else !m.anyCase
  | .named negated => m.allowsClass negated
  | .short negated => m.bytes && !negated
  | .union sets => CharSet.areUsable m sets
  | .operation left right => left.isUsable m && right.isUsable m
  | .bracketed negated inner => inner.isUsable m && !(m.bytes && negated)

/-- Whether sets of characters are usable. -/
def CharSet.areUsable (m : PatternMode) : List CharSet → Bool
  | [] => true
  | set :: rest => set.isUsable m && CharSet.areUsable m rest

end

namespace Pattern

mutual

/-- The mode behind a pattern, if the pattern is usable. A switch goes on to the end of its
group. -/
def modeAfter? (m : PatternMode) : Pattern → Option PatternMode
  | nothing => some m
  | char c asByte =>
    if if m.bytes then !asByte || isSingleByte c else !m.anyCase then some m else none
  | any => if m.bytes then none else some m
  | edge => some m
  | wordEdge => if m.bytes then some m else none
  | short negated => if m.bytes && !negated then some m else none
  | set negated inner => if inner.isUsable m && !(m.bytes && negated) then some m else none
  | switch s => some (m.switched s)
  | repeated p => p.modeAfter? m
  | group s p => (p.modeAfter? (m.switched s)).map fun _ => m
  | sequence ps => modeAfterAll? m ps
  | choice ps => modeAfterAll? m ps

/-- The mode behind patterns, one after another, if they are usable. -/
def modeAfterAll? (m : PatternMode) : List Pattern → Option PatternMode
  | [] => some m
  | p :: rest => (p.modeAfter? m).bind fun next => modeAfterAll? next rest

end

/-- Whether a pattern can be used. -/
def isUsable (p : Pattern) : Bool := p.depth ≤ depthLimit && (p.modeAfter? {}).isSome

end Pattern

/-- Whether a text is a usable pattern. -/
def isPattern (text : List Char) : Bool := (Pattern.parse? text).any Pattern.isUsable

end PowerShare
