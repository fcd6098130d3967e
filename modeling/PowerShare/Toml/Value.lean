import PowerShare.Number.Binary64
import PowerShare.Toml.Moment

/-!
# TOML values and tables that are still open

A `Value` is what a finished text spells.

While lines are read, a table may still grow, and who may add to it depends on how it came about
(`Standing`). So the tables are kept as `Node`s until the last line:

* a dotted key adds to tables that dotted keys of the same table made, and to no others
  (`addValue`);
* a header goes through tables with or without a header of their own, and into the last table of
  a list of tables (`place`); it states a table only once.

What may not be added to stays as it is, and the new entry stands beside it under the same key.
Closing a table (`Node.close`) refuses keys that are there twice.

There are two spellings of a moment: a word, and a table whose first key is `momentKey`. Such a
table is complete with its first entry, and nothing else in it is looked at. What headers would add
to it is left over: in a list of tables it belongs to the next one, and elsewhere to nobody, and
that is refused.
-/

namespace PowerShare.Toml

/-! ## 1. Values -/

inductive Value where
  | text (value : String)
  | integer (value : Int64)
  | number (value : Binary64)
  | boolean (value : Bool)
  | moment (value : Moment)
  | list (items : List Value)
  | table (members : List (String × Value))
  deriving Inhabited

/-! ## 2. Open tables -/

/-- How a table came about. -/
inductive Standing where
  /-- It is written between braces. -/
  | braced
  /-- A dotted key names it. -/
  | dotted
  /-- A header names a table inside it. -/
  | implied
  /-- A header names it. -/
  | stated
  deriving DecidableEq

/-- A value, or tables that may still grow. -/
inductive Node where
  /-- A value that has no parts. -/
  | value (value : Value)
  | list (items : List Node)
  | table (standing : Standing) (members : List (String × Node))
  /-- A list of tables with a header each. Only the last one is open, and if it is a moment, the
  members that are left over wait for the next one. -/
  | tables (earlier : List Node) (last leftOver : List (String × Node))

/-- The members of an open table. -/
abbrev Members := List (String × Node)

/-- The key that makes a table a moment, if it is the first one. -/
def momentKey : String := "$__toml_private_datetime"

/-- What stands for the moment that a table is, if it is one. -/
def Members.momentNode? : Members → Option Node
  | [] => none
  | (key, node) :: _ => if key == momentKey then some node else none

/-- The moment that a text spells. -/
def Node.moment : Node → Except Refused Value
  | .value (.text text) => do return .moment (← Moment.parse text.toList)
  | _ => .error .malformed

mutual

/-- The value of a node that grows no more. -/
def Node.close : Node → Except Refused Value
  | .value v => .ok v
  | .list items => do return .list (← closeItems items)
  | .table _ members =>
    match Members.momentNode? members with
    | some node => node.moment
    | none => do return .table (← closeMembers members)
  | .tables earlier last leftOver => do
    let items ← closeItems earlier
    if !leftOver.isEmpty then throw .malformed
    match Members.momentNode? last with
    | some node => return .list (items ++ [← node.moment])
    | none => return .list (items ++ [.table (← closeMembers last)])

/-- The values of items that grow no more. -/
def closeItems : List Node → Except Refused (List Value)
  | [] => .ok []
  | item :: rest => do return (← item.close) :: (← closeItems rest)

/-- The values of members that grow no more, each of which has a key of its own. -/
def closeMembers : List (String × Node) → Except Refused (List (String × Value))
  | [] => .ok []
  | (key, node) :: rest =>
    if rest.any (·.1 == key) then .error .malformed
    else do return (key, ← node.close) :: (← closeMembers rest)

end

/-- The keys that lead to a value, of which there is at least one. -/
structure Path where
  first : String
  rest : List String
  deriving DecidableEq, Inhabited

namespace Members

/-- Changes what is under a key. What cannot be changed is joined by a new entry, and so is
nothing. -/
def change (key : String) (how : Node → Option Node) (new : Node) : Members → Members
  | [] => [(key, new)]
  | (k, node) :: rest =>
    if k == key then
      match how node with
      | some changed => (k, changed) :: rest
      | none => (k, node) :: rest ++ [(key, new)]
    else (k, node) :: change key how new rest

/-! ## 3. Dotted keys -/

/-- Lets a dotted key go on inside the table that dotted keys made under its first part. -/
def insideDotted (go : Members → Except Refused Members) (key : String) :
    Members → Except Refused Members
  | [] => do return [(key, .table .dotted (← go []))]
  | (k, node) :: rest =>
    if k == key then
      match node with
      | .table .dotted members => do return (k, .table .dotted (← go members)) :: rest
      | _ => .error .malformed
    else do return (k, node) :: (← insideDotted go key rest)

/-- Adds a value under a dotted key. -/
def addValue (node : Node) (key : String) : List String → Members → Except Refused Members
  | [], members => .ok (members ++ [(key, node)])
  | next :: rest, members => insideDotted (addValue node next rest) key members

/-! ## 4. Headers -/

/-- Whether headers may add to a table with a header: not to a moment. -/
def isOpen (members : Members) : Bool := (momentNode? members).isNone

/-- Lets a header go on inside what is under its first part. -/
def insideOpen (go : Members → Members) : Node → Option Node
  | .table .implied members => some (.table .implied (go members))
  | .table .stated members =>
    if isOpen members then some (.table .stated (go members)) else none
  | .tables earlier last leftOver =>
    if isOpen last then some (.tables earlier (go last) leftOver)
    else some (.tables earlier last (go leftOver))
  | _ => none

/-- Changes what is under the last part of a header. -/
def place (how : Node → Option Node) (new : Node) (key : String) : List String → Members → Members
  | [] => change key how new
  | next :: rest =>
    change key (insideOpen (place how new next rest)) (.table .implied (place how new next rest []))

/-- Gives a table a header of its own. -/
def stateTable (body : Members) : Node → Option Node
  | .table .implied members => some (.table .stated (members ++ body))
  | _ => none

/-- Adds one more table to a list. -/
def addTable (body : Members) : Node → Option Node
  | .tables earlier last leftOver =>
    let complete := earlier ++ [.table .stated last]
    if isOpen body then some (.tables complete (body ++ leftOver) [])
    else some (.tables complete body leftOver)
  | _ => none

end Members

end PowerShare.Toml
