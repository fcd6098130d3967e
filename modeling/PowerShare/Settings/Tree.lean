import PowerShare.Toml.Value

/-!
# Trees of settings

Settings from several sources are laid over one another in one tree. A value in it remembers its
*origin*, the source that gave it, for messages; what came about by laying tables together has
none.

A value is set at a *path* of steps (`Setting.setAt`):

* a table is merged into what is there, member by member, and any other value replaces it
  (`Setting.put`);
* on the way, whatever is no table gives way to a table where a name goes on, and whatever is no
  list to a list where a position goes on.
-/

namespace PowerShare

/-- One step into a tree of settings. -/
inductive Step where
  | name (key : String)
  /-- A position in a list. Negative ones count from the end. -/
  | item (index : Int)
  deriving DecidableEq, Inhabited

/-- A value that has no parts. -/
inductive Scalar where
  | nothing
  | boolean (value : Bool)
  | integer (value : Int64)
  | number (value : Binary64)
  | text (value : String)
  deriving DecidableEq, Inhabited

/-- A tree of settings. -/
inductive Setting where
  | scalar (origin? : Option String) (value : Scalar)
  | list (origin? : Option String) (items : List Setting)
  | table (origin? : Option String) (members : List (String × Setting))

namespace Setting

/-- What stands where nothing was set yet. -/
def nothing : Setting := .scalar none .nothing

instance : Inhabited Setting := ⟨nothing⟩

/-- A table without members. -/
def emptyTable : Setting := .table none []

/-! ## 1. Members and items -/

/-- Changes the value under a key, or adds one. -/
def alterMember (key : String) (change : Option Setting → Setting) :
    List (String × Setting) → List (String × Setting)
  | [] => [(key, change none)]
  | (k, s) :: rest =>
    if k == key then (k, change (some s)) :: rest else (k, s) :: alterMember key change rest

/-- Changes the members of a table; what is no table counts as an empty one. -/
def onTable (change : List (String × Setting) → List (String × Setting)) : Setting → Setting
  | .table origin? members => .table origin? (change members)
  | .scalar _ _ | .list _ _ => .table none (change [])

/-- Changes the items of a list; what is no list counts as an empty one. -/
def onList (change : List Setting → List Setting) : Setting → Setting
  | .list origin? items => .list origin? (change items)
  | .scalar _ _ | .table _ _ => .list none (change [])

/-- The position of an index in a list of the given length. -/
def position (length : Nat) (index : Int) : Nat :=
  if 0 ≤ index then index.natAbs else length - index.natAbs

/-- Changes the item at an index. A list that is too short is filled up. -/
def alterItem (index : Int) (change : Setting → Setting) (items : List Setting) : List Setting :=
  let i := position items.length index
  let filled := items ++ List.replicate (i + 1 - items.length) nothing
  filled.modify i change

/-! ## 2. Setting a value -/

mutual

/-- Sets a member of a table: a table is merged into what is there, anything else replaces it. -/
def put (parent : Setting) (key : String) (value : Setting) : Setting :=
  match value with
  | .table _ members =>
    parent.onTable (alterMember key fun old? => putAll (old?.getD emptyTable) members)
  | .scalar o v => parent.onTable (alterMember key fun _ => .scalar o v)
  | .list o items => parent.onTable (alterMember key fun _ => .list o items)

/-- Sets members one after another. -/
def putAll (parent : Setting) : List (String × Setting) → Setting
  | [] => parent
  | (key, value) :: rest => putAll (put parent key value) rest

end

/-- Sets the value at a path. -/
def setAt (value : Setting) : Step → List Step → Setting → Setting
  | .name key, [], parent => parent.put key value
  | .item index, [], parent => parent.onList (alterItem index fun _ => value)
  | .name key, step :: rest, parent =>
    parent.onTable (alterMember key fun old? => setAt value step rest (old?.getD nothing))
  | .item index, step :: rest, parent => parent.onList (alterItem index (setAt value step rest))

/-! ## 3. Settings of a TOML text -/

mutual

/-- A TOML value as settings of the given origin. -/
def ofToml (origin : String) : Toml.Value → Setting
  | .text value => .scalar (some origin) (.text value)
  | .integer value => .scalar (some origin) (.integer value)
  | .number value => .scalar (some origin) (.number value)
  | .boolean value => .scalar (some origin) (.boolean value)
  | .moment value => .scalar (some origin) (.text (String.ofList value.text))
  | .list items => .list (some origin) (ofTomlItems origin items)
  | .table members => .table (some origin) (ofTomlMembers origin members)

def ofTomlItems (origin : String) : List Toml.Value → List Setting
  | [] => []
  | item :: rest => ofToml origin item :: ofTomlItems origin rest

def ofTomlMembers (origin : String) : List (String × Toml.Value) → List (String × Setting)
  | [] => []
  | (key, value) :: rest => (key, ofToml origin value) :: ofTomlMembers origin rest

end

end Setting

end PowerShare
