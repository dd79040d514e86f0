import ClangLens.Text.Utf8

/-!
# Paths

A path is a byte string as it was spelled; what it means is its list of components. Equality and
order of meanings are those of component lists, so repeated slashes, a trailing slash and a `.`
inside a path do not matter.
-/

namespace ClangLens

/-- A path as spelled. -/
structure Path where
  bytes : Bytes
deriving DecidableEq, Inhabited

namespace Path

/-- The path spelled by a text. -/
def ofString (s : String) : Path := ⟨Utf8.encode s⟩

/-- The text of a path, stray bytes replaced. -/
def text (p : Path) : String := Utf8.lossy p.bytes

/-- The text of a path without stray bytes. -/
def text? (p : Path) : Option String := Utf8.decode? p.bytes

/-- The byte between components. -/
def separator : UInt8 := 47

/-- The byte that a path is cut at in front of an extension. -/
def dot : UInt8 := 46

/-- The bytes between slashes, empty ones included: one more than there are slashes. -/
def segments : Bytes → List Bytes
  | [] => [[]]
  | b :: rest =>
    match segments rest with
    | [] => [[b]]
    | s :: more => if b = separator then [] :: s :: more else (b :: s) :: more

/-- Segments with a slash between each two. -/
def unsegments : List Bytes → Bytes
  | [] => []
  | [s] => s
  | s :: rest => s ++ separator :: unsegments rest

/-- Whether a path starts at the root. -/
def isAbsolute (p : Path) : Bool := p.bytes.head? = some separator

/-- A step of a path. -/
inductive Component where
  | root
  /-- The `.` that a relative path starts with. -/
  | here
  | up
  | name (bytes : Bytes)
deriving DecidableEq

/-- The place of a component's shape in the order. -/
def Component.rank : Component → Nat
  | .root => 0
  | .here => 1
  | .up => 2
  | .name _ => 3

/-- The name of a component, empty where it has none. -/
def Component.bytes : Component → Bytes
  | .name b => b
  | _ => []

/-- Components compare by shape, names by their bytes. -/
def Component.compare (a b : Component) : Ordering :=
  (Ord.compare a.rank b.rank).then (List.compareLex Ord.compare a.bytes b.bytes)

/-- The component of a segment behind the first, if it has a meaning. -/
def Component.ofSegment? (segment : Bytes) : Option Component :=
  if segment = [] then none
  else if segment = [dot] then none
  else if segment = [dot, dot] then some .up
  else some (.name segment)

/-- The components of a path. -/
def components (p : Path) : List Component :=
  match segments p.bytes with
  | [] => []
  | first :: rest =>
    let lead : Option Component :=
      if p.isAbsolute then some .root
      else if first = [dot] then some .here
      else Component.ofSegment? first
    lead.toList ++ rest.filterMap Component.ofSegment?

/-- Two paths with the same components. -/
def same (p q : Path) : Bool := p.components = q.components

/-- The order of component lists: a shorter list comes before its continuations. -/
def compare (p q : Path) : Ordering :=
  List.compareLex Component.compare p.components q.components

/-- Whether a path comes no later than another. -/
def le (p q : Path) : Bool := p.compare q ≠ .gt

/-- The second path seen from the first; an absolute path stays as it is. -/
def join (p q : Path) : Path :=
  if q.isAbsolute then q
  else if p.bytes = [] || p.bytes.getLast? = some separator then ⟨p.bytes ++ q.bytes⟩
  else ⟨p.bytes ++ separator :: q.bytes⟩

end Path

end ClangLens
