/-!
# Paths as they are spelled

A path is a text; slashes divide it into segments.  Paths are taken apart and put together
as texts, without looking at any file system, so a path keeps its spelling: the parent of
a path is a beginning of it, and joining adds to its end.

Empty segments and `.` segments do not count, except for a `.` that starts a relative
path.  What is left are the components; the last one is the file name, unless it is `.` or
`..`.

The file name without its extension is the stem.  The extension starts at the last dot,
but a dot in front of everything else does not start one.
-/

namespace StackScript

/-- A path, as it is spelled. -/
structure Path where
  /-- The spelling. -/
  text : String
  deriving DecidableEq, Repr

namespace Path

/-- A segment of a path: characters without a slash. -/
abbrev Segment := List Char

/-- The segments between slashes; there is always at least one. -/
def split : List Char → List Segment
  | [] => [[]]
  | c :: cs =>
      if c = '/' then
        [] :: split cs
      else
        match split cs with
        | [] => [[c]]
        | s :: ss => (c :: s) :: ss

/-- Segments with slashes between them. -/
def unsplit : List Segment → List Char
  | [] => []
  | [s] => s
  | s :: ss => s ++ '/' :: unsplit ss

/-- Whether a path starts at the root. -/
def isRooted (p : Path) : Bool :=
  p.text.toList.head? == some '/'

/-- The segments behind the root. -/
def segments (p : Path) : List Segment :=
  match p.text.toList with
  | '/' :: cs => split cs
  | cs => split cs

/-- Put a path together from its segments. -/
def ofSegments (rooted : Bool) (ss : List Segment) : Path :=
  ⟨String.ofList (if rooted then '/' :: unsplit ss else unsplit ss)⟩

/-- Whether a segment is a component.  The flag says whether it starts a relative path. -/
def counts (leading : Bool) (s : Segment) : Bool :=
  s != [] && (leading || s != ['.'])

/-- Cut off what follows the last component. -/
def trimmed (leading : Bool) : List Segment → List Segment
  | [] => []
  | s :: ss =>
      match trimmed false ss with
      | [] => if counts leading s then [s] else []
      | t :: ts => s :: t :: ts

/-- The segments up to the last component. -/
def body (p : Path) : List Segment :=
  trimmed (!p.isRooted) p.segments

/-- The last component. -/
def last? (p : Path) : Option Segment :=
  p.body.getLast?

/-- The path without its last component; a path without components has no parent. -/
def parent? (p : Path) : Option Path :=
  if p.body.isEmpty then none
  else some (ofSegments p.isRooted (trimmed (!p.isRooted) p.body.dropLast))

/-- The last component, if it is a name. -/
def fileName? (p : Path) : Option Segment :=
  match p.last? with
  | some s => if s = ['.'] ∨ s = ['.', '.'] then none else some s
  | none => none

/-- What stands before the last dot of a name, if there is a dot. -/
def beforeLastDot? (s : Segment) : Option Segment :=
  match s.reverse.dropWhile (· != '.') with
  | [] => none
  | _ :: front => some front.reverse

/-- A name without its extension. -/
def stemOf (s : Segment) : Segment :=
  match beforeLastDot? s with
  | none => s
  | some [] => s
  | some front => front

/-- The file name without its extension. -/
def stem? (p : Path) : Option Segment :=
  p.fileName?.map stemOf

/-- Whether a slash is needed before something is added to a path. -/
def needsSlash (p : Path) : Bool :=
  match p.text.toList.getLast? with
  | none => false
  | some c => c != '/'

/-- One path behind another; a path that starts at the root replaces what is before it. -/
def join (p q : Path) : Path :=
  if q.isRooted then q
  else if p.needsSlash then ⟨p.text ++ "/" ++ q.text⟩
  else ⟨p.text ++ q.text⟩

/-- A path, its parent, the parent of that, and so on, at most `n` of them behind the first. -/
def climb (p : Path) : Nat → List Path
  | 0 => [p]
  | n + 1 =>
      match p.parent? with
      | some q => p :: q.climb n
      | none => [p]

/-- A path and all its parents.  Every step up takes at least one segment away. -/
def ancestors (p : Path) : List Path :=
  p.climb p.segments.length

end Path

end StackScript
