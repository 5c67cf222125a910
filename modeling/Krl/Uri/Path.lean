import Krl.Text.Split
import Krl.Uri.Escape

/-!
# Paths of URIs

A path is a list of segments, each with a slash in front. While it is read, segments that say to
stay or to go up are followed, so none of them is written. A segment that names a drive, a letter
with a colon or a bar, is never left again. Tabs and line breaks are left out, but one right behind
the colon of a drive keeps it apart from what follows.

* `up_of_drive`: going up does not leave a drive.
-/

set_option autoImplicit false

namespace Krl.Uri

/-- Tabs and line breaks are no part of a URI. -/
def isBreak (c : Char) : Bool := ['\t', '\n', '\r'].contains c

/-- A text without tabs and line breaks. -/
def unbroken (cs : List Char) : List Char := cs.filter fun c => !isBreak c

/-- One segment of a path. -/
abbrev Segment := List Char

namespace Segment

/-- What a segment says when it is read. -/
inductive Move where
  | stay
  | up
  | into (name : List Char)
deriving DecidableEq, Repr

/-- A dot may also be written as an escape. -/
def plainDots : List Char → List Char
  | '%' :: '2' :: 'e' :: cs => '.' :: plainDots cs
  | '%' :: '2' :: 'E' :: cs => '.' :: plainDots cs
  | c :: cs => c :: plainDots cs
  | [] => []

/-- One dot says to stay and two say to go up. -/
def move (s : Segment) : Move :=
  let dots := plainDots s
  if dots = ['.'] then .stay else if dots = ['.', '.'] then .up else .into s

/-- Is the character between a drive letter and what follows? -/
def isDriveMark (c : Char) : Bool := c = ':' || c = '|'

/-- Is the segment a letter and a mark? -/
def isDrive : Segment → Bool
  | [c, d] => c.isAlpha && isDriveMark d
  | _ => false

/-- Does the segment start with a drive that ends it, or that a backslash ends? -/
def startsWithDrive (s : Segment) : Bool :=
  isDrive (s.takeWhile (· ≠ '\\'))

/-- The drive, with a colon as its mark. -/
def marked (s : Segment) : Segment := s.take 1 ++ [':']

/-- A drive in front of a segment, and the name behind it that a tab or a line break keeps apart. -/
def cutDrive? (s : Segment) : Option (Segment × List Char) :=
  match s.dropWhile isBreak with
  | c :: rest =>
    match rest.dropWhile isBreak with
    | ':' :: b :: more =>
      let name := unbroken more
      if c.isAlpha && isBreak b && !name.isEmpty then some ([c, ':'], name) else none
    | _ => none
  | [] => none

end Segment

/-- The segments of a path that have been read, the last one first. -/
structure Trail where
  rev : List Segment := []
  /-- Has the first segment named a drive and nothing else? -/
  onDrive : Bool := false
deriving DecidableEq, Repr

namespace Trail

def push (t : Trail) (s : Segment) : Trail := { t with rev := s :: t.rev }

/-- Go up, unless there is no segment to leave or it is a drive. -/
def up (t : Trail) : Trail :=
  match t.rev with
  | [] => t
  | s :: rest => if s.startsWithDrive then t else { t with rev := rest }

/-- Go into a segment. The first one of a file may name a drive, whose mark is then a colon. -/
def into (ofFile : Bool) (t : Trail) (name : List Char) : Trail :=
  if ofFile && t.rev.isEmpty && Segment.isDrive name then ⟨[Segment.marked name], true⟩
  else t.push (escape .path name)

/-- Read a segment. The last one, if it says to stay or to go up, leaves an empty one behind. -/
def read (ofFile isLast : Bool) (t : Trail) (s : Segment) : Trail :=
  match if ofFile && t.rev.isEmpty then s.cutDrive? else none with
  | some (drive, name) => (t.push drive).push (escape .path name)
  | none =>
    match Segment.move (unbroken s) with
    | .stay => if isLast then t.push [] else t
    | .up => if isLast then t.up.push [] else t.up
    | .into name => t.into ofFile name

/-- Read segments, of which the last one has no slash behind it. -/
def walk (ofFile : Bool) (t : Trail) : List Segment → Trail
  | [] => t
  | [s] => t.read ofFile true s
  | s :: ss => (t.read ofFile false s).walk ofFile ss

/-- Read what stands behind the first slash of a path. -/
def ofText (ofFile : Bool) (isSlash : Char → Bool) (cs : List Char) : Trail :=
  walk ofFile {} (Text.split isSlash cs)

end Trail

/-- What stands behind the scheme and the authority. -/
inductive Path where
  | segments (ss : List Segment)
  /-- Text without segments. -/
  | bare (cs : List Char)
deriving DecidableEq, Repr

namespace Path

def toChars : Path → List Char
  | .segments ss => ss.flatMap ('/' :: ·)
  | .bare cs => cs

/-- Segments without the empty ones in front of the first that is not empty, or of the last. -/
def trimmed : List Segment → List Segment
  | [] :: s :: ss => trimmed (s :: ss)
  | ss => ss

/-- Does the path look like an authority? -/
def looksLikeAuthority : Path → Bool
  | .segments ([] :: _ :: _) => true
  | _ => false

end Path

/-! ## Facts -/

theorem Trail.up_of_drive {t : Trail} {s : Segment} {rest : List Segment} (h : t.rev = s :: rest)
    (hs : s.startsWithDrive = true) : t.up = t := by
  simp [Trail.up, h, hs]

end Krl.Uri
