import Krl.Uri.Authority

/-!
# URIs

A document is named by a URI. Editors spell one in many ways: with a scheme in upper case, with
characters that need an escape, with dots that a reader of the path would follow. A URI is read into
its components, and the text written from these is the name, so all such spellings are one name.
Escapes that need not be there, and the case of their digits, are kept.

* `ofText?_empty`: a name is not empty.
-/

set_option autoImplicit false

namespace Krl

/-- The name of a document, as it is written from its components. -/
structure Uri where
  text : String
deriving DecidableEq, Repr

namespace Uri

/-- What a URI is made of, each part as it is written. -/
structure Components where
  scheme : List Char
  authority : Option Authority := none
  path : Path
  query : Option (List Char) := none
  fragment : Option (List Char) := none
deriving DecidableEq, Repr

namespace Components

/-! ## Writing -/

/-- A dot keeps apart a path that would look like an authority. -/
def toChars (u : Components) : List Char :=
  u.scheme ++ ':' ::
    ((match u.authority with
      | some a => '/' :: '/' :: a.toChars
      | none => if u.path.looksLikeAuthority then ['/', '.'] else []) ++
    u.path.toChars ++
    (match u.query with
      | some q => '?' :: q
      | none => []) ++
    (match u.fragment with
      | some f => '#' :: f
      | none => []))

/-! ## Reading -/

/-- A text without blanks and control characters at its ends. -/
def trim (cs : List Char) : List Char :=
  let isOuter (c : Char) : Bool := c.toNat ≤ 0x20
  ((cs.dropWhile isOuter).reverse.dropWhile isOuter).reverse

/-- The scheme in front of a text, in lower case, and what follows its colon. -/
def readScheme? (cs : List Char) : Option (List Char × List Char) :=
  let isInner (c : Char) : Bool := c.isAlphanum || isBreak c || ['+', '-', '.'].contains c
  match unbroken (cs.takeWhile isInner), cs.dropWhile isInner with
  | c :: scheme, ':' :: rest =>
    if c.isAlpha then some ((c :: scheme).map Char.toLower, rest) else none
  | _, _ => none

/-- Does a character end a path? -/
def endsPath (c : Char) : Bool := c = '?' || c = '#'

/-- The query and the fragment that a text consists of. -/
def readBack (form : Form) (cs : List Char) : Option (List Char) × Option (List Char) :=
  let part := if form = .other then Part.query else .quotedQuery
  let query := match cs with
    | '?' :: rest => some (escape part (rest.takeWhile (· ≠ '#')))
    | _ => none
  let fragment := match cs.dropWhile (· ≠ '#') with
    | _ :: rest => some (escape .fragment rest)
    | [] => none
  (query, fragment)

/-- The path behind its first slash, which may be missing where a slash is sure to come. -/
def readTrail (form : Form) (cs : List Char) : Trail :=
  let front := (cs.takeWhile fun c => !endsPath c).dropWhile isBreak
  let inner := match front with
    | c :: rest => if form.isSlash c then rest else front
    | [] => []
  Trail.ofText (form = .file) form.isSlash inner

/-- The authority of a file, and its path with what follows it. -/
def readFile? (cs : List Char) : Option (Authority × List Char) :=
  match cs.dropWhile isBreak with
  | c :: rest =>
    match rest.dropWhile isBreak with
    | d :: rest =>
      if Form.file.isSlash c && Form.file.isSlash d then Authority.readFile? rest
      else some ({}, cs)
    | [] => some ({}, cs)
  | [] => some ({}, cs)

/-- The components of the name of a file; one whose path begins with a drive is on this machine. -/
def ofFile (scheme : List Char) (authority : Authority) (cs : List Char) : Components :=
  let trail := readTrail .file cs
  let authority := if trail.onDrive then {} else authority
  let (query, fragment) := readBack .file (unbroken (cs.dropWhile fun c => !endsPath c))
  ⟨scheme, some authority, .segments (Path.trimmed trail.rev.reverse), query, fragment⟩

/-- The components of a URI that names no file. On a network a path has segments in any case;
elsewhere one is text, unless it has a slash in front or an authority and is not empty. -/
def ofOther (form : Form) (scheme : List Char) (authority : Option Authority) (cs : List Char) :
    Components :=
  let front := cs.takeWhile fun c => !endsPath c
  let isList := form ≠ .other || front.head? = some '/' || (authority.isSome && !front.isEmpty)
  let path : Path :=
    if isList then .segments (readTrail form cs).rev.reverse
    else .bare (escape .bare front)
  let (query, fragment) := readBack form (cs.dropWhile fun c => !endsPath c)
  ⟨scheme, authority, path, query, fragment⟩

/-- The components of a text, if it is a URI. -/
def ofText? (cs : List Char) : Option Components := do
  let (scheme, rest) ← readScheme? (trim cs)
  match Form.ofScheme scheme with
  | .file =>
    let (authority, rest) ← readFile? rest
    some (ofFile scheme authority rest)
  | .network service =>
    let (authority, rest) ← Authority.read? (.network service)
      ((unbroken rest).dropWhile (Form.network service).isSlash)
    some (ofOther (.network service) scheme (some authority) rest)
  | .other =>
    match unbroken rest with
    | '/' :: '/' :: rest =>
      let (authority, rest) ← Authority.read? .other rest
      some (ofOther .other scheme (some authority) rest)
    | rest => some (ofOther .other scheme none rest)

end Components

/-- The name that a text gives to a document, if it is a URI. -/
def ofText? (text : String) : Option Uri :=
  (Components.ofText? text.toList).map fun u => ⟨String.ofList u.toChars⟩

/-! ## Facts -/

theorem ofText?_empty : ofText? "" = none := rfl

end Uri

end Krl
