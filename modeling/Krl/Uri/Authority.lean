import Krl.Uri.Host
import Krl.Uri.Path

/-!
# Authorities

What stands between two slashes and the path of a URI: a user, a host, and the number of a service
on it. Names of files have only the host.

* `toChars_empty`: an authority without anything is not seen.
-/

set_option autoImplicit false

namespace Krl.Uri

/-- How what follows the colon of a scheme is read. -/
inductive Form where
  /-- A file, of a host or of this machine. -/
  | file
  /-- A place on a network, with the service that is meant if none is given. -/
  | network (service : Nat)
  | other
deriving DecidableEq, Repr

namespace Form

def ofScheme (scheme : List Char) : Form :=
  match String.ofList scheme with
  | "file" => .file
  | "http" => .network 80
  | "ws" => .network 80
  | "https" => .network 443
  | "wss" => .network 443
  | "ftp" => .network 21
  | _ => .other

/-- Does a character separate as a slash does? -/
def isSlash (form : Form) (c : Char) : Bool := c = '/' || (c = '\\' && form ≠ .other)

/-- Does a character end an authority? -/
def endsAuthority (form : Form) (c : Char) : Bool := form.isSlash c || c = '?' || c = '#'

/-- The service whose number need not be written. -/
def service? : Form → Option Nat
  | .network service => some service
  | _ => none

end Form

structure Authority where
  /-- A user's name and password as they are written, with the colon between them. -/
  user : List Char := []
  host : Host := .empty
  /-- The number of a service, if it is not the one that is meant without. -/
  service : Option Nat := none
deriving DecidableEq, Repr

namespace Authority

def toChars (a : Authority) : List Char :=
  (if a.user.isEmpty then [] else a.user ++ ['@']) ++ a.host.toChars ++
    match a.service with
    | some n => ':' :: Nat.toDigits 10 n
    | none => []

/-! ## Reading -/

/-- A text around its last at-sign. -/
def cutUser? (cs : List Char) : Option (List Char × List Char) :=
  match (Text.split (· = '@') cs).reverse with
  | host :: piece :: pieces =>
    some (['@'].intercalate (piece :: pieces).reverse, host)
  | _ => none

/-- A user, escaped. The first colon ends the name, and is left out if no password follows. -/
def userOf (cs : List Char) : List Char :=
  let name := cs.takeWhile (· ≠ ':')
  match cs.dropWhile (· ≠ ':') with
  | _ :: c :: password => escape .user name ++ ':' :: escape .user (c :: password)
  | _ => escape .user name

/-- A text before and behind the end of the host in front of it. A colon ends a host unless it
stands in brackets. -/
def cutHost (form : Form) (inBrackets : Bool) : List Char → List Char × List Char
  | [] => ([], [])
  | c :: cs =>
    if form.endsAuthority c || (c = ':' && !inBrackets) then ([], c :: cs)
    else
      let (host, rest) := cutHost form (c = '[' || (inBrackets && c ≠ ']')) cs
      (c :: host, rest)

/-- The number of the service behind a host, unless it need not be written, and what follows it. -/
def service? (form : Form) : List Char → Option (Option Nat × List Char)
  | ':' :: cs =>
    let digits := cs.takeWhile Char.isDigit
    let rest := cs.dropWhile Char.isDigit
    let service := (Text.number? 10 digits).getD 0
    if 65535 < service || !(rest.take 1).all (['/', '\\', '?', '#'].contains ·) then none
    else if digits.isEmpty ∨ form.service? = some service then some (none, rest)
    else some (some service, rest)
  | cs => some (none, cs)

/-- The host of a text that stands between a user and the rest. It can be empty only where there is
no network, and then neither a user nor a service is given. -/
def host? (form : Form) (user host rest : List Char) : Option Host :=
  if form = .other then
    if host.isEmpty && (rest.head? = some ':' || !user.isEmpty) then none
    else Host.ofBareText? host
  else Host.ofText? host

/-- The authority in front of a text, and what follows it. -/
def read? (form : Form) (cs : List Char) : Option (Authority × List Char) := do
  let front := cs.takeWhile fun c => !form.endsAuthority c
  let back := cs.dropWhile fun c => !form.endsAuthority c
  let (user, hostFront) ← match cutUser? front with
    | none => some ([], front)
    | some ([], []) => if back.isEmpty then some ([], []) else none
    | some (user, hostFront) => some (userOf user, hostFront)
  let (hostText, rest) := cutHost form false (hostFront ++ back)
  let host ← host? form user hostText rest
  let (service, rest) ← service? form rest
  some (⟨user, host, service⟩, rest)

/-- The host of a file, and its path with what follows that. This machine need not be named, and
then an empty segment stands in front of the path. A drive is no host but begins the path. -/
def readFile? (cs : List Char) : Option (Authority × List Char) :=
  let front := unbroken (cs.takeWhile fun c => !Form.file.endsAuthority c)
  let back := cs.dropWhile fun c => !Form.file.endsAuthority c
  if Segment.isDrive front then some ({}, cs)
  else if front.isEmpty then some ({}, '/' :: back)
  else (Host.ofText? front).map fun host =>
    if host = .name "localhost".toList then ({}, '/' :: back) else ({ host := host }, back)

/-! ## Facts -/

@[simp] theorem toChars_empty : toChars {} = [] := rfl

end Authority

end Krl.Uri
