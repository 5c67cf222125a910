import Krl.Text.Utf8
import Krl.Uri.Address
import Krl.Uri.Domain
import Krl.Uri.Escape

/-!
# Hosts of URIs

A host is a name, a number of four bytes, or eight groups in brackets. On a network a name is read
without its escapes and in any script, and written in ASCII. Elsewhere a name is text.

* `ofText?_nil`: a network has no empty host.
-/

set_option autoImplicit false

namespace Krl.Uri

inductive Host where
  | name (cs : List Char)
  | number (n : Nat)
  | groups (gs : List Nat)
deriving DecidableEq, Repr

namespace Host

def toChars : Host → List Char
  | .name cs => cs
  | .number n => Address.dotted n
  | .groups gs => '[' :: Address.coloned gs ++ [']']

/-- The host that is left out. -/
def empty : Host := .name []

/-- Characters that no host may have as they stand. -/
def isForbidden (c : Char) : Bool :=
  c = '\x00' || [' ', '#', '/', ':', '<', '>', '?', '@', '[', '\\', ']', '^', '|'].contains c

/-- Characters that no label may have. -/
def isForbiddenInLabel (c : Char) : Bool := isForbidden c || isControl c || c = '%'

/-- What stands between brackets. -/
def bracketed? (cs : List Char) : Option Host :=
  if cs.getLast? = some ']' then (Address.groups? cs.dropLast).map .groups else none

/-- The host of a network. -/
def ofText? : List Char → Option Host
  | '[' :: cs => bracketed? cs
  | cs => do
    let text ← Text.Utf8.strict? (unescape cs)
    let domain ← Domain.ofText? text.toList
    let host := domain.toChars
    if host.isEmpty || host.any isForbiddenInLabel then none
    else if Address.endsInNumber host then (Address.number? host).map .number
    else some (.name host)

/-- The host where there is no network. -/
def ofBareText? : List Char → Option Host
  | '[' :: cs => bracketed? cs
  | cs => if cs.any isForbidden then none else some (.name (escape .bare cs))

/-! ## Facts -/

theorem ofText?_nil : ofText? [] = none := by
  decide

end Host

end Krl.Uri
