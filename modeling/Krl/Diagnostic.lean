import Krl.Tool.Compiler

/-!
# Diagnostics

What the compiler says on a source, as marks in an editor. Lines arrive counted from one and leave
counted from zero; all numbers are words of 32 bits.

* `ofCompiled_ok`: each warning gives one diagnostic, in order.
-/

set_option autoImplicit false

namespace Krl

inductive Severity where
  | error
  | warning
deriving DecidableEq, Repr

namespace Diagnostic

/-- A line and a character, both from zero. -/
structure Position where
  line : UInt32
  character : UInt32
deriving DecidableEq, Repr

structure Range where
  start : Position
  stop : Position
deriving DecidableEq, Repr

/-- The empty range at the start of a source. -/
def Range.origin : Range := ⟨⟨0, 0⟩, ⟨0, 0⟩⟩

/-- One less, but not below zero. -/
def before (n : UInt32) : UInt32 := if n = 0 then 0 else n - 1

/-- From a character of a line, counted from one, to the start of the next line. -/
def Range.toNextLine (line character : UInt32) : Range := ⟨⟨before line, character⟩, ⟨line, 0⟩⟩

end Diagnostic

structure Diagnostic where
  range : Diagnostic.Range
  message : String
  severity : Severity
deriving DecidableEq, Repr

namespace Diagnostic

open Tool

/-- The range of an anchor; only a place of the failure's own has columns from one. -/
def rangeOf : Anchor → Range
  | .direct p => .toNextLine p.line (before p.column)
  | .indirect p => .toNextLine p.line p.column
  | .absent => .origin

def ofWarning (w : Warning) : Diagnostic :=
  ⟨.toNextLine w.start.line w.start.column, w.message, .warning⟩

def ofFailure (e : CompileFailure) : Diagnostic := ⟨rangeOf e.anchor, e.message, .error⟩

/-- The diagnostics of what a compiler says. -/
def ofCompiled : Compiled → List Diagnostic
  | .ok warnings => warnings.map ofWarning
  | .error e => [ofFailure e]

/-! ## Facts -/

@[simp] theorem ofCompiled_ok (warnings : List Warning) :
    ofCompiled (.ok warnings) = warnings.map ofWarning := rfl

@[simp] theorem ofCompiled_error (e : CompileFailure) : ofCompiled (.error e) = [ofFailure e] := rfl

theorem toNat_before (n : UInt32) : (before n).toNat = n.toNat - 1 := by
  unfold before
  split
  · next h => simp [h]
  · next h =>
    have : 1 ≤ n := by
      rw [UInt32.le_iff_toNat_le]
      have : n.toNat ≠ 0 := fun h0 => h (UInt32.toNat_inj.1 h0)
      simp
      omega
    rw [UInt32.toNat_sub_of_le _ _ this]
    rfl

end Diagnostic

end Krl
