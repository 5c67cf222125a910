import Krl.Diagnostic
import Krl.Json.Printer

/-!
# Ranges that run backward

The range of a diagnostic runs from a place in a line, counted from one, to the start of the next
line, and so it runs forward (`Range.Forward`). A compiler may name line zero, though, which counts
as the first line here and not as the one in front of it. The place that a failure has of its own
does not count then, but places of the two other sorts are not looked at (`unchecked`).

* `forward_toNextLine`: which ranges run forward.
* `backward_ofCompiled`: of the diagnostics of a compiler, just those of unchecked places in line
  zero run backward, unless the place is at the start of the line.
* `backward_ofCompiled_warning`: a compiler can bring that about.
-/

set_option autoImplicit false

namespace Krl.Diagnostic

open Tool

/-! ## Ranges -/

/-- A place is not behind another, by line and then by character. -/
def Position.NotBehind (p q : Position) : Prop :=
  p.line < q.line ∨ p.line = q.line ∧ p.character ≤ q.character

instance (p q : Position) : Decidable (p.NotBehind q) :=
  inferInstanceAs (Decidable (p.line < q.line ∨ p.line = q.line ∧ p.character ≤ q.character))

/-- A range ends no sooner than it starts. -/
def Range.Forward (r : Range) : Prop := r.start.NotBehind r.stop

instance (r : Range) : Decidable r.Forward := inferInstanceAs (Decidable (r.start.NotBehind r.stop))

theorem before_lt {n : UInt32} (h : n ≠ 0) : before n < n := by
  have hpos : n.toNat ≠ 0 := fun hzero => h (UInt32.toNat_inj.1 hzero)
  rw [UInt32.lt_iff_toNat_lt, toNat_before]
  omega

theorem forward_toNextLine {line character : UInt32} :
    (Range.toNextLine line character).Forward ↔ (line = 0 → character = 0) := by
  by_cases hline : line = 0
  · subst hline
    simp [Range.toNextLine, Range.Forward, Position.NotBehind, before]
  · exact iff_of_true (.inl (before_lt hline)) fun hzero => absurd hzero hline

/-! ## Places that are not looked at -/

/-- The places whose lines may be zero: those of warnings, and the location of a failure. -/
def unchecked : Compiled → List Place
  | .ok warnings => warnings.map (·.start)
  | .error ⟨_, .indirect p⟩ => [p]
  | .error _ => []

/-- The place that a failure has of its own is in a line. -/
def Placed (e : CompileFailure) : Prop := ∀ p, e.anchor = .direct p → p.line ≠ 0

theorem line_of_direct {direct indirect : Option Place} {p : Place}
    (h : Anchor.of direct indirect = .direct p) : p.line ≠ 0 := by
  unfold Anchor.of at h
  split at h
  · next hdirect =>
    cases h
    have hpos := (Option.filter_eq_some_iff.1 hdirect).2
    exact Ne.symm (UInt32.ne_of_lt (of_decide_eq_true hpos))
  · cases h
  · cases h

theorem placed_of_ofTree? {t : Json.Tree} {e : CompileFailure}
    (h : CompileFailure.ofTree? t = some e) : Placed e := by
  unfold CompileFailure.ofTree? at h
  simp only [Option.bind_eq_bind, Option.bind_eq_some_iff, Option.some.injEq] at h
  obtain ⟨-, -, message, -, direct, -, indirect, -, rfl⟩ := h
  exact fun p => line_of_direct

theorem placed_ofOutput (out : Output) : Placed (.ofOutput out) := by
  unfold CompileFailure.ofOutput
  cases hread : out.decode? CompileFailure.ofTree? with
  | none => exact nofun
  | some e =>
    rcases Option.or_eq_some_iff.1 hread with hstdout | ⟨-, hstderr⟩
    · obtain ⟨t, -, ht⟩ := Option.bind_eq_some_iff.1 hstdout
      exact placed_of_ofTree? ht
    · obtain ⟨t, -, ht⟩ := Option.bind_eq_some_iff.1 hstderr
      exact placed_of_ofTree? ht

theorem placed_compile {host : Host} {command : Option Command} {source : String}
    {e : CompileFailure} (h : compile host command source = .error e) : Placed e := by
  unfold compile at h
  split at h
  · cases h
  split at h
  · cases h
    exact nofun
  unfold compiledOfOutput at h
  split at h
  · split at h <;> cases h
    exact nofun
  · cases h
    exact placed_ofOutput _

/-! ## Diagnostics -/

theorem backward_toNextLine (places : List Place) :
    (places.map fun p => Range.toNextLine p.line p.column).filter (¬ ·.Forward) =
      (places.filter fun p => p.line = 0 ∧ p.column ≠ 0).map fun p => ⟨⟨0, p.column⟩, ⟨0, 0⟩⟩ := by
  have hbackward : ∀ p : Place, ¬ (Range.toNextLine p.line p.column).Forward ↔
      p.line = 0 ∧ p.column ≠ 0 := by
    intro p
    rw [forward_toNextLine]
    exact Classical.not_imp
  simp only [List.filter_map, Function.comp_def, hbackward]
  refine List.map_congr_left fun p hp => ?_
  have hline : p.line = 0 := (of_decide_eq_true (List.mem_filter.1 hp).2).1
  rw [hline]
  rfl

/-- Of the ranges of a compiler's diagnostics just those run backward that start in line zero behind
its first character; they end at the start of that line. -/
theorem backward_ofCompiled (host : Host) (command : Option Command) (source : String) :
    ((ofCompiled (compile host command source)).map (·.range)).filter (¬ ·.Forward) =
      ((unchecked (compile host command source)).filter fun p => p.line = 0 ∧ p.column ≠ 0).map
        fun p => ⟨⟨0, p.column⟩, ⟨0, 0⟩⟩ := by
  cases hcompile : compile host command source with
  | ok warnings =>
    have hranges : (ofCompiled (.ok warnings)).map (·.range) =
        (warnings.map (·.start)).map fun p => Range.toNextLine p.line p.column := by
      rw [ofCompiled_ok, List.map_map, List.map_map]
      rfl
    rw [hranges]
    exact backward_toNextLine _
  | error e =>
    have hplaced := placed_compile hcompile
    rcases e with ⟨message, anchor⟩
    cases anchor with
    | direct p =>
      have hforward : (rangeOf (.direct p)).Forward :=
        forward_toNextLine.2 fun hzero => absurd hzero (hplaced p rfl)
      simp [unchecked, ofFailure, hforward]
    | indirect p => exact backward_toNextLine [p]
    | absent => rfl

/-- A warning in line zero ends before it starts. -/
theorem backward_ofCompiled_warning :
    let reply := Json.object [("warnings", .array [.object [
      ("loc", .object [("start", .object [("column", .int 5), ("line", .int 0)])]),
      ("message", .string "m")]])]
    let host : Host := ⟨fun _ _ => .ok ⟨true, reply.render, ""⟩⟩
    let diagnostics := ofCompiled (compile host (some ⟨"compiler", []⟩) "x")
    diagnostics = [⟨⟨⟨0, 5⟩, ⟨0, 0⟩⟩, "m", .warning⟩] ∧ ¬ ∀ d ∈ diagnostics, d.range.Forward := by
  decide +kernel

end Krl.Diagnostic
