import Krl.Cli
import Krl.Proofs.Diagnostic.Ranges
import Mathlib.Control.Monad.Basic

/-!
# The numbers in the rows of errors

A row shows the place of an error counted from one, and there are no rows where one of these numbers
is no word (`Shown`, `errorRows_eq_ok_iff`). A line that has been counted from one by the compiler
comes back as it was, and so does the column of a place that a failure has of its own. The column of
a location is taken as it is, though, and it may be the last that a word counts.

* `shown_ofFailure_iff`: which failures have a row.
* `run_eq_overflow_iff`: which runs of the command line end for want of one.
* `errorRows_exact_iff`: the rows of an analysis are exact but for locations with the last column of
  all, which leave none; a place of the failure's own is shown as the compiler gives it.
* `errorListing_overflow`: a compiler can bring the exception about.
-/

set_option autoImplicit false

namespace Krl.Analysis

open Tool Diagnostic

/-! ## Rows -/

/-- The row of a place that is counted from one. -/
def rowAt (line column : Nat) (message : String) : String :=
  s!"Line {line}:{column}: {message}"

/-- The row of a diagnostic with its place counted from one. -/
def exactRow (d : Diagnostic) : String :=
  rowAt (d.range.start.line.toNat + 1) (d.range.start.character.toNat + 1) d.message

/-- Are the numbers that the row of a diagnostic shows words? -/
def Shown (d : Diagnostic) : Prop :=
  d.range.start.line.toNat + 1 < UInt32.size ∧ d.range.start.character.toNat + 1 < UInt32.size

instance (d : Diagnostic) : Decidable (Shown d) := inferInstanceAs (Decidable (_ ∧ _))

theorem errorRow_eq (d : Diagnostic) :
    errorRow d = if Shown d then .ok (exactRow d) else .error .addition := by
  unfold errorRow
  by_cases h : Shown d
  · rw [if_pos h, Word.place_eq, if_pos (And.intro h.1 h.2)]
    simp only [Except.map, exactRow, rowAt, toString, String.append_assoc]
  · rw [if_neg h, Word.place_eq, if_neg fun hshown : _ ∧ _ => h hshown]
    rfl

theorem mapM_errorRow (ds : List Diagnostic) : ds.mapM errorRow =
    if ∀ d ∈ ds, Shown d then .ok (ds.map exactRow) else .error .addition := by
  induction ds with
  | nil => rfl
  | cons d ds ih =>
    rw [List.mapM_cons, ih, errorRow_eq]
    by_cases hd : Shown d
    · by_cases hds : ∀ e ∈ ds, Shown e
      · rw [if_pos hd, if_pos hds, if_pos (List.forall_mem_cons.2 ⟨hd, hds⟩)]
        rfl
      · rw [if_pos hd, if_neg hds, if_neg fun h => hds (List.forall_mem_cons.1 h).2]
        rfl
    · rw [if_neg hd, if_neg fun h : ∀ e ∈ d :: ds, Shown e => hd (List.forall_mem_cons.1 h).1]
      rfl

theorem errorRows_eq_ok_iff (a : Analysis) :
    a.errorRows = .ok (a.errors.map exactRow) ↔ ∀ d ∈ a.errors, Shown d := by
  unfold errorRows
  rw [mapM_errorRow]
  by_cases h : ∀ d ∈ a.errors, Shown d
  · rw [if_pos h]
    exact iff_of_true rfl h
  · rw [if_neg h]
    exact iff_of_false (by simp) h

/-! ## Failures -/

/-- The last column that a word counts from zero. -/
def lastColumn : UInt32 := 0xFFFFFFFF

theorem toNat_lt_iff_ne_lastColumn {n : UInt32} : n.toNat + 1 < UInt32.size ↔ n ≠ lastColumn := by
  have hlast : lastColumn.toNat + 1 = UInt32.size := rfl
  have hlt := n.toNat_lt_size
  rw [ne_eq, ← UInt32.toNat_inj]
  omega

/-- One less has one more. -/
theorem toNat_before_lt (n : UInt32) : (before n).toNat + 1 < UInt32.size := by
  have hone : 1 < UInt32.size := by decide
  have hlt := n.toNat_lt_size
  rw [toNat_before]
  omega

/-- A failure has a row unless the row had to show what comes behind the last column of all. -/
theorem shown_ofFailure_iff (e : CompileFailure) :
    Shown (ofFailure e) ↔ ∀ p, e.anchor = .indirect p → p.column ≠ lastColumn := by
  rcases e with ⟨message, anchor⟩
  cases anchor with
  | direct p => exact iff_of_true ⟨toNat_before_lt p.line, toNat_before_lt p.column⟩ (by simp)
  | absent =>
    have hzero : (0 : UInt32).toNat + 1 < UInt32.size := by decide
    exact iff_of_true ⟨hzero, hzero⟩ (by simp)
  | indirect p =>
    simp only [Anchor.indirect.injEq, forall_eq', ← toNat_lt_iff_ne_lastColumn]
    exact and_iff_right (toNat_before_lt p.line)

/-! ## Analyses -/

theorem diagnostics_analyze (a : Analyzer) (host : Host) (source : String) :
    (a.analyze host source).diagnostics = ofCompiled (compile host a.compiler source) := by
  unfold Analyzer.analyze Analysis.of
  split <;> rfl

section
variable {a : Analyzer} {host : Host} {source : String} {e : CompileFailure}

/-- The errors of a source that has compiled: there are none. -/
theorem errors_of_ok {warnings : List Warning}
    (h : compile host a.compiler source = .ok warnings) : (a.analyze host source).errors = [] := by
  unfold errors
  rw [diagnostics_analyze, h, ofCompiled_ok, List.filter_eq_nil_iff]
  intro d hd
  obtain ⟨w, -, rfl⟩ := List.mem_map.1 hd
  simp [ofWarning]

/-- The errors of a source that has not: there is one. -/
theorem errors_of_error (h : compile host a.compiler source = .error e) :
    (a.analyze host source).errors = [ofFailure e] := by
  unfold errors
  rw [diagnostics_analyze, h, ofCompiled_error]
  rfl

theorem errorListing_of_error (h : compile host a.compiler source = .error e) :
    (a.analyze host source).errorListing = errorRow (ofFailure e) := by
  unfold errorListing errorRows
  rw [errors_of_error h, List.mapM_cons, List.mapM_nil]
  cases errorRow (ofFailure e) <;> rfl

theorem errorListing_eq_error_iff : (a.analyze host source).errorListing = .error .addition ↔
    ∃ e p, compile host a.compiler source = .error e ∧ e.anchor = .indirect p ∧
      p.column = lastColumn := by
  cases hcompile : compile host a.compiler source with
  | ok warnings =>
    have hlisting : (a.analyze host source).errorListing = .ok "No errors found" := by
      unfold errorListing errorRows
      rw [errors_of_ok hcompile]
      rfl
    rw [hlisting]
    exact iff_of_false (by simp) (by simp)
  | error e =>
    rw [errorListing_of_error hcompile, errorRow_eq]
    by_cases hshown : Shown (ofFailure e)
    · rw [if_pos hshown]
      refine iff_of_false (by simp) ?_
      rintro ⟨_, p, ⟨rfl⟩, hp, hcolumn⟩
      exact (shown_ofFailure_iff e).1 hshown p hp hcolumn
    · rw [if_neg hshown]
      refine iff_of_true rfl ⟨e, ?_⟩
      rw [shown_ofFailure_iff] at hshown
      simpa using hshown

end

/-- A run ends with an overflow just if it is to list the errors of a file that it can read, and the
compiler fails at a location in the last column. It then prints nothing. -/
theorem run_eq_overflow_iff (host : Host) (settings : Settings)
    (read : String → Except Cli.ReadFailure String) (args : List String) :
    Cli.run host settings read args = some ⟨101, "", Overflow.addition.describe ++ "\n"⟩ ↔
      ∃ path text e p, Cli.Order.ofArgs? args = some ⟨path, true⟩ ∧
        Cli.source read path = .ok text ∧
        compile host (Analyzer.ofSettings settings).compiler text = .error e ∧
        e.anchor = .indirect p ∧ p.column = lastColumn := by
  unfold Cli.run
  cases horder : Cli.Order.ofArgs? args with
  | none => exact iff_of_false (by simp) (by simp)
  | some order =>
    rcases order with ⟨path, errorsOnly⟩
    cases hsource : Cli.source read path with
    | error failure => simp [hsource]
    | ok text =>
      cases errorsOnly with
      | false => simp [hsource, Cli.Order.report, Cli.Outcome.ofReport]
      | true =>
        simp [hsource, Cli.Order.report, Cli.Outcome.ofReport_eq_overflow_iff,
          errorListing_eq_error_iff]

/-- The rows of an analysis show the exact numbers unless the compiler has failed at a location in
the last column of all. Then the sum that the row had to show overflows, and a run that is to print
the rows ends without one. A place of the failure's own is shown as the compiler gives it. -/
theorem errorRows_exact_iff (a : Analyzer) (host : Host) (source : String) :
    let analysis := a.analyze host source
    (analysis.errorRows = .ok (analysis.errors.map exactRow) ↔
      ∀ e p, compile host a.compiler source = .error e → e.anchor = .indirect p →
        p.column ≠ lastColumn) ∧
    (∀ e p, compile host a.compiler source = .error e → e.anchor = .indirect p →
      p.column = lastColumn → analysis.errorListing = .error .addition ∧
        Cli.Outcome.ofReport analysis.errorListing =
          ⟨101, "", Overflow.addition.describe ++ "\n"⟩) ∧
    ∀ e p, compile host a.compiler source = .error e → e.anchor = .direct p → p.column ≠ 0 →
      analysis.errorListing = .ok (rowAt p.line.toNat p.column.toNat e.message) := by
  intro analysis
  refine ⟨?_, fun e p he hp hcolumn => ?_, fun e p he hp hcolumn => ?_⟩
  · rw [errorRows_eq_ok_iff]
    cases hcompile : compile host a.compiler source with
    | ok warnings =>
      rw [errors_of_ok hcompile]
      exact iff_of_true (by simp) (by simp)
    | error e =>
      rw [errors_of_error hcompile, List.forall_mem_singleton, shown_ofFailure_iff]
      constructor
      · rintro h e' p ⟨rfl⟩
        exact h p
      · exact fun h p => h e p rfl
  · have hlisting := errorListing_eq_error_iff.2 ⟨e, p, he, hp, hcolumn⟩
    exact ⟨hlisting, Cli.Outcome.ofReport_eq_overflow_iff.2 hlisting⟩
  · have hline : (before p.line).toNat + 1 = p.line.toNat := by
      have hplaced : p.line.toNat ≠ 0 := fun h => placed_compile he p hp (UInt32.toNat_inj.1 h)
      rw [toNat_before]
      omega
    have hcolumn : (before p.column).toNat + 1 = p.column.toNat := by
      have hpos : p.column.toNat ≠ 0 := fun h => hcolumn (UInt32.toNat_inj.1 h)
      rw [toNat_before]
      omega
    have hrow : exactRow (ofFailure e) = rowAt p.line.toNat p.column.toNat e.message := by
      rw [← hline, ← hcolumn, ofFailure, hp]
      rfl
    rw [errorListing_of_error he, errorRow_eq, if_pos, hrow]
    rw [shown_ofFailure_iff, hp]
    simp

/-- A failure at a location in the last column has no row, and a run that lists errors ends. -/
theorem errorListing_overflow :
    let reply := Json.object [("krl_compiler", .object [("loc", .object [("start",
      .object [("column", .int 4294967295), ("line", .int 4)])])]), ("message", .string "m")]
    let host : Host := ⟨fun _ _ => .ok ⟨false, reply.render, ""⟩⟩
    let a : Analysis := Analyzer.analyze ⟨none, some ⟨"compiler", []⟩⟩ host "x"
    a.errors.map exactRow = ["Line 4:4294967296: m"] ∧ a.errorListing = .error .addition ∧
      ¬ a.errorRows = .ok (a.errors.map exactRow) ∧
      Cli.run host { compiler := some ⟨"compiler", []⟩ } (fun _ => .ok "x")
        ["--analyze", "--errors-only", "a.krl"] =
          some ⟨101, "", "attempt to add with overflow\n"⟩ := by
  decide +kernel

end Krl.Analysis
