import Krl.Proofs.Outline.Parents
import Krl.Proofs.Text.Offsets
import Mathlib.Algebra.Group.Nat.Defs

/-!
# Extents in an outline

The spans of a tree come with it and may lie anywhere. A symbol gets its lines from a span
(`Listed.exists_span`): its own one, for the global block the one from its first entry to its last
one, and for the id the one up to the last character of the text. The line of an offset grows with
the offset, and so spans in order give lines in order.

* `lines_outline`: the lines of a symbol are lines of the text, whatever the spans are; where the
  spans are in order, its first line is not behind its last one, and what is declared lies inside of
  the global block.
-/

set_option autoImplicit false

namespace Krl

/-- Both ends are in front of the line with this number. -/
def Extent.Below (e : Extent) (count : Nat) : Prop :=
  e.first.toNat < count ∧ e.last.toNat < count

def Extent.Within (inner outer : Extent) : Prop :=
  outer.first ≤ inner.first ∧ inner.last ≤ outer.last

namespace Outline

open Krl.Symbol (Role)

/-! ## Spans -/

def idSpan? : Option Node → Option Span
  | some (.rulesetId _ span) => some span
  | _ => none

def keySpan? : Node → Option Span
  | .metaProperty _ keySpan _ _ => some keySpan
  | _ => none

def metaSpans : Option Node → List Span
  | some (.rulesetMeta properties span) => span :: properties.filterMap keySpan?
  | _ => []

/-- The spans of the first and the last entry of a global block, if it has both. -/
def endSpans? (globals : List Node) : Option (Span × Span) :=
  match globals.head?.bind Node.span?, globals.getLast?.bind Node.span? with
  | some first, some last => some (first, last)
  | _, _ => none

/-- The span of an entry of the global block that declares a name. -/
def declaredSpan? : Node → Option Span
  | .declaration left _ span => left.name?.map fun _ => span
  | .defAction id _ span => id.name?.map fun _ => span
  | _ => none

def ruleSpan? : Node → Option Span
  | .rule id _ span => id.name?.map fun _ => span
  | _ => none

/-- The spans of a ruleset that its outline uses, apart from the one of the id. -/
def spansOf (metaBlock : Option Node) (globals rules : List Node) : List Span :=
  metaSpans metaBlock ++ (endSpans? globals).elim [] (fun ends => [ends.1, ends.2]) ++
    globals.filterMap declaredSpan? ++ rules.filterMap ruleSpan?

/-- The spans are in order, in a text of this length. Only the start of the id has to lie inside of
the text: what is beyond the end counts as the end. -/
structure Ordered (length : Nat) (rid metaBlock : Option Node) (globals rules : List Node) :
    Prop where
  id : ∀ span ∈ idSpan? rid, span.start < length
  spans : ∀ span ∈ spansOf metaBlock globals rules, span.start ≤ span.stop
  globals : ∀ ends ∈ endSpans? globals, ∀ span ∈ globals.filterMap Node.span?,
    ends.1.start ≤ span.start ∧ span.stop ≤ ends.2.stop

def InOrder (length : Nat) : Node → Prop
  | .ruleset rid metaBlock globals rules _ => Ordered length rid metaBlock globals rules
  | _ => True

section
variable {lines : LineMap} {rid metaBlock : Option Node} {globals rules : List Node} {s b : Symbol}

theorem endSpans?_mem {ends : Span × Span} (h : ends ∈ endSpans? globals) :
    ends.1 ∈ globals.filterMap Node.span? ∧ ends.2 ∈ globals.filterMap Node.span? := by
  unfold endSpans? at h
  split at h
  · rename_i first last hfirst hlast
    cases h
    obtain ⟨n, hn, hspan⟩ := Option.bind_eq_some_iff.1 hfirst
    obtain ⟨m, hm, hspan'⟩ := Option.bind_eq_some_iff.1 hlast
    exact ⟨List.mem_filterMap.2 ⟨n, List.mem_of_head? hn, hspan⟩,
      List.mem_filterMap.2 ⟨m, List.mem_of_getLast? hm, hspan'⟩⟩
  · cases h

theorem span?_of_declaredSpan? {n : Node} {span : Span} (h : declaredSpan? n = some span) :
    n.span? = some span := by
  unfold declaredSpan? at h
  split at h
  · obtain ⟨-, -, rfl⟩ := Option.map_eq_some_iff.1 h
    rfl
  · obtain ⟨-, -, rfl⟩ := Option.map_eq_some_iff.1 h
    rfl
  · cases h

/-- The span from the start of the first entry of a global block to the end of the last one. -/
theorem Listed.of_globalBlock (h : Listed lines rid metaBlock globals rules .globalBlock b) :
    ∃ ends ∈ endSpans? globals, b.lines = linesOf lines ⟨ends.1.start, ends.2.stop⟩ := by
  cases h with
  | @globalBlock first last hfirst hlast =>
    exact ⟨(first, last), by simp [endSpans?, hfirst, hlast], rfl⟩

theorem Listed.of_declared (h : Listed lines rid metaBlock globals rules .declared s) :
    ∃ span ∈ globals.filterMap declaredSpan?, s.lines = linesOf lines span := by
  cases h with
  | @declaration left right span name hn hname =>
    exact ⟨span, List.mem_filterMap.2 ⟨_, hn, by simp [declaredSpan?, hname]⟩, rfl⟩
  | @action id children span name hn hname =>
    exact ⟨span, List.mem_filterMap.2 ⟨_, hn, by simp [declaredSpan?, hname]⟩, rfl⟩

theorem Ordered.ends (h : Ordered lines.length rid metaBlock globals rules) {ends : Span × Span}
    (hends : ends ∈ endSpans? globals) : ends.1.start ≤ ends.2.stop := by
  have hfirst := h.spans ends.1 (by simp [spansOf, Option.mem_def.1 hends])
  have hlast := (h.globals ends hends ends.1 (endSpans?_mem hends).1).2
  omega

/-- A symbol has the lines of a span, which is in order if those of the tree are. -/
theorem Listed.exists_span {r : Role} (h : Listed lines rid metaBlock globals rules r s) :
    ∃ span, s.lines = linesOf lines span ∧
      (Ordered lines.length rid metaBlock globals rules → span.start ≤ span.stop) := by
  cases r with
  | ruleset =>
    obtain @⟨value, span, hrid⟩ := h
    -- the lines of an id go on to the last character of the text, wherever its span ends
    refine ⟨⟨span.start, lines.length - 1⟩, rfl, fun hord => ?_⟩
    have := hord.id span (by simp [idSpan?, hrid])
    show span.start ≤ lines.length - 1
    omega
  | metaBlock =>
    cases h with
    | metaBlock hblock =>
      exact ⟨_, rfl, fun hord => hord.spans _ (by simp [spansOf, metaSpans, hblock])⟩
  | property =>
    cases h with
    | @property properties _ keySpan _ _ _ hblock hn =>
      refine ⟨keySpan, rfl, fun hord => hord.spans keySpan ?_⟩
      have hkey : keySpan ∈ properties.filterMap keySpan? := List.mem_filterMap.2 ⟨_, hn, rfl⟩
      simp only [spansOf, metaSpans, hblock]
      simp [hkey]
  | globalBlock =>
    obtain ⟨ends, hends, hlines⟩ := h.of_globalBlock
    exact ⟨_, hlines, fun hord => hord.ends hends⟩
  | declared =>
    obtain ⟨span, hspan, hlines⟩ := h.of_declared
    exact ⟨span, hlines, fun hord => hord.spans span (by simp [spansOf, hspan])⟩
  | rule =>
    cases h with
    | @rule id children span name hn hname =>
      refine ⟨span, rfl, fun hord => hord.spans span ?_⟩
      have hrule : span ∈ rules.filterMap ruleSpan? :=
        List.mem_filterMap.2 ⟨_, hn, by simp [ruleSpan?, hname]⟩
      simp [spansOf, hrule]

end

/-! ## Lines -/

section
variable {cs : List Char} {rid metaBlock : Option Node} {globals rules : List Node} {s b : Symbol}

theorem linesOf_below (hlength : cs.length < UInt32.size) (span : Span) :
    (linesOf (.ofChars cs) span).Below (LineMap.ofChars cs).size :=
  ⟨LineMap.lineAt_lt hlength span.start, LineMap.lineAt_lt hlength span.stop⟩

theorem linesOf_within (hlength : cs.length < UInt32.size) {inner outer : Span}
    (hfirst : outer.start ≤ inner.start) (hlast : inner.stop ≤ outer.stop) :
    (linesOf (.ofChars cs) inner).Within (linesOf (.ofChars cs) outer) :=
  ⟨LineMap.lineAt_mono hlength hfirst, LineMap.lineAt_mono hlength hlast⟩

theorem Listed.within (hlength : cs.length < UInt32.size)
    (hord : Ordered cs.length rid metaBlock globals rules)
    (hb : Listed (.ofChars cs) rid metaBlock globals rules .globalBlock b)
    (hs : Listed (.ofChars cs) rid metaBlock globals rules .declared s) :
    s.lines.Within b.lines := by
  obtain ⟨ends, hends, hblines⟩ := hb.of_globalBlock
  obtain ⟨span, hspan, hslines⟩ := hs.of_declared
  obtain ⟨n, hn, hspan⟩ := List.mem_filterMap.1 hspan
  obtain ⟨hfirst, hlast⟩ := hord.globals ends hends span
    (List.mem_filterMap.2 ⟨n, hn, span?_of_declaredSpan? hspan⟩)
  rw [hslines, hblines]
  exact linesOf_within hlength hfirst hlast

theorem size_le (hlength : cs.length < UInt32.size) : (LineMap.ofChars cs).size ≤ UInt32.size := by
  have := cs.count_le_length (a := '\n')
  rw [LineMap.size_ofChars]
  omega

/-- Each symbol is on lines of the text, whose numbers fit into 32 bits. Where the spans are in
order, none ends in front of its first line, and the global block encloses what it declares. -/
theorem lines_outline {cs : List Char} (hlength : cs.length < 2 ^ 32) (n : Node) :
    let lines := LineMap.ofChars cs
    lines.size ≤ 2 ^ 32 ∧ (∀ s ∈ outline lines n, s.lines.Below lines.size) ∧
    (InOrder cs.length n → (∀ s ∈ outline lines n, s.lines.first ≤ s.lines.last) ∧
      ∀ b ∈ outline lines n, b.role = .globalBlock → ∀ s ∈ outline lines n, s.role = .declared →
        s.lines.Within b.lines) := by
  intro lines
  refine ⟨size_le hlength, fun s hs => ?_, fun hord => ⟨fun s hs => ?_,
    fun b hb hblock s hs hdecl => ?_⟩⟩
  · obtain ⟨rid, metaBlock, globals, rules, whole, rfl⟩ := exists_ruleset hs
    obtain ⟨span, hlines, -⟩ := (mem_outline_iff.1 hs).exists_span
    rw [hlines]
    exact linesOf_below hlength span
  · obtain ⟨rid, metaBlock, globals, rules, whole, rfl⟩ := exists_ruleset hs
    obtain ⟨span, hlines, hspan⟩ := (mem_outline_iff.1 hs).exists_span
    rw [hlines]
    exact LineMap.lineAt_mono hlength (hspan hord)
  · obtain ⟨rid, metaBlock, globals, rules, whole, rfl⟩ := exists_ruleset hs
    have hb := mem_outline_iff.1 hb
    have hs := mem_outline_iff.1 hs
    rw [hblock] at hb
    rw [hdecl] at hs
    exact Listed.within hlength hord hb hs

/-- A ruleset on several lines, with an LF behind each of them. -/
def manyLines : List Char :=
  ["ruleset a.b \x7b", "  meta \x7b", "    name \"n\"", "  \x7d", "  global \x7b",
    "    f = function() {}", "    g = defaction() {}", "  \x7d", "  rule r {}",
    "\x7d"].flatMap fun line => line.toList ++ ['\n']

/-- Its spans are in order, and all kinds of symbols are listed, each on its lines. -/
theorem lines_outline_manyLines :
    let n : Node := .ruleset (some (.rulesetId "a.b" ⟨8, 11⟩))
      (some (.rulesetMeta [.metaProperty "name" ⟨27, 31⟩ none none] ⟨16, 39⟩))
      [.declaration (.identifier "f" none) (.function [] none) ⟨55, 72⟩,
        .defAction (.identifier "g" none) [] ⟨77, 95⟩]
      [.rule (.identifier "r" none) [] ⟨102, 111⟩] none
    let lines := LineMap.ofChars manyLines
    InOrder manyLines.length n ∧
    (outline lines n).map (fun s => (s.name, s.lines)) = [("a.b", ⟨0, 9⟩), ("meta", ⟨1, 3⟩),
      ("name", ⟨2, 2⟩), ("global", ⟨5, 6⟩), ("f", ⟨5, 5⟩), ("g", ⟨6, 6⟩), ("r", ⟨8, 8⟩)] ∧
    lines.size = 11 ∧ (∀ s ∈ outline lines n, s.lines.Below lines.size) ∧
    (∀ s ∈ outline lines n, s.lines.first ≤ s.lines.last) ∧
    ∀ b ∈ outline lines n, b.role = .globalBlock → ∀ s ∈ outline lines n, s.role = .declared →
      s.lines.Within b.lines := by
  intro n lines
  have hord : InOrder manyLines.length n := by
    refine ⟨?_, ?_, ?_⟩ <;> decide +kernel
  have hlength : manyLines.length < 2 ^ 32 := by decide +kernel
  obtain ⟨-, hbelow, hlines⟩ := lines_outline hlength n
  exact ⟨hord, by decide +kernel, by decide +kernel, hbelow, hlines hord⟩

end
end Outline
end Krl
