import Krl.Proofs.Json.Records
import Krl.Proofs.Text.Utf8
import Krl.Tool.Compiler

/-!
# Replies of a compiler

What a compiler means by its reply is what compiling gives, in whichever way it writes the reply:
fields in any order, with others between them, any escapes in its messages, and blanks around the
whole. The places that a failure may have are asked in turn, and so are the two outputs.

* `recovers_failure`, `recovers_warnings`: replies are read as what they were written from.
* `compile_replies`: what compiling gives, from the bytes that the compiler leaves.
-/

set_option autoImplicit false

namespace Krl.Tool

open Json (Tree Record Stands IsText IsRecord IsOptional IsDefaulted IsList Recovers recovers_string
  recovers_word recovers_list exists_record required_eq optional_eq withDefault_eq exists_ofChars?
  length_le_one_of_isOptional length_le_one_of_isDefaulted)

/-! ## Written replies -/

/-- A point, as `{line, column}`. -/
def IsPoint (p : Place) (v : Json) : Prop :=
  IsRecord [("line", [.int p.line.toNat]), ("column", [.int p.column.toNat])] v

/-- A location, as `{start: {line, column}}`. -/
def IsLocation (p : Place) (v : Json) : Prop :=
  ∃ start, IsPoint p start ∧ IsRecord [("start", [start])] v

/-- A warning, as `{message, loc: {start: {line, column}}}`. -/
def IsWarning (w : Warning) (v : Json) : Prop :=
  ∃ location, IsLocation w.start location ∧
    IsRecord [("message", [.string w.message]), ("loc", [location])] v

/-- The warnings, as `{warnings: [..]}`; where there are none, the field may be left out. -/
def IsWarnings (warnings : List Warning) (v : Json) : Prop :=
  ∃ given, IsDefaulted (IsList IsWarning) [] warnings given ∧ IsRecord [("warnings", given)] v

/-- A place of a failure's own, as `{line, col}`; a column that is zero may be left out. -/
def IsDirect (p : Place) (v : Json) : Prop :=
  ∃ columns, IsDefaulted (fun (w : UInt32) u => u = .int w.toNat) 0 p.column columns ∧
    IsRecord [("line", [.int p.line.toNat]), ("col", columns)] v

/-- What the compiler tells of itself, as `{loc: {start: {line, column}}}`; the location need not be
there. -/
def IsIndirect (p : Option Place) (v : Json) : Prop :=
  ∃ locations, IsOptional IsLocation p locations ∧ IsRecord [("loc", locations)] v

/-- A failure, as `{message, where: {line, col}, krl_compiler: {loc: {start: {line, column}}}}`;
neither place need be there. -/
def IsFailure (message : String) (direct indirect : Option Place) (v : Json) : Prop :=
  ∃ own given compiler, IsOptional IsDirect direct own ∧ IsOptional IsIndirect compiler given ∧
    indirect = compiler.join ∧
    IsRecord [("message", [.string message]), ("where", own), ("krl_compiler", given)] v

/-- Of the places of a failure, its own counts if it has a line, and otherwise that of the
location. -/
inductive Anchored : Option Place → Option Place → Anchor → Prop
  | direct {p : Place} {indirect : Option Place} (h : 0 < p.line) :
      Anchored (some p) indirect (.direct p)
  | indirect {direct : Option Place} {q : Place} (h : ∀ p ∈ direct, p.line = 0) :
      Anchored direct (some q) (.indirect q)
  | absent {direct : Option Place} (h : ∀ p ∈ direct, p.line = 0) : Anchored direct none .absent

/-- The bytes are those of a text of such a value, with blanks around it. -/
def Prints (P : Json → Prop) (bytes : List UInt8) : Prop :=
  ∃ v before cs behind, P v ∧ IsText v cs ∧ (∀ c ∈ before, Text.isBlank c = true) ∧
    (∀ c ∈ behind, Text.isBlank c = true) ∧
    bytes = Text.Utf8.encode (String.ofList (before ++ (cs ++ behind)))

/-! ## Replies read back -/

theorem recovers_point : Recovers IsPoint Place.ofTree? := by
  intro p v t hp ht
  obtain ⟨r, hr, -, hat⟩ := exists_record hp (by simp) ht
  have hline := required_eq recovers_word (hat 0 _ rfl) rfl
  have hcolumn := required_eq recovers_word (hat 1 _ rfl) rfl
  simp only [List.map_cons, List.map_nil] at hr
  simp only [Place.ofTree?, hr, hline, hcolumn, Option.bind_eq_bind, Option.bind_some]

theorem recovers_location : Recovers IsLocation startOf? := by
  rintro p v t ⟨start, hstart, hv⟩ ht
  obtain ⟨r, hr, -, hat⟩ := exists_record hv (by simp) ht
  simp only [List.map_cons, List.map_nil] at hr
  simp only [startOf?, hr, Option.bind_eq_bind, Option.bind_some]
  exact required_eq recovers_point (hat 0 _ rfl) hstart

theorem recovers_warning : Recovers IsWarning Warning.ofTree? := by
  rintro w v t ⟨location, hlocation, hv⟩ ht
  obtain ⟨r, hr, -, hat⟩ := exists_record hv (by simp) ht
  have hmessage := required_eq recovers_string (hat 0 _ rfl) rfl
  have hstart := required_eq recovers_location (hat 1 _ rfl) hlocation
  simp only [List.map_cons, List.map_nil] at hr
  simp only [Warning.ofTree?, hr, hmessage, hstart, Option.bind_eq_bind, Option.bind_some]

/-- The warnings of a compiler that succeeds are read in order. -/
theorem recovers_warnings : Recovers IsWarnings warningsOfTree? := by
  rintro warnings v t ⟨given, hgiven, hv⟩ ht
  obtain ⟨r, hr, -, hat⟩ :=
    exists_record hv (by simpa using length_le_one_of_isDefaulted hgiven) ht
  simp only [List.map_cons, List.map_nil] at hr
  simp only [warningsOfTree?, hr, Option.bind_eq_bind, Option.bind_some]
  exact withDefault_eq (recovers_list recovers_warning) (hat 0 _ rfl) hgiven

theorem recovers_direct : Recovers IsDirect directOfTree? := by
  rintro p v t ⟨columns, hcolumns, hv⟩ ht
  obtain ⟨r, hr, -, hat⟩ :=
    exists_record hv (by simpa using length_le_one_of_isDefaulted hcolumns) ht
  have hline := required_eq recovers_word (hat 0 _ rfl) rfl
  have hcolumn := withDefault_eq recovers_word (hat 1 _ rfl) hcolumns
  simp only [List.map_cons, List.map_nil] at hr
  simp only [directOfTree?, hr, hline, hcolumn, Option.bind_eq_bind, Option.bind_some]

theorem recovers_indirect : Recovers IsIndirect indirectOfTree? := by
  rintro p v t ⟨locations, hlocations, hv⟩ ht
  obtain ⟨r, hr, hnamed, hat⟩ :=
    exists_record hv (by simpa using length_le_one_of_isOptional hlocations) ht
  simp only [List.map_cons, List.map_nil] at hr
  simp only [indirectOfTree?, hr, Option.bind_eq_bind, Option.bind_some]
  exact optional_eq recovers_location rfl hnamed (hat 0 _ rfl) hlocations

theorem Anchored.anchor_eq {direct indirect : Option Place} {anchor : Anchor}
    (h : Anchored direct indirect anchor) : Anchor.of direct indirect = anchor := by
  have hfilter : ∀ {direct : Option Place}, (∀ p ∈ direct, p.line = 0) →
      direct.filter (fun p => 0 < p.line) = none := by
    intro direct hzero
    rw [Option.filter_eq_none_iff]
    intro p hp
    simp [hzero p hp]
  cases h with
  | direct hline => simp only [Anchor.of, Option.filter_some, hline, decide_true, if_true]
  | indirect hzero => simp only [Anchor.of, hfilter hzero]
  | absent hzero => simp only [Anchor.of, hfilter hzero]

/-- A failure is read with its message, and with the place that counts. -/
theorem recovers_failure :
    Recovers (fun (e : CompileFailure) v => ∃ direct indirect,
      Anchored direct indirect e.anchor ∧ IsFailure e.message direct indirect v)
      CompileFailure.ofTree? := by
  rintro e v t ⟨direct, indirect, hanchor, own, given, compiler, hown, hgiven, rfl, hv⟩ ht
  obtain ⟨r, hr, hnamed, hat⟩ := exists_record hv
    (by simpa using ⟨length_le_one_of_isOptional hown, length_le_one_of_isOptional hgiven⟩) ht
  have hmessage := required_eq recovers_string (hat 0 _ rfl) rfl
  have hdirect := optional_eq recovers_direct rfl hnamed (hat 1 _ rfl) hown
  have hindirect := optional_eq recovers_indirect rfl hnamed (hat 2 _ rfl) hgiven
  simp only [List.map_cons, List.map_nil] at hr
  simp only [CompileFailure.ofTree?, hr, hmessage, hdirect, hindirect, hanchor.anchor_eq,
    Option.bind_eq_bind, Option.bind_some]

/-! ## Outputs read back -/

theorem trim_padded {before behind ds : List Char} {first last : Char}
    (hbefore : ∀ c ∈ before, Text.isBlank c = true) (hfirst : Text.isBlank first = false)
    (hlast : Text.isBlank last = false) (hbehind : ∀ c ∈ behind, Text.isBlank c = true) :
    Text.trim (before ++ ((first :: (ds ++ [last])) ++ behind)) = first :: (ds ++ [last]) := by
  have hfront : (before ++ ((first :: (ds ++ [last])) ++ behind)).dropWhile Text.isBlank =
      (first :: (ds ++ [last])) ++ behind := by
    rw [List.dropWhile_append_of_pos hbefore, List.cons_append,
      List.dropWhile_cons_of_neg (by simp [hfirst])]
  have hback : ((first :: (ds ++ [last])) ++ behind).reverse.dropWhile Text.isBlank =
      (first :: (ds ++ [last])).reverse := by
    rw [List.reverse_append,
      List.dropWhile_append_of_pos fun c hc => hbehind c (List.mem_reverse.1 hc)]
    simp [hlast]
  rw [Text.trim, hfront, hback, List.reverse_reverse]

/-- What is printed as such a record is read from the output. -/
theorem readFrom?_of_prints {α : Type} {R : α → Json → Prop} {read : Tree → Option α} {a : α}
    {bytes : List UInt8} (hread : Recovers R read)
    (hrecord : ∀ {v}, R a v → ∃ fields, v = .object fields) (h : Prints (R a) bytes) :
    Output.readFrom? read (Text.Utf8.lossy bytes) = some a := by
  obtain ⟨v, before, cs, behind, hv, htext, hbefore, hbehind, rfl⟩ := h
  obtain ⟨fields, rfl⟩ := hrecord hv
  obtain ⟨t, ht, hstands⟩ := exists_ofChars? htext
  obtain ⟨ds, rfl⟩ : ∃ ds, cs = '{' :: (ds ++ ['}']) := by
    cases htext with
    | emptyObject => exact ⟨_, rfl⟩
    | object => exact ⟨_, rfl⟩
  rw [Output.readFrom?, Text.Utf8.lossy_encode, String.toList_ofList,
    trim_padded hbefore (by decide) (by decide) hbehind, ht, Option.bind_some]
  exact hread hv hstands

/-- What a program prints that writes a value in one of the styles. -/
theorem prints_write {P : Json → Prop} {style : Json.Style} {v : Json} {before behind : List Char}
    (hstyle : style.Blank) (hproper : v.Proper) (hv : P v)
    (hbefore : ∀ c ∈ before, Text.isBlank c = true)
    (hbehind : ∀ c ∈ behind, Text.isBlank c = true) :
    Prints P (Text.Utf8.encode (String.ofList (before ++ (v.write style 0 ++ behind)))) :=
  ⟨v, before, _, behind, hv, Json.isText_write hstyle 0 v hproper, hbefore, hbehind, rfl⟩

/-! ## Compiling -/

section
variable {host : Host} {command : Command} {source : String} {status : Int}
  {stdout stderr : List UInt8}

/-- What compiling gives, from what the compiler has printed when it ended: its failure, if one can
be read from its output or else from its errors; and all of its warnings in order. -/
theorem compile_replies
    (hrun : host.run command source = .ok (.ofStatus status stdout stderr)) :
    (∀ message direct indirect anchor, status ≠ 0 → Anchored direct indirect anchor →
      (Prints (IsFailure message direct indirect) stdout ∨
        Output.readFrom? CompileFailure.ofTree? (Text.Utf8.lossy stdout) = none ∧
          Prints (IsFailure message direct indirect) stderr) →
      compile host (some command) source = .error ⟨message, anchor⟩) ∧
    ∀ warnings, status = 0 → Prints (IsWarnings warnings) stdout →
      compile host (some command) source = .ok warnings := by
  constructor
  · intro message direct indirect anchor hstatus hanchor hprints
    have hreads : ∀ {bytes}, Prints (IsFailure message direct indirect) bytes →
        Output.readFrom? CompileFailure.ofTree? (Text.Utf8.lossy bytes) =
          some ⟨message, anchor⟩ := by
      rintro bytes ⟨v, before, cs, behind, hv, hrest⟩
      refine readFrom?_of_prints recovers_failure ?_
        ⟨v, before, cs, behind, ⟨direct, indirect, hanchor, hv⟩, hrest⟩
      rintro w ⟨_, _, _, _, _, _, _, _, _, ⟨_⟩⟩
      exact ⟨_, rfl⟩
    have hsuccess : (Output.ofStatus status stdout stderr).success = false := by
      simpa [Output.ofStatus] using hstatus
    have hdecode : (Output.ofStatus status stdout stderr).decode? CompileFailure.ofTree? =
        some ⟨message, anchor⟩ := by
      rw [Output.decode?, Output.ofStatus]
      rcases hprints with hout | ⟨hout, herr⟩
      · rw [hreads hout, Option.some_or]
      · rw [hout, hreads herr, Option.none_or]
    rw [compile, hrun]
    simp only [compiledOfOutput, hsuccess, CompileFailure.ofOutput, hdecode, Option.getD_some]
    rfl
  · intro warnings hstatus hprints
    have hwarnings : Output.readFrom? warningsOfTree? (Text.Utf8.lossy stdout) = some warnings := by
      refine readFrom?_of_prints recovers_warnings ?_ hprints
      rintro w ⟨_, _, ⟨_⟩⟩
      exact ⟨_, rfl⟩
    have hsuccess : (Output.ofStatus status stdout stderr).success = true := by
      simp [Output.ofStatus, hstatus]
    have hout : (Output.ofStatus status stdout stderr).stdout = Text.Utf8.lossy stdout := rfl
    rw [compile, hrun]
    simp only [compiledOfOutput, hsuccess, hout, hwarnings, if_true]

end

/-- A location as the compiler writes it. -/
def locationOf (p : Place) : Json :=
  .object [("start", .object [("column", .int p.column.toNat), ("line", .int p.line.toNat)])]

theorem isLocation_locationOf (p : Place) : IsLocation p (locationOf p) :=
  ⟨.object [("column", .int p.column.toNat), ("line", .int p.line.toNat)],
    .mk (by simp [Json.valuesOf]), .mk (by simp [Json.valuesOf])⟩

/-- A failure with a place of its own that has no line, a location, and a field that is unknown. -/
def misplaced : Json :=
  .object [
    ("krl_compiler", .object [("loc", locationOf ⟨4, 2⟩)]),
    ("message", .string "no \"always\"\n"),
    ("stack", .array [.null]),
    ("where", .object [("col", .int 3), ("line", .int 0)])]

theorem isFailure_misplaced :
    IsFailure "no \"always\"\n" (some ⟨0, 3⟩) (some ⟨4, 2⟩) misplaced := by
  have hdirect : IsDirect ⟨0, 3⟩ (.object [("col", .int 3), ("line", .int 0)]) :=
    ⟨[.int 3], .present rfl, .mk (by simp [Json.valuesOf])⟩
  have hindirect : IsIndirect (some ⟨4, 2⟩) (.object [("loc", locationOf ⟨4, 2⟩)]) :=
    ⟨_, .present (isLocation_locationOf _), .mk (by simp [Json.valuesOf])⟩
  exact ⟨_, _, some (some ⟨4, 2⟩), .present hdirect, .present hindirect, rfl,
    .mk (by simp [Json.valuesOf])⟩

/-- A reply with one warning. -/
def remark : Json :=
  .object [("warnings", .array [
    .object [("loc", locationOf ⟨16, 4⟩), ("message", .string "duplicate x")]])]

theorem isWarnings_remark : IsWarnings [⟨"duplicate x", ⟨16, 4⟩⟩] remark := by
  have hwarning : IsWarning ⟨"duplicate x", ⟨16, 4⟩⟩
      (.object [("loc", locationOf ⟨16, 4⟩), ("message", .string "duplicate x")]) :=
    ⟨_, isLocation_locationOf _, .mk (by simp [Json.valuesOf])⟩
  exact ⟨_, .present (.mk (.cons hwarning .nil)), .mk (by simp [Json.valuesOf])⟩

/-- The text of a value in one of the styles, between blanks. -/
def printed (style : Json.Style) (v : Json) : List UInt8 :=
  Text.Utf8.encode (String.ofList (['\u00a0'] ++ (v.write style 0 ++ ['\n'])))

theorem prints_printed {P : Json → Prop} {style : Json.Style} {v : Json} (hstyle : style.Blank)
    (hproper : v.Proper) (hv : P v) : Prints P (printed style v) :=
  prints_write hstyle hproper hv (List.forall_mem_singleton.2 (by decide))
    (List.forall_mem_singleton.2 (by decide))

/-- Every command prints this and ends with this status. -/
def printing (status : Int) (stdout stderr : List UInt8) : Host :=
  ⟨fun _ _ => .ok (.ofStatus status stdout stderr)⟩

theorem compile_replies_printing :
    compile (printing 1 (Text.Utf8.encode "compiling") (printed .pretty misplaced))
        (some ⟨"krl", []⟩) "" = .error ⟨"no \"always\"\n", .indirect ⟨4, 2⟩⟩ ∧
      compile (printing 0 (printed .compact remark) []) (some ⟨"krl", []⟩) "" =
        .ok [⟨"duplicate x", ⟨16, 4⟩⟩] := by
  have hmisplaced : misplaced.Proper := fun x hx => by
    have hmem := Json.mem_within_iff.2 hx
    simp [misplaced, locationOf, Json.within, Json.withinAll, Json.withinFields,
      Json.withinField] at hmem
  have hremark : remark.Proper := fun x hx => by
    have hmem := Json.mem_within_iff.2 hx
    simp [remark, locationOf, Json.within, Json.withinAll, Json.withinFields,
      Json.withinField] at hmem
  have hunread : Output.readFrom? CompileFailure.ofTree?
      (Text.Utf8.lossy (Text.Utf8.encode "compiling")) = none := by
    rw [Text.Utf8.lossy_encode]
    decide +kernel
  have hzero : ∀ p ∈ some (⟨0, 3⟩ : Place), p.line = 0 := by decide
  exact ⟨(compile_replies rfl).1 _ _ _ _ (by decide) (.indirect hzero)
      (.inr ⟨hunread, prints_printed Json.Style.blank_pretty hmisplaced isFailure_misplaced⟩),
    (compile_replies rfl).2 _ rfl
      (prints_printed Json.Style.blank_compact hremark isWarnings_remark)⟩

end Krl.Tool
