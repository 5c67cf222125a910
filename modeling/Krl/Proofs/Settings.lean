import Krl.Settings
import Krl.Proofs.Json.Decoding
import Mathlib.Data.List.Induction
import Mathlib.Data.List.TakeWhile

/-!
# Settings laid over settings

A value can be laid over the settings if it is `null` or has the shape of a section (`Accepted`).
Any other value is refused as a whole. A value sets a number if the field of it holds one, and a
command if the words in the field are one (`Sets`, `SetsCommand`). Each of the four settings is what
the last value that sets it has given, among all that have been laid over the settings
(`LastGiven`).

* `decodes_section`: which values are sections, and what they give.
* `overlay?_eq_some_iff`: what a value makes of the settings.
* `overlayAll_spec`: what any values make of them, one after the other.
-/

set_option autoImplicit false

namespace Krl.Settings

open Json (HasFields IsOptional IsDefaulted IsList IsCount Decodes Tree)
open Tool (Command)

/-! ## The shape of a section -/

def IsWords : List String → Json → Prop := IsList fun s v => v = .string s

/-- The settings of a tool: the words of its command, if they are there. -/
def IsTool (words : Option (List String)) (v : Json) : Prop :=
  ∃ given, HasFields ["command"] [given] v ∧ IsOptional IsWords words given

/-- The four fields of a section, each of which may be left out. A number may be `null` as well, and
so may the words of a tool, but not the tool itself. -/
def IsSection (given : Section) (v : Json) : Prop :=
  ∃ problems debounce parser compiler,
    HasFields ["maxNumberOfProblems", "debounceMs", "parser", "compiler"]
      [problems, debounce, parser, compiler] v ∧
    IsOptional IsCount given.maxProblems problems ∧ IsOptional IsCount given.debounce debounce ∧
    IsDefaulted IsTool none given.parser parser ∧ IsDefaulted IsTool none given.compiler compiler

/-- The value can be laid over settings. -/
def Accepted (v : Json) : Prop := v = .null ∨ ∃ given, IsSection given v

theorem not_isSection_null (given : Section) : ¬ IsSection given .null :=
  fun ⟨_, _, _, _, hfields, _⟩ => Json.not_hasFields_null _ _ hfields

/-! ## Sections read -/

theorem withDefault_words_iff {r : Json.Record} {i : Nat} {words : Option (List String)}
    {vs : List Json} (hat : r.at? i = Json.firstTree? vs) (hone : vs.length ≤ 1) :
    r.withDefault i none (Tree.nullable (Tree.list? Tree.string?)) = some words ↔
      IsOptional IsWords words vs :=
  Json.withDefault_nullable_iff (Json.decodes_list Json.decodes_string) nofun hat hone

theorem withDefault_count_iff {r : Json.Record} {i : Nat} {n : Option Nat} {vs : List Json}
    (hat : r.at? i = Json.firstTree? vs) (hone : vs.length ≤ 1) :
    r.withDefault i none (Tree.nullable Tree.nat?) = some n ↔ IsOptional IsCount n vs :=
  Json.withDefault_nullable_iff Json.decodes_count nofun hat hone

theorem decodes_tool : Decodes IsTool commandOfTree? := by
  intro words v
  simp only [commandOfTree?, Option.bind_eq_bind, Option.bind_eq_some_iff,
    Json.ofTree?_eq_some_iff]
  constructor
  · rintro ⟨_, ⟨given, hfields, hone, rfl⟩, hwords⟩
    obtain ⟨vs, rfl⟩ := List.length_eq_one_iff.1 (Json.length_of_hasFields hfields)
    exact ⟨vs, hfields, (withDefault_words_iff rfl (hone vs (by simp))).1 hwords⟩
  · rintro ⟨vs, hfields, hwords⟩
    have hone := Json.length_le_one_of_isOptional hwords
    refine ⟨_, ⟨[vs], hfields, by simpa using hone, rfl⟩, ?_⟩
    exact (withDefault_words_iff rfl hone).2 hwords

theorem decodes_section : Decodes IsSection Section.ofTree? := by
  intro given v
  simp only [Section.ofTree?, Option.bind_eq_bind, Option.bind_eq_some_iff,
    Json.ofTree?_eq_some_iff, Option.some.injEq]
  constructor
  · rintro ⟨_, ⟨all, hfields, hone, rfl⟩, n, hn, ms, hms, parser, hparser, compiler, hcompiler, rfl⟩
    obtain ⟨problems, debounce, parsers, compilers, rfl⟩ :=
      List.length_eq_four.1 (Json.length_of_hasFields hfields)
    simp only [List.forall_mem_cons] at hone
    obtain ⟨hone₁, hone₂, hone₃, hone₄, -⟩ := hone
    exact ⟨problems, debounce, parsers, compilers, hfields,
      (withDefault_count_iff rfl hone₁).1 hn, (withDefault_count_iff rfl hone₂).1 hms,
      (Json.withDefault_iff decodes_tool rfl hone₃).1 hparser,
      (Json.withDefault_iff decodes_tool rfl hone₄).1 hcompiler⟩
  · rintro ⟨problems, debounce, parsers, compilers, hfields, hn, hms, hparser, hcompiler⟩
    have hone₁ := Json.length_le_one_of_isOptional hn
    have hone₂ := Json.length_le_one_of_isOptional hms
    have hone₃ := Json.length_le_one_of_isDefaulted hparser
    have hone₄ := Json.length_le_one_of_isDefaulted hcompiler
    refine ⟨_, ⟨_, hfields, ?_, rfl⟩, _, (withDefault_count_iff rfl hone₁).2 hn,
      _, (withDefault_count_iff rfl hone₂).2 hms,
      _, (Json.withDefault_iff decodes_tool rfl hone₃).2 hparser,
      _, (Json.withDefault_iff decodes_tool rfl hone₄).2 hcompiler, rfl⟩
    simp only [List.forall_mem_cons]
    exact ⟨hone₁, hone₂, hone₃, hone₄, List.forall_mem_nil _⟩

theorem overlay?_eq_some_iff {s t : Settings} {v : Json} : s.overlay? v = some t ↔
    (v = .null ∧ t = s) ∨ ∃ given, IsSection given v ∧ t = s.apply given := by
  by_cases hv : v = .null
  · subst hv
    simp [not_isSection_null, eq_comm]
  · have hover : s.overlay? v = (Section.ofTree? v.tree).map s.apply := by
      unfold overlay?
      split
      · exact absurd rfl hv
      · rfl
    rw [hover, Option.map_eq_some_iff]
    constructor
    · rintro ⟨given, hgiven, rfl⟩
      exact .inr ⟨given, decodes_section.1 hgiven, rfl⟩
    · rintro (⟨hnull, -⟩ | ⟨given, hgiven, rfl⟩)
      · exact absurd hnull hv
      · exact ⟨given, decodes_section.2 hgiven, rfl⟩

theorem overlay?_isSome_iff {s : Settings} {v : Json} : (s.overlay? v).isSome ↔ Accepted v := by
  rw [Option.isSome_iff_exists]
  constructor
  · rintro ⟨t, ht⟩
    rcases overlay?_eq_some_iff.1 ht with ⟨rfl, -⟩ | ⟨given, hgiven, -⟩
    · exact .inl rfl
    · exact .inr ⟨given, hgiven⟩
  · rintro (rfl | ⟨given, hgiven⟩)
    · exact ⟨s, rfl⟩
    · exact ⟨_, overlay?_eq_some_iff.2 (.inr ⟨given, hgiven, rfl⟩)⟩

/-! ## What a value sets -/

/-- The words of a command. The first one is the program, and not all of its letters are blank. -/
def IsCommand (words : List String) (command : Command) : Prop :=
  words = command.program :: command.args ∧
    ∃ letter ∈ command.program.toList, Text.isBlank letter = false

/-- The value gives this for a field of a section. -/
def Sets {α : Type} (field : Section → Option α) (v : Json) (a : α) : Prop :=
  ∃ given, IsSection given v ∧ field given = some a

/-- The words that the value gives for a tool are this command. -/
def SetsCommand (field : Section → Option (List String)) (v : Json) (command : Option Command) :
    Prop :=
  ∃ words c, Sets field v words ∧ IsCommand words c ∧ command = some c

theorem trim_eq_nil_iff {cs : List Char} :
    Text.trim cs = [] ↔ ∀ c ∈ cs, Text.isBlank c = true := by
  rw [Text.trim, List.reverse_eq_nil_iff, List.dropWhile_eq_nil_iff]
  constructor
  · intro h c hc
    rw [← List.takeWhile_append_dropWhile (p := Text.isBlank) (l := cs)] at hc
    rcases List.mem_append.1 hc with hc | hc
    · exact List.mem_takeWhile_imp hc
    · exact h c (List.mem_reverse.2 hc)
  · intro h c hc
    exact h c ((List.dropWhile_sublist _).subset (List.mem_reverse.1 hc))

theorem ofWords?_eq_some_iff {words : List String} {command : Command} :
    Command.ofWords? words = some command ↔ IsCommand words command := by
  rw [Command.ofWords?_eq_some_iff, ne_eq, trim_eq_nil_iff, IsCommand]
  simp only [not_forall, Bool.not_eq_true, exists_prop]

/-! ## The last value that counts -/

/-- What the last of some inputs gives among those that give something, or else what there was to
begin with. -/
inductive LastGiven {α β : Type} (Gives : β → α → Prop) (start : α) : List β → α → Prop
  | start {bs : List β} (h : ∀ b ∈ bs, ∀ a, ¬ Gives b a) : LastGiven Gives start bs start
  | given {before behind : List β} {b : β} {a : α} (h : Gives b a)
      (hbehind : ∀ c ∈ behind, ∀ a, ¬ Gives c a) : LastGiven Gives start (before ++ b :: behind) a

section
variable {α β σ : Type} {Gives : β → α → Prop} {part : σ → α} {f : σ → β → σ}

theorem LastGiven.concat {start a : α} {bs : List β} {b : β} (h : LastGiven Gives start bs a)
    (hb : ∀ a, ¬ Gives b a) : LastGiven Gives start (bs ++ [b]) a := by
  have hlast : ∀ c ∈ [b], ∀ a, ¬ Gives c a := List.forall_mem_singleton.2 hb
  cases h with
  | start h => exact .start (List.forall_mem_append.2 ⟨h, hlast⟩)
  | given h hbehind =>
    rw [List.append_assoc, List.cons_append]
    exact .given h (List.forall_mem_append.2 ⟨hbehind, hlast⟩)

theorem part_foldl_of_not_gives (hkeeps : ∀ {s b}, (∀ a, ¬ Gives b a) → part (f s b) = part s)
    {bs : List β} (h : ∀ b ∈ bs, ∀ a, ¬ Gives b a) (s : σ) : part (bs.foldl f s) = part s := by
  induction bs generalizing s with
  | nil => rfl
  | cons b bs ih =>
    obtain ⟨hb, hbs⟩ := List.forall_mem_cons.1 h
    rw [List.foldl_cons, ih hbs, hkeeps hb]

/-- A part of a state that each input gives or keeps is what has been given last. -/
theorem part_foldl_eq_iff (hgives : ∀ {s b a}, Gives b a → part (f s b) = a)
    (hkeeps : ∀ {s b}, (∀ a, ¬ Gives b a) → part (f s b) = part s) (s : σ) (bs : List β) (a : α) :
    part (bs.foldl f s) = a ↔ LastGiven Gives (part s) bs a := by
  constructor
  · rintro rfl
    induction bs using List.reverseRecOn with
    | nil => exact .start nofun
    | append_singleton bs b ih =>
      rw [List.foldl_concat]
      by_cases hb : ∃ a, Gives b a
      · obtain ⟨a, ha⟩ := hb
        rw [hgives ha]
        exact .given ha nofun
      · rw [hkeeps (not_exists.1 hb)]
        exact ih.concat (not_exists.1 hb)
  · intro h
    cases h with
    | start h => exact part_foldl_of_not_gives hkeeps h s
    | given h hbehind =>
      rw [List.foldl_append, List.foldl_cons, part_foldl_of_not_gives hkeeps hbehind, hgives h]

end

/-! ## Values laid over settings, one after the other -/

/-- The settings with the value laid over them if it is accepted; a value that is not accepted
leaves them. -/
def overlay (s : Settings) (v : Json) : Settings := (s.overlay? v).getD s

def overlayAll (s : Settings) (values : List Json) : Settings := values.foldl overlay s

section
variable {s : Settings} {v : Json} {given : Section}

theorem overlay_of_isSection (h : IsSection given v) : overlay s v = s.apply given := by
  rw [overlay, overlay?_eq_some_iff.2 (.inr ⟨given, h, rfl⟩), Option.getD_some]

theorem overlay_of_not_isSection (h : ∀ given, ¬ IsSection given v) : overlay s v = s := by
  cases hover : s.overlay? v with
  | none => rw [overlay, hover, Option.getD_none]
  | some t =>
    rcases overlay?_eq_some_iff.1 hover with ⟨-, rfl⟩ | ⟨given, hgiven, -⟩
    · rw [overlay, hover, Option.getD_some]
    · exact absurd hgiven (h given)

theorem overlay_of_not_accepted (h : ¬ Accepted v) : overlay s v = s :=
  overlay_of_not_isSection fun given hgiven => h (.inr ⟨given, hgiven⟩)

theorem apply_apply (s : Settings) (given : Section) :
    (s.apply given).apply given = s.apply given := by
  have hnumber : ∀ (o : Option Nat) (n : Nat), o.getD (o.getD n) = o.getD n := by
    intro o n
    cases o <;> rfl
  have hcommand : ∀ o c : Option Command, o.or (o.or c) = o.or c := by
    intro o c
    rw [← Option.or_assoc, Option.or_self]
  simp only [apply, hnumber, hcommand]

theorem overlay_overlay (s : Settings) (v : Json) : overlay (overlay s v) v = overlay s v := by
  by_cases h : ∃ given, IsSection given v
  · obtain ⟨given, hgiven⟩ := h
    rw [overlay_of_isSection hgiven, overlay_of_isSection hgiven, apply_apply]
  · rw [overlay_of_not_isSection (not_exists.1 h), overlay_of_not_isSection (not_exists.1 h)]

end

/-- A setting that sections may give is what the last of the values has given that sets it. -/
theorem overlayAll_eq_iff {α : Type} {field : Section → Option α} {part : Settings → α}
    (happly : ∀ s given, part (s.apply given) = (field given).getD (part s))
    (s : Settings) (values : List Json) (a : α) :
    part (overlayAll s values) = a ↔ LastGiven (Sets field) (part s) values a := by
  apply part_foldl_eq_iff
  · rintro s v a ⟨given, hgiven, ha⟩
    rw [overlay_of_isSection hgiven, happly, ha, Option.getD_some]
  · intro s v hnone
    by_cases h : ∃ given, IsSection given v
    · obtain ⟨given, hgiven⟩ := h
      have hfield : field given = none := by
        rw [Option.eq_none_iff_forall_ne_some]
        exact fun a ha => hnone a ⟨given, hgiven, ha⟩
      rw [overlay_of_isSection hgiven, happly, hfield, Option.getD_none]
    · rw [overlay_of_not_isSection (not_exists.1 h)]

theorem setsCommand_eq (field : Section → Option (List String)) : SetsCommand field =
    Sets fun given => ((field given).bind Command.ofWords?).map some := by
  funext v command
  apply propext
  constructor
  · rintro ⟨words, c, ⟨given, hgiven, hwords⟩, hc, rfl⟩
    refine ⟨given, hgiven, ?_⟩
    show ((field given).bind Command.ofWords?).map some = _
    rw [hwords, Option.bind_some, ofWords?_eq_some_iff.2 hc, Option.map_some]
  · rintro ⟨given, hgiven, hcommand⟩
    obtain ⟨c, hc, rfl⟩ := Option.map_eq_some_iff.1 hcommand
    obtain ⟨words, hwords, hc⟩ := Option.bind_eq_some_iff.1 hc
    exact ⟨words, c, ⟨given, hgiven, hwords⟩, ofWords?_eq_some_iff.1 hc, rfl⟩

/-- A command has been given by words that are one; other words do not take it away. -/
theorem overlayAll_command_eq_iff {field : Section → Option (List String)}
    {part : Settings → Option Command}
    (happly : ∀ s given, part (s.apply given) =
      ((field given).bind Command.ofWords?).or (part s))
    (s : Settings) (values : List Json) (c : Option Command) :
    part (overlayAll s values) = c ↔ LastGiven (SetsCommand field) (part s) values c := by
  rw [setsCommand_eq]
  apply overlayAll_eq_iff
  intro s given
  rw [happly]
  cases (field given).bind Command.ofWords? <;> rfl

/-- A value is laid over the settings as a whole or not at all, and `null` changes nothing. Each
setting is what the last of the values has given that sets it, or what it was if there is none, and
the same value twice in a row is as good as once. -/
theorem overlayAll_spec (s : Settings) (values : List Json) :
    (∀ v, (s.overlay? v).isSome ↔ Accepted v) ∧
    (∀ v, ¬ Accepted v → overlayAll s (values ++ [v]) = overlayAll s values) ∧
    overlayAll s (values ++ [.null]) = overlayAll s values ∧
    (∀ n, (overlayAll s values).maxProblems = n ↔
      LastGiven (Sets Section.maxProblems) s.maxProblems values n) ∧
    (∀ n, (overlayAll s values).debounce = n ↔
      LastGiven (Sets Section.debounce) s.debounce values n) ∧
    (∀ c, (overlayAll s values).parser = c ↔
      LastGiven (SetsCommand Section.parser) s.parser values c) ∧
    (∀ c, (overlayAll s values).compiler = c ↔
      LastGiven (SetsCommand Section.compiler) s.compiler values c) ∧
    ∀ v, overlayAll s (values ++ [v, v]) = overlayAll s (values ++ [v]) := by
  have hlast : ∀ v, overlayAll s (values ++ [v]) = overlay (overlayAll s values) v :=
    fun v => List.foldl_concat ..
  have htwice : ∀ v, overlayAll s (values ++ [v, v]) =
      overlay (overlay (overlayAll s values) v) v :=
    fun v => List.foldl_append
  refine ⟨fun v => overlay?_isSome_iff, fun v hv => ?_, hlast .null,
    overlayAll_eq_iff (fun _ _ => rfl) s values, overlayAll_eq_iff (fun _ _ => rfl) s values,
    overlayAll_command_eq_iff (fun _ _ => rfl) s values,
    overlayAll_command_eq_iff (fun _ _ => rfl) s values, fun v => ?_⟩
  · rw [hlast, overlay_of_not_accepted hv]
  · rw [htwice, hlast, overlay_overlay]

end Krl.Settings
