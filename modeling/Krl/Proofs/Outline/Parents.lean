import Krl.Node.Reading
import Krl.Outline

/-!
# Parents in an outline

Each symbol of an outline has a role, by which it belongs to another one (`Symbol.role`,
`Role.owner?`). What an outline lists is said once, with one case for each kind of symbol
(`Listed`, `mem_outline_iff`); it lists symbols by their roles (`ascends_outline`), and so what a
symbol belongs to stands in front of it, wherever it is listed (`owner_mem_before`).

* `parent_listed_iff`: the parent that a symbol names is found in front of it, unless the ruleset
  has no id, or the global block an entry at one of its ends that does not say where it stands.
* `parent_unlisted`: such an entry leaves the declarations of the block without their parent.
-/

set_option autoImplicit false

namespace Krl

/-! ## Roles -/

namespace Symbol

/-- What a symbol of an outline stands for: the ruleset by its id, or one of its parts. -/
inductive Role where
  | ruleset
  | metaBlock
  | property
  | globalBlock
  /-- A declaration or an action of the global block. -/
  | declared
  | rule
deriving DecidableEq, Repr

/-- Of the scopes, only the id of a ruleset belongs to nothing. -/
def role (s : Symbol) : Role :=
  match s.kind, s.parent with
  | .scope, none => .ruleset
  | .scope, some _ => if s.name = "meta" then .metaBlock else .globalBlock
  | .field, _ => .property
  | .event, _ => .rule
  | _, _ => .declared

/-- What a part belongs to. -/
def Role.owner? : Role → Option Role
  | .ruleset => none
  | .metaBlock | .globalBlock | .rule => some .ruleset
  | .property => some .metaBlock
  | .declared => some .globalBlock

/-- The order in which the roles are listed. -/
def Role.rank : Role → Nat
  | .ruleset => 0
  | .metaBlock => 1
  | .property => 2
  | .globalBlock => 3
  | .declared => 4
  | .rule => 5

theorem Role.rank_lt {r o : Role} (h : r.owner? = some o) : o.rank < r.rank := by
  cases r <;> cases h <;> decide

end Symbol

namespace Outline

open Krl.Symbol (Role)

section
variable (lines : LineMap) (rid metaBlock : Option Node) (globals rules : List Node)

/-- What the outline of a ruleset lists, and in which role. -/
inductive Listed : Role → Symbol → Prop where
  | ruleset {value : String} {span : Span} : rid = some (.rulesetId value span) →
      Listed .ruleset
        ⟨value, .scope, ⟨lines.lineAt span.start, lines.lineAt (lines.length - 1)⟩, none⟩
  | metaBlock {properties : List Node} {span : Span} :
      metaBlock = some (.rulesetMeta properties span) →
      Listed .metaBlock ⟨"meta", .scope, linesOf lines span, some (ruleName rid)⟩
  | property {properties : List Node} {span keySpan : Span} {key : String} {value : Option Node}
      {whole : Option Span} : metaBlock = some (.rulesetMeta properties span) →
      .metaProperty key keySpan value whole ∈ properties →
      Listed .property ⟨key, .field, linesOf lines keySpan, some "meta"⟩
  | globalBlock {first last : Span} : globals.head?.bind Node.span? = some first →
      globals.getLast?.bind Node.span? = some last →
      Listed .globalBlock ⟨"global", .scope, ⟨lines.lineAt first.start, lines.lineAt last.stop⟩,
        some (ruleName rid)⟩
  | declaration {left right : Node} {span : Span} {name : String} :
      .declaration left right span ∈ globals → left.name? = some name →
      Listed .declared ⟨name, kindOf right, linesOf lines span, some "global"⟩
  | action {id : Node} {children : List Node} {span : Span} {name : String} :
      .defAction id children span ∈ globals → id.name? = some name →
      Listed .declared ⟨name, .method, linesOf lines span, some "global"⟩
  | rule {id : Node} {children : List Node} {span : Span} {name : String} :
      .rule id children span ∈ rules → id.name? = some name →
      Listed .rule ⟨name, .event, linesOf lines span, some (ruleName rid)⟩

end

section
variable {lines : LineMap} {rid metaBlock : Option Node} {globals rules : List Node}
  {whole : Option Span} {s b : Symbol} {r : Role} {before after : List Symbol}

theorem kindOf_ne (right : Node) :
    kindOf right ≠ .scope ∧ kindOf right ≠ .field ∧ kindOf right ≠ .event := by
  unfold kindOf
  split <;> simp

theorem Listed.role (h : Listed lines rid metaBlock globals rules r s) : s.role = r := by
  cases h with
  | @declaration left right =>
    obtain ⟨hscope, hfield, hevent⟩ := kindOf_ne right
    unfold Symbol.role
    split <;> simp_all
  | _ => rfl

/-! ## The parts of an outline -/

theorem mem_ofRid_iff (metaBlock : Option Node) (globals rules : List Node) :
    s ∈ ofRid lines rid ↔ Listed lines rid metaBlock globals rules .ruleset s := by
  constructor
  · intro h
    unfold ofRid at h
    split at h
    · rw [List.mem_singleton] at h
      subst h
      exact .ruleset rfl
    · cases h
  · rintro ⟨rfl⟩
    exact List.mem_singleton_self _

theorem mem_globalBlock_iff (metaBlock : Option Node) (rules : List Node) :
    s ∈ globalBlock lines (ruleName rid) globals ↔
      Listed lines rid metaBlock globals rules .globalBlock s := by
  constructor
  · intro h
    unfold globalBlock at h
    split at h
    · rename_i first last hfirst hlast
      rw [List.mem_singleton] at h
      subst h
      exact .globalBlock hfirst hlast
    · cases h
  · intro h
    cases h with
    | globalBlock hfirst hlast => simp [globalBlock, hfirst, hlast]

theorem mem_ofGlobal_iff (rid metaBlock : Option Node) (rules : List Node) :
    s ∈ globals.filterMap (ofGlobal lines) ↔
      Listed lines rid metaBlock globals rules .declared s := by
  rw [List.mem_filterMap]
  constructor
  · rintro ⟨n, hn, h⟩
    unfold ofGlobal at h
    split at h
    · obtain ⟨name, hname, rfl⟩ := Option.map_eq_some_iff.1 h
      exact .declaration hn hname
    · obtain ⟨name, hname, rfl⟩ := Option.map_eq_some_iff.1 h
      exact .action hn hname
    · cases h
  · intro h
    cases h with
    | declaration hn hname => exact ⟨_, hn, by simp [ofGlobal, hname]⟩
    | action hn hname => exact ⟨_, hn, by simp [ofGlobal, hname]⟩

theorem mem_ofRule_iff (metaBlock : Option Node) (globals : List Node) :
    s ∈ rules.filterMap (ofRule lines (ruleName rid)) ↔
      Listed lines rid metaBlock globals rules .rule s := by
  rw [List.mem_filterMap]
  constructor
  · rintro ⟨n, hn, h⟩
    unfold ofRule at h
    split at h
    · obtain ⟨name, hname, rfl⟩ := Option.map_eq_some_iff.1 h
      exact .rule hn hname
    · cases h
  · intro h
    cases h with
    | rule hn hname => exact ⟨_, hn, by simp [ofRule, hname]⟩

theorem mem_ofMeta_iff (globals rules : List Node) :
    s ∈ ofMeta lines (ruleName rid) metaBlock ↔
      Listed lines rid metaBlock globals rules .metaBlock s ∨
        Listed lines rid metaBlock globals rules .property s := by
  constructor
  · intro h
    unfold ofMeta at h
    split at h
    · rcases List.mem_cons.1 h with rfl | h
      · exact .inl (.metaBlock rfl)
      · obtain ⟨n, hn, h⟩ := List.mem_filterMap.1 h
        unfold ofProperty at h
        split at h
        · cases h
          exact .inr (.property rfl hn)
        · cases h
    · cases h
  · rintro (h | h)
    · cases h with
      | metaBlock hblock => simp [ofMeta, hblock]
    · cases h with
      | property hblock hn =>
        rw [hblock]
        exact List.mem_cons_of_mem _ (List.mem_filterMap.2 ⟨_, hn, rfl⟩)

theorem mem_outline_iff : s ∈ outline lines (.ruleset rid metaBlock globals rules whole) ↔
    Listed lines rid metaBlock globals rules s.role s := by
  have hrole : ∀ {r}, Listed lines rid metaBlock globals rules r s →
      Listed lines rid metaBlock globals rules s.role s := fun h => by rwa [h.role]
  unfold outline
  simp only [List.mem_append, mem_ofRid_iff metaBlock globals rules, mem_ofMeta_iff globals rules,
    mem_globalBlock_iff metaBlock rules, mem_ofGlobal_iff rid metaBlock rules,
    mem_ofRule_iff metaBlock globals]
  constructor
  · rintro ((((h | (h | h)) | h) | h) | h) <;> exact hrole h
  · cases s.role <;> intro h <;> simp [h]

theorem exists_ruleset {n : Node} (h : s ∈ outline lines n) :
    ∃ rid metaBlock globals rules whole, n = .ruleset rid metaBlock globals rules whole := by
  unfold outline at h
  split at h
  · exact ⟨_, _, _, _, _, rfl⟩
  · cases h

/-! ## Order -/

/-- The symbols stand by their roles, from one place in the order of roles to another. -/
structure Ascends (lo hi : Nat) (xs : List Symbol) : Prop where
  ascending : xs.Pairwise fun s t => s.role.rank ≤ t.role.rank
  bounds : ∀ s ∈ xs, lo ≤ s.role.rank ∧ s.role.rank ≤ hi

theorem Ascends.of_role {lo hi : Nat} {xs : List Symbol} (h : ∀ s ∈ xs, s.role = r)
    (hlo : lo ≤ r.rank) (hhi : r.rank ≤ hi) : Ascends lo hi xs where
  ascending := List.pairwise_of_forall_mem_list fun s hs t ht =>
    Nat.le_of_eq (by rw [h s hs, h t ht])
  bounds s hs := by
    rw [h s hs]
    exact ⟨hlo, hhi⟩

theorem Ascends.append {lo mid hi : Nat} {xs ys : List Symbol} (hxs : Ascends lo mid xs)
    (hys : Ascends mid hi ys) (hlo : lo ≤ mid) (hhi : mid ≤ hi) : Ascends lo hi (xs ++ ys) where
  ascending := List.pairwise_append.2 ⟨hxs.ascending, hys.ascending, fun s hs t ht =>
    Nat.le_trans (hxs.bounds s hs).2 (hys.bounds t ht).1⟩
  bounds s hs := by
    rcases List.mem_append.1 hs with hs | hs
    · have := hxs.bounds s hs
      omega
    · have := hys.bounds s hs
      omega

theorem ascends_ofMeta (lines : LineMap) (owner : String) (metaBlock : Option Node) :
    Ascends 0 2 (ofMeta lines owner metaBlock) := by
  unfold ofMeta
  split
  · rename_i properties span
    have hblock : Ascends 0 1 [⟨"meta", .scope, linesOf lines span, some owner⟩] :=
      .of_role (r := .metaBlock) (by simp [Symbol.role]) (by decide) (by decide)
    refine hblock.append (.of_role (r := .property) (fun s hs => ?_) (by decide) (by decide))
      (by decide) (by decide)
    obtain ⟨n, -, h⟩ := List.mem_filterMap.1 hs
    unfold ofProperty at h
    split at h <;> cases h
    rfl
  · exact ⟨.nil, nofun⟩

/-- An outline lists symbols by their roles. -/
theorem ascends_outline (lines : LineMap) (n : Node) : Ascends 0 5 (outline lines n) := by
  unfold outline
  split
  · rename_i rid metaBlock globals rules whole
    have hrid : Ascends 0 0 (ofRid lines rid) :=
      .of_role (fun s hs => ((mem_ofRid_iff metaBlock globals rules).1 hs).role)
        (by decide) (by decide)
    have hblock : Ascends 2 3 (globalBlock lines (ruleName rid) globals) :=
      .of_role (fun s hs => ((mem_globalBlock_iff metaBlock rules).1 hs).role)
        (by decide) (by decide)
    have hdeclared : Ascends 3 4 (globals.filterMap (ofGlobal lines)) :=
      .of_role (fun s hs => ((mem_ofGlobal_iff rid metaBlock rules).1 hs).role)
        (by decide) (by decide)
    have hrule : Ascends 4 5 (rules.filterMap (ofRule lines (ruleName rid))) :=
      .of_role (fun s hs => ((mem_ofRule_iff metaBlock globals).1 hs).role)
        (by decide) (by decide)
    have hmeta := ascends_ofMeta lines (ruleName rid) metaBlock
    have hhead := (hrid.append hmeta (by decide) (by decide)).append hblock
      (by decide) (by decide)
    exact (hhead.append hdeclared (by decide) (by decide)).append hrule (by decide) (by decide)
  · exact ⟨.nil, nofun⟩

/-- What a symbol belongs to stands in front of it, wherever it is listed. -/
theorem owner_mem_before {n : Node} (h : outline lines n = before ++ s :: after)
    (hb : b ∈ outline lines n) (howner : s.role.owner? = some b.role) : b ∈ before := by
  have hasc := (ascends_outline lines n).ascending
  have hlt := Symbol.Role.rank_lt howner
  rw [h] at hasc hb
  rcases List.mem_append.1 hb with hb | hb
  · exact hb
  · exfalso
    obtain ⟨-, hrest, -⟩ := List.pairwise_append.1 hasc
    rcases List.mem_cons.1 hb with rfl | hb
    · omega
    · have := (List.pairwise_cons.1 hrest).1 b hb
      omega

/-! ## Parents -/

/-- Does an outline list the scope in this role, when it lists something in it? The ruleset has to
have an id, and of the global block the first and the last entry have to say where they are. -/
def Lists : Node → Role → Prop
  | .ruleset rid _ _ _ _, .ruleset => ∃ value span, rid = some (.rulesetId value span)
  | .ruleset _ _ globals _ _, .globalBlock => ∃ first last,
    globals.head?.bind Node.span? = some first ∧ globals.getLast?.bind Node.span? = some last
  | _, _ => True

theorem exists_owner_iff {o : Role} {p : String} (hs : Listed lines rid metaBlock globals rules r s)
    (howner : r.owner? = some o) (hp : s.parent = some p) :
    (∃ b, Listed lines rid metaBlock globals rules o b ∧ b.kind = .scope ∧ b.name = p) ↔
      Lists (.ruleset rid metaBlock globals rules whole) o := by
  constructor
  · rintro ⟨b, hb, -⟩
    cases hb with
    | ruleset hrid => exact ⟨_, _, hrid⟩
    | globalBlock hfirst hlast => exact ⟨_, _, hfirst, hlast⟩
    | _ => trivial
  · intro hlists
    cases hs with
    | ruleset => cases hp
    | property hblock =>
      cases howner
      cases hp
      exact ⟨_, .metaBlock hblock, rfl, rfl⟩
    | declaration | action =>
      cases howner
      cases hp
      obtain ⟨first, last, hfirst, hlast⟩ := hlists
      exact ⟨_, .globalBlock hfirst hlast, rfl, rfl⟩
    | metaBlock | globalBlock | rule =>
      cases howner
      cases hp
      obtain ⟨value, span, rfl⟩ := hlists
      exact ⟨_, .ruleset rfl, rfl, rfl⟩

theorem owner_of_parent {p : String} (hs : Listed lines rid metaBlock globals rules r s)
    (hp : s.parent = some p) : ∃ o, r.owner? = some o ∧ (o = .ruleset → p = ruleName rid) := by
  cases hs with
  | ruleset => cases hp
  | property | declaration | action => exact ⟨_, rfl, nofun⟩
  | metaBlock | globalBlock | rule =>
    cases hp
    exact ⟨_, rfl, fun _ => rfl⟩

/-- The parent of a symbol is listed in front of it in the role that it belongs to, just if it is
listed at all; where the ruleset has no id, the parent is what stands for it. -/
theorem parent_listed_iff {n : Node} {p : String} (h : outline lines n = before ++ s :: after)
    (hp : s.parent = some p) : ∃ o, s.role.owner? = some o ∧
      ((∃ b ∈ before, b.kind = .scope ∧ b.role = o ∧ b.name = p) ↔ Lists n o) ∧
      (o = .ruleset → ¬ Lists n o → p = noRid) := by
  have hmem : s ∈ outline lines n := by simp [h]
  obtain ⟨rid, metaBlock, globals, rules, whole, rfl⟩ := exists_ruleset hmem
  have hs := mem_outline_iff.1 hmem
  obtain ⟨o, howner, hname⟩ := owner_of_parent hs hp
  refine ⟨o, howner, ?_, ?_⟩
  · rw [← exists_owner_iff hs howner hp]
    constructor
    · rintro ⟨b, hb, hkind, rfl, hbp⟩
      have hb : b ∈ outline lines (.ruleset rid metaBlock globals rules whole) := by simp [h, hb]
      exact ⟨b, mem_outline_iff.1 hb, hkind, hbp⟩
    · rintro ⟨b, hb, hkind, hbp⟩
      obtain rfl := hb.role
      exact ⟨b, owner_mem_before h (mem_outline_iff.2 hb) howner, hkind, rfl, hbp⟩
  · rintro rfl hnone
    rw [hname rfl]
    unfold ruleName
    split
    · exact absurd ⟨_, _, rfl⟩ hnone
    · rfl

/-- The lines of a text without an LF. -/
def oneLine : LineMap := .ofText "ruleset a.b { global { x f = function() {} } }"

/-- A declaration behind the ruleset, its meta block with a property, and its global block. -/
theorem parent_listed_iff_declared :
    let n : Node := .ruleset (some (.rulesetId "a.b" ⟨8, 11⟩))
      (some (.rulesetMeta [.metaProperty "name" ⟨12, 12⟩ none none] ⟨12, 13⟩))
      [.declaration (.identifier "f" none) (.function [] none) ⟨25, 42⟩] [] none
    let scopes : List Symbol := [⟨"a.b", .scope, ⟨0, 0⟩, none⟩,
      ⟨"meta", .scope, ⟨0, 0⟩, some "a.b"⟩, ⟨"name", .field, ⟨0, 0⟩, some "meta"⟩,
      ⟨"global", .scope, ⟨0, 0⟩, some "a.b"⟩]
    let f : Symbol := ⟨"f", .function, ⟨0, 0⟩, some "global"⟩
    outline oneLine n = scopes ++ f :: [] ∧ f.parent = some "global" ∧
      ∃ b ∈ scopes, b.kind = .scope ∧ b.role = .globalBlock ∧ b.name = "global" := by
  intro n scopes f
  have hlist : outline oneLine n = scopes ++ f :: [] := by decide +kernel
  refine ⟨hlist, rfl, ?_⟩
  obtain ⟨o, howner, hiff, -⟩ := parent_listed_iff hlist (p := "global") rfl
  cases howner
  exact hiff.2 ⟨_, _, rfl, rfl⟩

/-- A ruleset with an id, whose global block starts with an identifier that does not say where it
stands, and then declares a function. -/
def unplaced : Json :=
  .object [
    ("global", .array [
      .object [("type", .string "Identifier"), ("value", .string "x")],
      .object [
        ("left", .object [("type", .string "Identifier"), ("value", .string "f")]),
        ("loc", .object [("end", .int 42), ("start", .int 25)]),
        ("right", .object [("type", .string "Function")]),
        ("type", .string "Declaration")]]),
    ("rid", .object [
      ("loc", .object [("end", .int 11), ("start", .int 8)]),
      ("type", .string "RulesetID"), ("value", .string "a.b")]),
    ("rules", .array []),
    ("type", .string "Ruleset")]

/-- The ruleset is read, and the function is listed below a global block that is not. -/
theorem parent_unlisted : ∃ n, Node.ofJson unplaced = .ok n ∧
    outline oneLine n = [⟨"a.b", .scope, ⟨0, 0⟩, none⟩, ⟨"f", .function, ⟨0, 0⟩, some "global"⟩] ∧
    ¬ ∀ before s after p, outline oneLine n = before ++ s :: after → s.parent = some p →
      p ≠ noRid → ∃ b ∈ before, b.kind = .scope ∧ b.name = p := by
  refine ⟨_, rfl, by decide +kernel, fun h => ?_⟩
  have hf := h [⟨"a.b", .scope, ⟨0, 0⟩, none⟩] ⟨"f", .function, ⟨0, 0⟩, some "global"⟩ [] "global"
    (by decide +kernel) rfl (by decide)
  simp at hf

end
end Outline
end Krl
