import Krl.Completion
import Mathlib.Data.List.FinRange
import Mathlib.Data.List.Induction
import Mathlib.Data.List.Nodup

/-!
# Completions from symbols

What is offered for a list of tokens, place by place. A symbol defines a function if the next token
is the symbol `function`, which it takes (`takenAt`): that one is no name then, and defines nothing.
Behind a token that is not taken, the places are those of the tokens from there on (`takenAt_add`),
so the scan from the left finds exactly the names at the places (`namesOfTokens_eq`).

* `ofTokens_eq`: the functions that are defined are offered first, in the order of their first
  definitions, and then the other names in the order in which they first stand; no label is offered
  twice, and each symbol but `function` is offered.
* `ofTokens_congr`: only kinds and texts matter.
-/

set_option autoImplicit false

namespace Krl.Completion

/-! ## What stands at a place -/

/-- The word behind the name of a function. -/
def keyword : List Char := ['f', 'u', 'n', 'c', 't', 'i', 'o', 'n']

/-- Does a symbol stand at this place? -/
def symbolAt (ts : List Token) (i : Nat) : Bool := ts[i]?.any fun t => t.kind = .symbol

/-- Does the symbol `function` stand at this place? -/
def keywordAt (ts : List Token) (i : Nat) : Bool :=
  ts[i]?.any fun t => t.kind = .symbol ∧ t.text = keyword

/-- Is the token at this place the keyword of a definition? It is, if the token in front of it is a
symbol that is not one. -/
def takenAt (ts : List Token) : Nat → Bool
  | 0 => false
  | i + 1 => symbolAt ts i && !takenAt ts i && keywordAt ts (i + 1)

/-- Is the token at this place the name of a function that is defined? -/
def definesAt (ts : List Token) (i : Nat) : Bool :=
  symbolAt ts i && !takenAt ts i && keywordAt ts (i + 1)

/-- Is the token at this place another name? -/
def plainAt (ts : List Token) (i : Nat) : Bool :=
  symbolAt ts i && !takenAt ts i && !keywordAt ts (i + 1)

/-- The places that have the property, in ascending order, and each text only where it first
stands. -/
def firstPlaces (ts : List Token) (p : Nat → Bool) : List (Fin ts.length) :=
  (List.finRange ts.length).filter fun i : Fin ts.length =>
    p i ∧ ∀ j < i, p j → ts[j].text ≠ ts[i].text

/-! ## The scan from the left -/

theorem symbolAt_add (ts : List Token) (i k : Nat) :
    symbolAt ts (i + k) = symbolAt (ts.drop k) i := by
  rw [symbolAt, symbolAt, List.getElem?_drop, Nat.add_comm]

theorem keywordAt_add (ts : List Token) (i k : Nat) :
    keywordAt ts (i + k) = keywordAt (ts.drop k) i := by
  rw [keywordAt, keywordAt, List.getElem?_drop, Nat.add_comm]

/-- From a token on that is not taken, it does not matter what stands in front of it. -/
theorem takenAt_add {ts : List Token} {k : Nat} (h : takenAt ts k = false) (i : Nat) :
    takenAt ts (i + k) = takenAt (ts.drop k) i := by
  induction i with
  | zero =>
    rw [Nat.zero_add]
    exact h
  | succ i ih =>
    rw [Nat.add_right_comm, takenAt, takenAt, ih, symbolAt_add, Nat.add_right_comm, keywordAt_add]

/-- The names at the places of the tokens, each with whether it is defined. -/
def names (ts : List Token) : List (List Char × Bool) :=
  ((List.finRange ts.length).filter fun i : Fin ts.length => symbolAt ts i && !takenAt ts i).map
    fun i : Fin ts.length => (ts[i].text, keywordAt ts (i + 1))

theorem map_filter_finRange_succ {α : Type} (n : Nat) (p : Fin (n + 1) → Bool)
    (f : Fin (n + 1) → α) : ((List.finRange (n + 1)).filter p).map f =
      (if p 0 then [f 0] else []) ++
        ((List.finRange n).filter fun i => p i.succ).map fun i => f i.succ := by
  rw [List.finRange_succ, List.filter_cons, List.filter_map]
  split
  · simp [Function.comp_def]
  · simp [Function.comp_def]

/-- A token that does not take the next one is named apart from what stands behind it. -/
theorem names_cons_of_not_taken {t : Token} {ts : List Token} (h : takenAt (t :: ts) 1 = false) :
    names (t :: ts) =
      (if t.kind = .symbol then [(t.text, keywordAt ts 0)] else []) ++ names ts := by
  have hshift : ∀ i : Fin ts.length, takenAt (t :: ts) i.succ = takenAt ts i :=
    fun i => takenAt_add h i
  have hsymbol : ∀ i : Fin ts.length, symbolAt (t :: ts) i.succ = symbolAt ts i := fun _ => rfl
  refine (map_filter_finRange_succ ts.length _ _).trans ?_
  simp only [hshift, hsymbol]
  exact congrArg₂ (· ++ ·) (if_congr (by simp [symbolAt, takenAt]) rfl rfl) rfl

/-- A token that takes the next one is named with it, apart from what stands behind both. -/
theorem names_cons_cons_of_taken {t u : Token} {ts : List Token}
    (h : takenAt (t :: u :: ts) 1 = true) :
    names (t :: u :: ts) = (t.text, true) :: names ts := by
  have hsecond : takenAt (t :: u :: ts) 2 = false := by rw [takenAt, h]; simp
  have hshift : ∀ i : Fin ts.length, takenAt (t :: u :: ts) i.succ.succ = takenAt ts i :=
    fun i => takenAt_add hsecond i
  have hsymbol : ∀ i : Fin ts.length, symbolAt (t :: u :: ts) i.succ.succ = symbolAt ts i :=
    fun _ => rfl
  refine (map_filter_finRange_succ (ts.length + 1) _ _).trans ?_
  rw [map_filter_finRange_succ]
  simp only [hshift, hsymbol]
  obtain ⟨hname, hkeyword⟩ := Bool.and_eq_true_iff.1 h
  have htaken : ¬ (symbolAt (t :: u :: ts) 1 && !takenAt (t :: u :: ts) 1) = true := by simp [h]
  refine (congrArg₂ (· ++ ·) (if_pos hname) (congrArg (· ++ names ts) (if_neg htaken))).trans ?_
  exact congrArg (fun defined => (t.text, defined) :: names ts) hkeyword

/-- The scan from the left finds the names at the places. -/
theorem namesOfTokens_eq (ts : List Token) : namesOfTokens ts = names ts := by
  fun_induction namesOfTokens ts with
  | case1 => rfl
  | case2 t h =>
    rw [names_cons_of_not_taken (by simp [takenAt, keywordAt]), if_pos h]
    rfl
  | case3 t h =>
    rw [names_cons_of_not_taken (by simp [takenAt, keywordAt]), if_neg h]
    rfl
  | case4 t u ts h ih =>
    rw [names_cons_of_not_taken (by simp [takenAt, symbolAt, h]), if_neg h, ih]
    rfl
  | case5 t u ts h hu ih =>
    rw [names_cons_cons_of_taken, ih]
    simp only [ne_eq, not_not] at h
    simp [takenAt, symbolAt, keywordAt, keyword, h, hu]
  | case6 t u ts h hu ih =>
    have hkeyword : keywordAt (u :: ts) 0 = false := decide_eq_false hu
    have htaken : takenAt (t :: u :: ts) 1 = false := (Bool.and_eq_false_iff ..).2 (.inr hkeyword)
    rw [names_cons_of_not_taken htaken, if_pos (not_not.1 h), ih, hkeyword]
    rfl

/-! ## First places -/

/-- Of the texts at places in ascending order, each is kept where it first stands. -/
theorem eraseDups_map_filter {ι α : Type} [LinearOrder ι] [BEq α] [LawfulBEq α] [DecidableEq α]
    {l : List ι} (hl : l.Pairwise (· < ·)) (p : ι → Bool) (f : ι → α) :
    ((l.filter p).map f).eraseDups =
      (l.filter fun i => p i ∧ ∀ j ∈ l, j < i → p j → f j ≠ f i).map f := by
  induction l using List.reverseRecOn with
  | nil => rfl
  | append_singleton l i ih =>
    obtain ⟨hl, -, hlast⟩ := List.pairwise_append.1 hl
    have hlast : ∀ j ∈ l, j < i := fun j hj => hlast j hj i List.mem_cons_self
    -- no place in front of the last one is behind it
    have hfront : l.filter (fun k => p k ∧ ∀ j ∈ l ++ [i], j < k → p j → f j ≠ f k) =
        l.filter fun k => p k ∧ ∀ j ∈ l, j < k → p j → f j ≠ f k := by
      refine List.filter_congr fun k hk => decide_eq_decide.2 (and_congr_right fun _ => ?_)
      simp only [List.forall_mem_append, List.forall_mem_singleton, and_iff_left_iff_imp]
      exact fun _ hlt => absurd hlt (hlast k hk).asymm
    have hfirst : (∀ j ∈ l ++ [i], j < i → p j → f j ≠ f i) ↔ f i ∉ (l.filter p).map f := by
      simp only [List.forall_mem_append, List.forall_mem_singleton, lt_self_iff_false,
        false_implies, and_true, List.mem_map, List.mem_filter, not_exists, not_and, and_imp]
      exact ⟨fun h j hj hp => h j hj (hlast j hj) hp, fun h j hj _ hp => h j hj hp⟩
    rw [List.filter_append, List.map_append, List.eraseDups_append, ih hl, List.filter_append,
      List.map_append, hfront]
    refine congrArg (_ ++ ·) ?_
    simp only [List.filter_singleton, hfirst]
    cases hp : p i with
    | false => simp
    | true =>
      by_cases hmem : f i ∈ (l.filter p).map f
      · simp [hmem, List.removeAll]
      · simp [hmem, List.removeAll, List.eraseDups_cons]

theorem eraseDups_map_finRange (ts : List Token) (p : Nat → Bool) :
    (((List.finRange ts.length).filter fun i : Fin ts.length => p i).map
      fun i => ts[i].text).eraseDups = (firstPlaces ts p).map fun i => ts[i].text := by
  rw [eraseDups_map_filter (List.pairwise_lt_finRange ts.length)]
  simp only [List.mem_finRange, true_implies]
  rfl

section
variable {ts : List Token} {p : Nat → Bool}

theorem mem_firstPlaces {i : Fin ts.length} :
    i ∈ firstPlaces ts p ↔ p i ∧ ∀ j < i, p j → ts[j].text ≠ ts[i].text := by
  simp [firstPlaces]

theorem mem_map_firstPlaces {text : List Char} :
    text ∈ (firstPlaces ts p).map (fun i => ts[i].text) ↔
      ∃ i : Fin ts.length, p i ∧ ts[i].text = text := by
  rw [← eraseDups_map_finRange, List.mem_eraseDups]
  simp

/-- At first places no text stands twice. -/
theorem nodup_map_firstPlaces : ((firstPlaces ts p).map fun i => ts[i].text).Nodup := by
  have hascending : (firstPlaces ts p).Pairwise (· < ·) :=
    (List.pairwise_lt_finRange ts.length).filter _
  refine List.pairwise_map.2 (hascending.imp_of_mem fun hi hj hlt => ?_)
  exact (mem_firstPlaces.1 hj).2 _ hlt (mem_firstPlaces.1 hi).1

end

/-! ## Completions -/

/-- The function whose name stands at a place. -/
def functionAt (ts : List Token) (i : Fin ts.length) : Completion :=
  ⟨String.ofList ts[i].text, .function, none⟩

/-- The name that stands at a place, as text. -/
def textAt (ts : List Token) (i : Fin ts.length) : Completion :=
  ⟨String.ofList ts[i].text, .text, none⟩

/-- The places of names that are not those of functions. -/
def otherPlaces (ts : List Token) : List (Fin ts.length) :=
  (firstPlaces ts (plainAt ts)).filter fun i : Fin ts.length =>
    ∀ j : Fin ts.length, definesAt ts j → ts[j].text ≠ ts[i].text

section
variable (ts : List Token)

theorem eraseDups_names (flag : Bool → Bool) :
    (((names ts).filter fun n => flag n.2).map (·.1)).eraseDups =
      (firstPlaces ts fun i => symbolAt ts i && !takenAt ts i && flag (keywordAt ts (i + 1))).map
        fun i => ts[i].text := by
  rw [← eraseDups_map_finRange, names, List.filter_map, List.filter_filter, List.map_map]
  refine congrArg (fun places => (List.map _ places).eraseDups) ?_
  exact List.filter_congr fun i _ => Bool.and_comm _ _

theorem ofTokens_places : ofTokens ts =
    (firstPlaces ts (definesAt ts)).map (functionAt ts) ++ (otherPlaces ts).map (textAt ts) := by
  have hfunctions : (((names ts).filter (·.2)).map (·.1)).eraseDups =
      (firstPlaces ts (definesAt ts)).map fun i => ts[i].text := eraseDups_names ts id
  have hothers : (((names ts).filter fun n => !n.2).map (·.1)).eraseDups =
      (firstPlaces ts (plainAt ts)).map fun i => ts[i].text := eraseDups_names ts not
  have hnot : ∀ i : Fin ts.length,
      (!((firstPlaces ts (definesAt ts)).map fun i => ts[i].text).contains ts[i].text) =
        decide (∀ j : Fin ts.length, definesAt ts j → ts[j].text ≠ ts[i].text) := by
    intro i
    rw [List.contains_eq_mem, ← decide_not]
    refine decide_eq_decide.2 ?_
    rw [mem_map_firstPlaces]
    simp
  rw [ofTokens, namesOfTokens_eq, hfunctions, hothers, List.map_map, List.filter_map, List.map_map]
  exact congrArg₂ (· ++ ·) rfl (congrArg (List.map _) (List.filter_congr fun i _ => hnot i))

/-- The texts that are offered, in their order. -/
theorem labels_ofTokens : (ofTokens ts).map label =
    (((firstPlaces ts (definesAt ts)).map fun i => ts[i].text) ++
      (otherPlaces ts).map fun i => ts[i].text).map String.ofList := by
  rw [ofTokens_places, List.map_append, List.map_append, List.map_map, List.map_map, List.map_map,
    List.map_map]
  rfl

theorem nodup_labels_ofTokens : ((ofTokens ts).map label).Nodup := by
  rw [labels_ofTokens]
  have hinjective : Function.Injective String.ofList :=
    Function.LeftInverse.injective fun _ => String.toList_ofList
  refine List.Nodup.map hinjective ?_
  refine List.nodup_append.2 ⟨nodup_map_firstPlaces, ?_, ?_⟩
  · exact nodup_map_firstPlaces.sublist (List.filter_sublist.map _)
  · rintro text htext other hother rfl
    obtain ⟨i, hi, rfl⟩ := List.mem_map.1 hother
    obtain ⟨j, hj, heq⟩ := mem_map_firstPlaces.1 htext
    exact of_decide_eq_true (List.mem_filter.1 hi).2 j hj heq

/-- Each symbol but the word `function` is named at its place. -/
theorem definesAt_or_plainAt {i : Fin ts.length} (hkind : ts[i].kind = .symbol)
    (htext : ts[i].text ≠ keyword) : definesAt ts i ∨ plainAt ts i := by
  have hsymbol : symbolAt ts i = true := by
    have : ts[(i : Nat)].kind = .symbol := hkind
    simp [symbolAt, this]
  have hkeyword : keywordAt ts i = false := by
    have : ts[(i : Nat)].text ≠ keyword := htext
    simp [keywordAt, this]
  have htaken : takenAt ts i = false := by
    generalize (i : Nat) = k at hkeyword
    cases k with
    | zero => rfl
    | succ k => rw [takenAt, hkeyword, Bool.and_false]
  unfold definesAt plainAt
  rw [hsymbol, htaken]
  cases keywordAt ts (i + 1) <;> simp

/-- The text of a name is that of a function, or it is offered behind the functions. -/
theorem offered_of_named {i : Fin ts.length} (h : definesAt ts i ∨ plainAt ts i) :
    ts[i].text ∈ ((firstPlaces ts (definesAt ts)).map fun i => ts[i].text) ++
      (otherPlaces ts).map fun i => ts[i].text := by
  rw [List.mem_append, mem_map_firstPlaces]
  by_cases hdefined : ∃ j : Fin ts.length, definesAt ts j ∧ ts[j].text = ts[i].text
  · exact .inl hdefined
  · right
    have hplain : plainAt ts i := h.resolve_left fun hdefines => hdefined ⟨i, hdefines, rfl⟩
    obtain ⟨k, hk, hkey⟩ := List.mem_map.1 (mem_map_firstPlaces.2 ⟨i, hplain, rfl⟩)
    refine List.mem_map.2 ⟨k, List.mem_filter.2 ⟨hk, decide_eq_true fun j hj heq => ?_⟩, hkey⟩
    exact hdefined ⟨j, hj, heq.trans hkey⟩

end

/-- The completions of tokens are first the functions that are defined, and then the other names
that are not those of functions, each at the first place where it stands so. No label is offered
twice, and every symbol is offered, but for the word `function`. -/
theorem ofTokens_eq (ts : List Token) :
    ofTokens ts = (firstPlaces ts (definesAt ts)).map (functionAt ts) ++
        (otherPlaces ts).map (textAt ts) ∧
      ((ofTokens ts).map label).Nodup ∧
      ∀ t ∈ ts, t.kind = .symbol → String.ofList t.text ≠ "function" →
        String.ofList t.text ∈ (ofTokens ts).map label := by
  refine ⟨ofTokens_places ts, nodup_labels_ofTokens ts, fun t ht hkind htext => ?_⟩
  obtain ⟨i, rfl⟩ := List.get_of_mem ht
  have hkeyword : (ts.get i).text ≠ keyword := by
    intro heq
    rw [heq] at htext
    exact htext rfl
  rw [labels_ofTokens]
  exact List.mem_map_of_mem (offered_of_named ts (definesAt_or_plainAt ts hkind hkeyword))

/-! ## Kinds and texts -/

/-- The token without its place. -/
def unplaced (t : Token) : Token := { t with start := 0, stop := 0 }

@[simp] theorem unplaced_kind (t : Token) : (unplaced t).kind = t.kind := rfl

@[simp] theorem unplaced_text (t : Token) : (unplaced t).text = t.text := rfl

theorem namesOfTokens_map_unplaced (ts : List Token) :
    namesOfTokens (ts.map unplaced) = namesOfTokens ts := by
  fun_induction namesOfTokens ts with
  | case1 => rfl
  | case2 t hk => simp [namesOfTokens, hk]
  | case3 t hk => simp [namesOfTokens, hk]
  | case4 t u ts hk ih =>
    rw [List.map_cons, List.map_cons, namesOfTokens, unplaced_kind, if_pos hk]
    exact ih
  | case5 t u ts hk hu ih =>
    rw [List.map_cons, List.map_cons, namesOfTokens, unplaced_kind, unplaced_kind, unplaced_text,
      unplaced_text, if_neg hk, if_pos hu, ih]
  | case6 t u ts hk hu ih =>
    rw [List.map_cons, List.map_cons, namesOfTokens, unplaced_kind, unplaced_kind, unplaced_text,
      unplaced_text, if_neg hk, if_neg hu]
    exact congrArg _ ih

/-- The completions depend on the kinds and texts of tokens alone. -/
theorem ofTokens_congr {ts us : List Token} (h : ts.map unplaced = us.map unplaced) :
    ofTokens ts = ofTokens us := by
  unfold ofTokens
  rw [← namesOfTokens_map_unplaced ts, h, namesOfTokens_map_unplaced us]

end Krl.Completion
