import Krl.Proofs.Node.Reached

/-!
# Which trees are read

A JSON value is read as a tree of nodes exactly if it is a typed object and everything reached from
it has the parts that its type asks for. What one step of the reading answers for is said once, for
success and for failure together (`Reads`): it is asked for some parts of the object and for some
child nodes; if it succeeds all of them are there, and if it fails one of them is to blame. Each
step has a lemma of that form, and so has the sequence of two.

* `reads_assemble`: an object is asked for its mandatory parts and its child nodes, and for nothing
  else.
* `missing_of_ofJson`: a failure names a part that is missing from something reached.
* `ofJson_ok_iff`: what is read and what is not.
-/

set_option autoImplicit false

namespace Krl.Node

/-! ## What a step of the reading answers for -/

/-- The value is read as a node. -/
def IsNode (value : Json) : Prop := ∃ n, reading value = .node (.ok n)

/-- A step that is asked for parts of an object and for child nodes. -/
def Reads {α : Type} (type : String) (fields : Fields) (parts : List Part) (nodes : List Json)
    (x : Except Malformed α) : Prop :=
  match x with
  | .ok _ => (∀ p ∈ parts, p.Present fields) ∧ ∀ v ∈ nodes, IsNode v
  | .error e => (∃ p ∈ parts, ¬ p.Present fields ∧ e = p.failure type) ∨
      ∃ v ∈ nodes, reading v = .node (.error e)

section
variable {α β : Type} {type : String} {fields : Fields} {parts others : List Part}
  {nodes more : List Json} {x : Except Malformed α}

theorem reads_ok (a : α) : Reads type fields [] [] (.ok a : Except Malformed α) :=
  ⟨by simp, by simp⟩

/-- One step after the other is asked for what both are asked for. -/
theorem Reads.bind {f : α → Except Malformed β} (hx : Reads type fields parts nodes x)
    (hf : ∀ a, x = .ok a → Reads type fields others more (f a)) :
    Reads type fields (parts ++ others) (nodes ++ more) (x >>= f) := by
  cases x with
  | error e =>
    rcases hx with ⟨p, hp, hmissing, he⟩ | ⟨v, hv, he⟩
    · exact .inl ⟨p, List.mem_append_left _ hp, hmissing, he⟩
    · exact .inr ⟨v, List.mem_append_left _ hv, he⟩
  | ok a =>
    obtain ⟨hparts, hnodes⟩ := hx
    have hfa := hf a rfl
    show Reads type fields (parts ++ others) (nodes ++ more) (f a)
    cases hb : f a with
    | error e =>
      rw [hb] at hfa
      rcases hfa with ⟨p, hp, hmissing, he⟩ | ⟨v, hv, he⟩
      · exact .inl ⟨p, List.mem_append_right _ hp, hmissing, he⟩
      · exact .inr ⟨v, List.mem_append_right _ hv, he⟩
    | ok b =>
      rw [hb] at hfa
      obtain ⟨hothers, hmore⟩ := hfa
      refine ⟨fun p hp => ?_, fun v hv => ?_⟩
      · exact (List.mem_append.1 hp).elim (hparts p) (hothers p)
      · exact (List.mem_append.1 hv).elim (hnodes v) (hmore v)

/-- A step that is followed by one without child nodes. -/
theorem Reads.bindParts {f : α → Except Malformed β} (hx : Reads type fields parts nodes x)
    (hf : ∀ a, x = .ok a → Reads type fields others [] (f a)) :
    Reads type fields (parts ++ others) nodes (x >>= f) := by
  have h := hx.bind hf
  rwa [List.append_nil] at h

/-- What is made of a result does not matter. -/
theorem Reads.andThen (hx : Reads type fields parts nodes x) (f : α → β) :
    Reads type fields parts nodes (x >>= fun a => .ok (f a)) := by
  have h := hx.bindParts (f := fun a => .ok (f a)) fun a _ => reads_ok (f a)
  rwa [List.append_nil] at h

/-- A step that looks for one part of the object. -/
theorem reads_part {p : Part} (found : Option α) (h : p.Present fields ↔ ∃ a, found = some a)
    (hsome : ∀ a, found = some a → x = .ok a) (hnone : found = none → x = .error (p.failure type)) :
    Reads type fields [p] [] x := by
  cases hfound : found with
  | some a =>
    rw [hsome a hfound]
    refine ⟨?_, by simp⟩
    intro q hq
    rw [List.mem_singleton.1 hq]
    exact h.2 ⟨a, hfound⟩
  | none =>
    rw [hnone hfound]
    refine .inl ⟨p, List.mem_singleton_self p, ?_, rfl⟩
    rw [h, hfound]
    simp

end

/-! ## Parts -/

theorem string?_eq_some_iff {v : Json} {s : String} : v.string? = some s ↔ v = .string s := by
  cases v <;> simp [Json.string?]

theorem fields?_eq_some_iff {v : Json} {inner : Fields} :
    v.fields? = some inner ↔ v = .object inner := by
  cases v <;> simp [Json.fields?]

theorem nat?_eq_some_iff {v : Json} {n : Nat} : v.nat? = some n ↔ v = .int n := by
  cases v with
  | int k =>
    simp only [Json.nat?, Option.ite_none_right_eq_some, Option.some.injEq, Json.int.injEq]
    omega
  | _ => simp [Json.nat?]

theorem get?_eq_some_iff {v w : Json} {name : String} :
    v.get? name = some w ↔ ∃ inner, v = .object inner ∧ inner.lookup name = some w := by
  simp only [Json.get?, Option.bind_eq_some_iff, fields?_eq_some_iff]

theorem spanOf?_eq_some_iff {loc : Json} {span : Span} : spanOf? loc = some span ↔
    ∃ inner, loc = .object inner ∧ inner.lookup "start" = some (.int span.start) ∧
      inner.lookup "end" = some (.int span.stop) := by
  rcases span with ⟨start, stop⟩
  simp only [spanOf?, Option.bind_eq_bind, Option.bind_eq_some_iff, get?_eq_some_iff,
    nat?_eq_some_iff, Option.some.injEq, Span.mk.injEq]
  constructor
  · rintro ⟨_, ⟨inner, rfl, hstart⟩, n, rfl, _, ⟨_, ⟨⟩, hstop⟩, m, rfl, rfl, rfl⟩
    exact ⟨inner, rfl, hstart, hstop⟩
  · rintro ⟨inner, rfl, hstart, hstop⟩
    exact ⟨_, ⟨inner, rfl, hstart⟩, start, rfl, _, ⟨inner, rfl, hstop⟩, stop, rfl, rfl, rfl⟩

section
variable (type : String) (fields : Fields)

theorem reads_requiredSpan : Reads type fields [.loc] [] (requiredSpan type fields) := by
  refine reads_part (fieldSpan? fields) ?_ ?_ ?_
  · simp only [fieldSpan?, Option.bind_eq_some_iff, spanOf?_eq_some_iff]
    constructor
    · rintro ⟨inner, hloc, start, stop, hstart, hstop⟩
      exact ⟨⟨start, stop⟩, _, hloc, inner, rfl, hstart, hstop⟩
    · rintro ⟨span, _, hloc, inner, rfl, hstart, hstop⟩
      exact ⟨inner, hloc, span.start, span.stop, hstart, hstop⟩
  · intro span h
    rw [requiredSpan, h]
  · intro h
    rw [requiredSpan, h]
    rfl

theorem reads_requiredString (field : String) :
    Reads type fields [.string field] [] (requiredString type field fields) := by
  refine reads_part ((fields.lookup field).bind Json.string?) ?_ ?_ ?_
  · simp [Part.Present, Option.bind_eq_some_iff, string?_eq_some_iff]
  · intro s h
    rw [requiredString, h]
  · intro h
    rw [requiredString, h]
    rfl

theorem key_eq_some_iff {inner : Fields} : (fields.lookup "key").bind Json.fields? = some inner ↔
    fields.lookup "key" = some (.object inner) := by
  simp [Option.bind_eq_some_iff, fields?_eq_some_iff]

theorem reads_requiredKey : Reads type fields [.key] [] (requiredKey type fields) := by
  refine reads_part ((fields.lookup "key").bind Json.fields?) ?_ ?_ ?_
  · simp only [key_eq_some_iff]
    rfl
  · intro inner h
    rw [requiredKey, h]
  · intro h
    rw [requiredKey, h]
    rfl

variable {type fields}

theorem lookup_of_requiredKey {inner : Fields} (h : requiredKey type fields = .ok inner) :
    fields.lookup "key" = some (.object inner) := by
  unfold requiredKey at h
  split at h
  · next key hkey =>
    cases h
    exact (key_eq_some_iff fields).1 hkey
  · cases h

/-- What is asked of the object under `key` is asked of the object around it. -/
theorem Reads.ofKey {α : Type} {inner : Fields} {p : Part} {x : Except Malformed α}
    (hkey : fields.lookup "key" = some (.object inner)) (h : Reads type inner [p] [] x) :
    Reads type fields [.ofKey p] [] x := by
  have hiff : (Part.ofKey p).Present fields ↔ p.Present inner := by
    simp [Part.Present, hkey]
  cases x with
  | ok a =>
    refine ⟨?_, by simp⟩
    intro q hq
    rw [List.mem_singleton.1 hq]
    exact hiff.2 (h.1 p (List.mem_singleton_self p))
  | error e =>
    rcases h with ⟨q, hq, hmissing, he⟩ | ⟨v, hv, -⟩
    · rw [List.mem_singleton.1 hq] at hmissing he
      exact .inl ⟨.ofKey p, List.mem_singleton_self _, mt hiff.1 hmissing, he⟩
    · cases hv

end

/-! ## Typed objects -/

theorem isTyped_iff {v : Json} :
    IsTyped v ↔ ∃ fields type, v = .object fields ∧ tag? fields = some type := by
  simp only [IsTyped, Option.isSome_iff_exists, Option.bind_eq_some_iff, fields?_eq_some_iff]
  constructor
  · rintro ⟨type, fields, rfl, htag⟩
    exact ⟨fields, type, rfl, htag⟩
  · rintro ⟨fields, type, rfl, htag⟩
    exact ⟨type, fields, rfl, htag⟩

theorem reading_of_isTyped {v : Json} (h : IsTyped v) : ∃ result, reading v = .node result := by
  obtain ⟨fields, type, rfl, htag⟩ := isTyped_iff.1 h
  exact ⟨_, reading_of_tag htag⟩

theorem reading_of_untagged {fields : Fields} (h : ¬ IsTyped (.object fields)) :
    reading (.object fields) = .several (.ok []) := by
  have htag : tag? fields = none := by simpa [IsTyped, Json.fields?] using h
  rw [reading, htag]

theorem isTyped_of_reading {v : Json} {result : Except Malformed Node}
    (h : reading v = .node result) : IsTyped v := by
  cases v with
  | object fields =>
    by_cases htyped : IsTyped (.object fields)
    · exact htyped
    · rw [reading_of_untagged htyped] at h
      cases h
  | _ => cases h

theorem node?_of_not_isTyped {v : Json} (h : ¬ IsTyped v) : (reading v).node? = .ok none := by
  cases v with
  | object fields => rw [reading_of_untagged h, Reading.node?]
  | _ => rfl

/-! ## Child nodes -/

section
variable (type : String) (fields : Fields)

/-- A typed object is asked for being a node. -/
theorem reads_result {β : Type} {v : Json} {result : Except Malformed Node} (f : Node → β)
    (h : reading v = .node result) : Reads type fields [] [v] (result.map f) := by
  cases result with
  | ok n => exact ⟨by simp, by simpa using ⟨n, h⟩⟩
  | error e => exact .inr ⟨v, List.mem_singleton_self v, h⟩

mutual

theorem reads_nodes : ∀ v : Json, Reads type fields [] (typedIn v) (reading v).nodes
  | .array items => reads_concat items
  | .object inner => by
    by_cases h : IsTyped (.object inner)
    · obtain ⟨result, hresult⟩ := reading_of_isTyped h
      rw [typedIn_of_isTyped h, hresult]
      exact reads_result type fields ([·]) hresult
    · rw [typedIn_of_not_isTyped h (by simp), reading_of_untagged h]
      exact reads_ok []
  | .null | .bool _ | .int _ | .real _ | .string _ => reads_ok []

theorem reads_concat : ∀ vs : List Json,
    Reads type fields [] (typedInAll vs) (Reading.concat (readings vs))
  | [] => reads_ok []
  | v :: vs => by
    rw [typedInAll, readings, Reading.concat]
    exact (reads_nodes v).bind fun ns _ => (reads_concat vs).andThen fun ms => ns ++ ms

end

theorem lookup_fieldReadings (field : String) :
    (fieldReadings fields).lookup field = (fields.lookup field).map reading := by
  induction fields with
  | nil => rfl
  | cons f fs ih =>
    rcases f with ⟨name, v⟩
    rw [fieldReadings, fieldReading, List.lookup_cons, List.lookup_cons, ih]
    split <;> rfl

theorem reads_node? (field : String) :
    Reads type fields [] (typedAt fields field) ((fieldReadings fields).node? field) := by
  unfold FieldReadings.node?
  rw [lookup_fieldReadings]
  cases hv : fields.lookup field with
  | none =>
    have hnone : typedAt fields field = [] := by simp [typedAt, hv]
    rw [hnone]
    exact reads_ok none
  | some v =>
    by_cases h : IsTyped v
    · obtain ⟨result, hresult⟩ := reading_of_isTyped h
      have hone : typedAt fields field = [v] := by simp [typedAt, hv, h]
      rw [hone, Option.map_some, hresult]
      exact reads_result type fields some hresult
    · have hnone : typedAt fields field = [] := by simp [typedAt, hv, h]
      rw [hnone, Option.map_some]
      dsimp only
      rw [node?_of_not_isTyped h]
      exact reads_ok none

theorem present_node_iff {field : String} {found : Option Node}
    (h : (fieldReadings fields).node? field = .ok found) :
    (Part.node field).Present fields ↔ ∃ n, found = some n := by
  unfold FieldReadings.node? at h
  rw [lookup_fieldReadings] at h
  simp only [Part.Present]
  cases hv : fields.lookup field with
  | none =>
    rw [hv] at h
    cases h
    simp
  | some v =>
    rw [hv, Option.map_some] at h
    by_cases htyped : IsTyped v
    · obtain ⟨result, hresult⟩ := reading_of_isTyped htyped
      rw [hresult] at h
      cases result with
      | error e => cases h
      | ok n =>
        cases h
        simp [htyped]
    · dsimp only at h
      rw [node?_of_not_isTyped htyped] at h
      cases h
      simp [htyped]

theorem reads_required (field : String) : Reads type fields [.node field] (typedAt fields field)
    ((fieldReadings fields).required type field) := by
  refine (reads_node? type fields field).bindParts fun found h => ?_
  refine reads_part found (present_node_iff fields h) ?_ ?_
  · rintro n rfl
    rfl
  · rintro rfl
    rfl

theorem reads_field (field : String) :
    Reads type fields [] (typedUnder fields field) ((fieldReadings fields).nodes field) := by
  unfold FieldReadings.nodes typedUnder
  rw [lookup_fieldReadings]
  cases fields.lookup field with
  | none => exact reads_ok []
  | some v =>
    rw [Option.toList_some, typedInAll, typedInAll, List.append_nil]
    exact reads_nodes type fields v

theorem others_fieldReadings (named : List String) : (fieldReadings fields).others named =
    Reading.concat (readings ((fields.filter fun f =>
      !("type" :: "loc" :: named).contains f.1).map (·.2))) := by
  rw [FieldReadings.others, fieldReadings_eq_map, readings_eq_map, List.filter_map, List.map_map,
    List.map_map]
  rfl

theorem reads_others (named : List String) :
    Reads type fields [] (typedBeside fields named) ((fieldReadings fields).others named) := by
  rw [others_fieldReadings]
  exact reads_concat type fields _

/-- An object is asked for the parts and the child nodes that its type asks for. -/
theorem reads_assemble : Reads type fields (mandatory type) (childNodes type fields)
    (assemble type fields (fieldReadings fields)) := by
  -- One case for each type, in the order of `assemble`; the sequence of the steps is that of its
  -- `do` block.
  unfold assemble
  split
  · exact (reads_node? _ _ _).bind fun rid _ => (reads_node? _ _ _).bind fun metaBlock _ =>
      (reads_field _ _ _).bind fun globals _ => (reads_field _ _ _).andThen _
  · exact (reads_requiredString _ _ _).bind fun value _ => (reads_requiredSpan _ _).andThen _
  · exact (reads_field _ _ _).bindParts fun properties _ => (reads_requiredSpan _ _).andThen _
  · refine (reads_requiredKey _ _).bind fun key hkey => ?_
    have hkey := lookup_of_requiredKey hkey
    exact ((reads_requiredString _ key _).ofKey hkey).bind fun name _ =>
      ((reads_requiredSpan _ key).ofKey hkey).bind fun keySpan _ => (reads_node? _ _ _).andThen _
  · exact (reads_required _ _ _).bind fun left _ => (reads_required _ _ _).bindParts fun right _ =>
      (reads_requiredSpan _ _).andThen _
  · exact (reads_required _ _ _).bind fun id _ => (reads_others _ _ _).bindParts fun children _ =>
      (reads_requiredSpan _ _).andThen _
  · exact (reads_others _ _ _).andThen _
  · exact (reads_required _ _ _).bind fun name _ => (reads_others _ _ _).bindParts fun children _ =>
      (reads_requiredSpan _ _).andThen _
  · exact (reads_requiredString _ _ _).andThen _
  · -- The tag is none of those named: nothing is mandatory, and all fields are looked into.
    have htype : type ∉ forms := by simp_all [forms]
    rw [mandatory_of_not_mem_forms htype, childNodes_of_not_mem_forms htype]
    exact (reads_others _ _ _).andThen _

end

/-! ## Trees -/

section
variable {value : Json} {type : String} {fields : Fields}

theorem mem_nodesIn_of_tag (h : tag? fields = some type) (w : Json) :
    w ∈ nodesIn (.object fields) ↔ w ∈ childNodes type fields := by
  rw [nodesIn, h]

/-- An object that is a node has its mandatory parts, and its child nodes are nodes. -/
theorem IsNode.parts_and_nodes (h : IsNode (.object fields)) (htag : tag? fields = some type) :
    Complete type fields ∧ ∀ v ∈ childNodes type fields, IsNode v := by
  obtain ⟨n, hn⟩ := h
  rw [reading_of_tag htag, Reading.node.injEq] at hn
  have hreads := reads_assemble type fields
  rw [hn] at hreads
  exact hreads

theorem IsNode.isTyped (h : IsNode value) : IsTyped value := by
  obtain ⟨n, hn⟩ := h
  exact isTyped_of_reading hn

/-- Whatever is reached from a node is a node. -/
theorem IsNode.reached {root : Json} (h : IsNode root) (hreached : Reached root value) :
    IsNode value := by
  induction hreached with
  | refl => exact h
  | tail _ hchild ih =>
    obtain ⟨fields, type, rfl, htag⟩ := isTyped_iff.1 ih.isTyped
    rw [mem_nodesIn_of_tag htag] at hchild
    exact (ih.parts_and_nodes htag).2 _ hchild

/-- A typed object that is no node has failed over a part that is missing from something reached:
from the object itself, or from what is reached from a child node, which is smaller. -/
theorem missing_of_reading {e : Malformed} (h : reading value = .node (.error e)) :
    ∃ fields type p, Reached value (.object fields) ∧ tag? fields = some type ∧
      p ∈ mandatory type ∧ ¬ p.Present fields ∧ e = p.failure type := by
  induction hsize : sizeOf value using Nat.strongRecOn generalizing value with
  | _ size ih =>
    subst hsize
    obtain ⟨fields, type, rfl, htag⟩ := isTyped_iff.1 (isTyped_of_reading h)
    rw [reading_of_tag htag, Reading.node.injEq] at h
    have hreads := reads_assemble type fields
    rw [h] at hreads
    rcases hreads with ⟨p, hp, hmissing, he⟩ | ⟨v, hv, he⟩
    · exact ⟨fields, type, p, .refl, htag, hp, hmissing, he⟩
    · obtain ⟨inner, tag, p, hreached, hp⟩ := ih _ (sizeOf_lt_of_mem_childNodes hv) he rfl
      exact ⟨inner, tag, p, .head ((mem_nodesIn_of_tag htag v).2 hv) hreached, hp⟩

end

/-- A value that is a node is read as that node. -/
theorem ofJson_of_reading {value : Json} {result : Except Malformed Node}
    (h : reading value = .node result) : ofJson value = result := by
  cases value with
  | object fields => rw [ofJson, h]
  | _ => cases h

theorem reading_of_ofJson_ok {value : Json} {n : Node} (h : ofJson value = .ok n) :
    reading value = .node (.ok n) := by
  unfold ofJson at h
  split at h
  · split at h
    · next result hresult =>
      rw [hresult, h]
    · cases h
  · cases h

theorem ofJson_of_not_isTyped {value : Json} (h : ¬ IsTyped value) :
    ofJson value = .error .noObject ∨ ofJson value = .error .noTag := by
  cases value with
  | object fields =>
    right
    rw [ofJson, reading_of_untagged h]
  | _ => exact .inl rfl

/-- A failure is about the outermost value, or about a part that is missing from something
reached. -/
theorem missing_of_ofJson {value : Json} {e : Malformed} (h : ofJson value = .error e) :
    (¬ IsTyped value ∧ (e = .noObject ∨ e = .noTag)) ∨
      ∃ fields type p, Reached value (.object fields) ∧ tag? fields = some type ∧
        p ∈ mandatory type ∧ ¬ p.Present fields ∧ e = p.failure type := by
  by_cases htyped : IsTyped value
  · obtain ⟨result, hresult⟩ := reading_of_isTyped htyped
    rw [ofJson_of_reading hresult] at h
    rw [h] at hresult
    exact .inr (missing_of_reading hresult)
  · refine .inl ⟨htyped, ?_⟩
    rcases ofJson_of_not_isTyped htyped with h' | h'
    · rw [h', Except.error.injEq] at h
      exact .inl h.symm
    · rw [h', Except.error.injEq] at h
      exact .inr h.symm

/-- A value is read as a tree exactly if it is a typed object and every object reached from it has
the parts that its type asks for. -/
theorem ofJson_ok_iff (value : Json) : (∃ n, ofJson value = .ok n) ↔
    IsTyped value ∧ ∀ fields type, Reached value (.object fields) → tag? fields = some type →
      Complete type fields := by
  constructor
  · rintro ⟨n, hn⟩
    have hreading := reading_of_ofJson_ok hn
    have hnode : IsNode value := ⟨n, hreading⟩
    refine ⟨hnode.isTyped, ?_⟩
    intro fields type hreached htag
    exact ((hnode.reached hreached).parts_and_nodes htag).1
  · rintro ⟨htyped, hcomplete⟩
    cases h : ofJson value with
    | ok n => exact ⟨n, rfl⟩
    | error e =>
      rcases missing_of_ofJson h with ⟨hnot, -⟩ | ⟨fields, type, p, hreached, htag, hp, hmissing, -⟩
      · exact absurd htyped hnot
      · exact absurd (hcomplete fields type hreached htag p hp) hmissing

end Krl.Node
