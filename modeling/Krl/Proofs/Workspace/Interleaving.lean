import Krl.Proofs.Workspace.Consistent

/-!
# Interleaved analyses

A workspace with the analyses that have been asked for. What the editor tells is one step, and so is
each of the two ends of an analysis: it takes a snapshot of its document in one step and offers its
result in a later one, with any number of other steps between them.

* `Activity.step`: the steps, in any order.
* `Activity.step_operation`: what each is to the workspace.
* `Activity.mem_flights_step`: where the analyses in flight come from.
-/

set_option autoImplicit false

namespace Krl.Workspace

/-- An analysis that has been asked for and waits for its turn, with the number that its document
then had. -/
structure Task (α : Type) where
  uri : Uri
  seq : Nat
  analyze : String → α

/-- An analysis at work on a snapshot of its document. -/
structure Flight (α : Type) where
  uri : Uri
  snapshot : Snapshot
  result : α
deriving DecidableEq

/-- Offer the result of an analysis to the workspace. -/
def Flight.offer {α : Type} (f : Flight α) (w : Workspace α) : Workspace α × Bool :=
  w.offer f.uri f.snapshot.seq f.snapshot.version f.result

/-- A workspace, how documents are analysed now, and the analyses that are not finished. -/
structure Activity (α : Type) where
  workspace : Workspace α := {}
  analyze : String → α
  tasks : List (Task α) := []
  flights : List (Flight α) := []

/-- What can happen next. -/
inductive Action (α : Type) where
  | opened (uri : Uri) (version : Int) (text : String)
  | changed (uri : Uri) (version : Int) (changes : List Text.Change)
  | closed (uri : Uri)
  /-- From now on documents are analysed otherwise. -/
  | installed (analyze : String → α)
  /-- The result of a document is dropped, and an analysis asked for under its present number. -/
  | refreshed (uri : Uri)
  /-- An analysis on demand takes its snapshot. Whether there was a result is an earlier look. -/
  | requested (uri : Uri)
  /-- The waiting analysis at a position takes its snapshot, unless its document has a new
  number. -/
  | started (i : Nat)
  /-- The analysis in flight at a position offers its result. -/
  | finished (i : Nat)

/-- A document begins or ceases to be open. -/
def Action.opensOrCloses {α : Type} (uri : Uri) : Action α → Prop
  | .opened u _ _ => u = uri
  | .closed u => u = uri
  | _ => False

namespace Activity

variable {α : Type}

/-- Take over a changed workspace, and ask for an analysis if a number comes with it. -/
def adopt (s : Activity α) (uri : Uri) (changed : Workspace α × Option Nat) : Activity α :=
  { s with
    workspace := changed.1
    tasks := s.tasks ++ (changed.2.map fun seq => ⟨uri, seq, s.analyze⟩).toList }

/-- Begin an analysis of a snapshot. -/
def launch (s : Activity α) (uri : Uri) (snapshot : Snapshot) (analyze : String → α) :
    Activity α :=
  { s with flights := s.flights ++ [⟨uri, snapshot, analyze snapshot.text⟩] }

/-- Begin an analysis that has waited, unless its document is gone or has a new number. -/
def start (s : Activity α) (task : Task α) : Activity α :=
  match s.workspace.snapshot? task.uri with
  | some snapshot =>
    if snapshot.seq = task.seq then s.launch task.uri snapshot task.analyze else s
  | none => s

def step (s : Activity α) : Action α → Activity α
  | .opened uri version text =>
    s.adopt uri ((s.workspace.openDocument uri version text).map id some)
  | .changed uri version changes => s.adopt uri (s.workspace.change uri version changes)
  | .closed uri => { s with workspace := s.workspace.close uri }
  | .installed analyze => { s with analyze := analyze }
  | .refreshed uri =>
    match s.workspace.documents.get? uri with
    | some doc => s.adopt uri (s.workspace.forget uri, some doc.seq)
    | none => s
  | .requested uri =>
    match s.workspace.snapshot? uri with
    | some snapshot => s.launch uri snapshot s.analyze
    | none => s
  | .started i =>
    match s.tasks[i]? with
    | some task => { s with tasks := s.tasks.eraseIdx i }.start task
    | none => s
  | .finished i =>
    match s.flights[i]? with
    | some flight =>
      { s with
        workspace := (flight.offer s.workspace).1
        flights := s.flights.eraseIdx i }
    | none => s

/-- The state behind actions, where nothing had happened before them. -/
def run (analyze : String → α) (actions : List (Action α)) : Activity α :=
  actions.foldl step { analyze := analyze }

/-! ## What a step does -/

/-- The operation that an action is to the workspace, if it is one. -/
inductive Operation (s : Activity α) : Action α → Workspace α → Prop
  | opened (uri : Uri) (version : Int) (text : String) :
      Operation s (.opened uri version text) (s.workspace.openDocument uri version text).1
  | changed (uri : Uri) (version : Int) (changes : List Text.Change) :
      Operation s (.changed uri version changes) (s.workspace.change uri version changes).1
  | closed (uri : Uri) : Operation s (.closed uri) (s.workspace.close uri)
  | refreshed (uri : Uri) : Operation s (.refreshed uri) (s.workspace.forget uri)
  | finished {i : Nat} {f : Flight α} : s.flights[i]? = some f →
      Operation s (.finished i) (f.offer s.workspace).1
  | none {a : Action α} : (∀ uri, ¬ a.opensOrCloses uri) → Operation s a s.workspace

theorem workspace_adopt (s : Activity α) (uri : Uri) (changed : Workspace α × Option Nat) :
    (s.adopt uri changed).workspace = changed.1 := rfl

theorem flights_adopt (s : Activity α) (uri : Uri) (changed : Workspace α × Option Nat) :
    (s.adopt uri changed).flights = s.flights := rfl

@[simp] theorem workspace_start (s : Activity α) (task : Task α) :
    (s.start task).workspace = s.workspace := by
  unfold start
  split
  · split <;> rfl
  · rfl

@[simp] theorem tasks_start (s : Activity α) (task : Task α) : (s.start task).tasks = s.tasks := by
  unfold start
  split
  · split <;> rfl
  · rfl

theorem step_operation (s : Activity α) (a : Action α) : s.Operation a (s.step a).workspace := by
  cases a with
  | opened uri version text => exact .opened uri version text
  | changed uri version changes =>
    rw [step, workspace_adopt]
    exact .changed uri version changes
  | closed uri => exact .closed uri
  | installed analyze => exact .none fun _ => id
  | refreshed uri =>
    simp only [step]
    split
    · exact .refreshed uri
    · exact .none fun _ => id
  | requested uri =>
    simp only [step]
    split <;> exact .none fun _ => id
  | started i =>
    simp only [step]
    split
    · simp only [workspace_start]
      exact .none fun _ => id
    · exact .none fun _ => id
  | finished i =>
    simp only [step]
    split
    · next f hf => exact .finished hf
    · exact .none fun _ => id

/-- A flight is one of those before, or the one that has just been launched. -/
theorem mem_flights_launch {s : Activity α} {uri : Uri} {snapshot : Snapshot}
    {analyze : String → α} {f : Flight α} (h : f ∈ (s.launch uri snapshot analyze).flights) :
    f ∈ s.flights ∨ f = ⟨uri, snapshot, analyze snapshot.text⟩ :=
  (List.mem_append.1 h).imp_right List.mem_singleton.1

/-- An analysis in flight was so before, or has just taken its snapshot, on demand or in its
turn. -/
theorem mem_flights_step {s : Activity α} {a : Action α} {f : Flight α}
    (h : f ∈ (s.step a).flights) :
    f ∈ s.flights ∨ (s.step a).workspace = s.workspace ∧
      s.workspace.snapshot? f.uri = some f.snapshot ∧
      (f.result = s.analyze f.snapshot.text ∨
        ∃ task ∈ s.tasks, f.result = task.analyze f.snapshot.text) := by
  cases a with
  | opened uri version text => exact .inl h
  | changed uri version changes =>
    rw [step, flights_adopt] at h
    exact .inl h
  | closed uri => exact .inl h
  | installed analyze => exact .inl h
  | refreshed uri =>
    simp only [step] at h
    split at h <;> exact .inl h
  | requested uri =>
    simp only [step] at h ⊢
    split at h
    · next snapshot hs =>
      rcases mem_flights_launch h with h | rfl
      · exact .inl h
      · exact .inr ⟨rfl, hs, .inl rfl⟩
    · exact .inl h
  | started i =>
    simp only [step] at h ⊢
    split at h
    · next task ht =>
      unfold start at h
      split at h
      · next snapshot hs =>
        split at h
        · rcases mem_flights_launch h with h | rfl
          · exact .inl h
          · exact .inr ⟨workspace_start _ _, hs, .inr ⟨task, List.mem_of_getElem? ht, rfl⟩⟩
        · exact .inl h
      · exact .inl h
    · exact .inl h
  | finished i =>
    simp only [step] at h
    split at h
    · exact .inl (List.mem_of_mem_eraseIdx h)
    · exact .inl h

theorem mem_tasks_adopt {s : Activity α} {uri : Uri} {changed : Workspace α × Option Nat}
    {t : Task α} (h : t ∈ (s.adopt uri changed).tasks) : t ∈ s.tasks ∨ t.analyze = s.analyze := by
  refine (List.mem_append.1 h).imp_right fun h => ?_
  obtain ⟨seq, -, rfl⟩ := Option.map_eq_some_iff.1 (Option.mem_toList.1 h)
  rfl

/-- A waiting analysis was so before, or has just been asked for. -/
theorem mem_tasks_step {s : Activity α} {a : Action α} {t : Task α}
    (h : t ∈ (s.step a).tasks) : t ∈ s.tasks ∨ t.analyze = s.analyze := by
  cases a with
  | opened uri version text => exact mem_tasks_adopt h
  | changed uri version changes =>
    rw [step] at h
    exact mem_tasks_adopt h
  | closed uri => exact .inl h
  | installed analyze => exact .inl h
  | refreshed uri =>
    simp only [step] at h
    split at h
    · exact mem_tasks_adopt h
    · exact .inl h
  | requested uri =>
    simp only [step] at h
    split at h <;> exact .inl h
  | started i =>
    simp only [step] at h
    split at h
    · rw [tasks_start] at h
      exact .inl (List.mem_of_mem_eraseIdx h)
    · exact .inl h
  | finished i =>
    simp only [step] at h
    split at h <;> exact .inl h

end Activity

end Krl.Workspace
