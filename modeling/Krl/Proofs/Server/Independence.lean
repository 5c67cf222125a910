import Krl.Proofs.Server.Parallel

/-!
# Documents do not interfere

A server is driven by operations: requests, waits and looks at a document, with a pause behind each
in which timers fire. One who cares for one document only (`hears`) does not hear what is answered
about other documents and what is published for them. To them it makes no difference whether other
documents are opened, changed, closed and asked about, or whether time just passes instead
(`Operation.only`), since the two servers agree on the document all the while.

* `hearings_only`: of a document the same is heard, whatever is done with others.
-/

set_option autoImplicit false

namespace Krl.Server

/-! ## Operations -/

/-- What can be done with a server. -/
inductive Operation where
  | request (r : Request)
  | wait (ms : Nat)
  /-- A look at what the server has of a document. -/
  | peek (uri : Uri)

/-- What a look at a document shows. -/
structure Glimpse where
  text : Option String
  version : Option Int
  hash : Option UInt64
  /-- Is there a result? -/
  cached : Bool
deriving DecidableEq, Repr

/-- What an operation gives at once. -/
inductive Answer where
  | none
  | response (r : Response)
  | glimpse (g : Glimpse)

def glimpse (s : Server) (uri : Uri) : Glimpse where
  text := (s.workspace.documents.get? uri).map (·.text)
  version := (s.workspace.documents.get? uri).map (·.version)
  hash := (s.workspace.documents.get? uri).map (·.hash)
  cached := s.workspace.cache.contains uri

def answer (site : Site) (s : Server) : Operation → Answer
  | .request r => .response (s.handle site r).2
  | .wait _ => .none
  | .peek uri => .glimpse (s.glimpse uri)

def act (site : Site) (s : Server) : Operation → Server
  | .request r => (s.handle site r).1
  | .wait _ => s
  | .peek _ => s

/-- The time that passes in the course of an operation, a tick for each. -/
def Operation.pause (tick : Nat) : Operation → Nat
  | .wait ms => ms + tick
  | _ => tick

def perform (site : Site) (tick : Nat) (s : Server) (op : Operation) : Server :=
  (s.act site op).elapse site (op.pause tick)

/-! ## One document -/

/-- Does the operation speak of another document? -/
def Operation.isAway (uri : Uri) : Operation → Bool
  | .request r => r.addressee?.any (· ≠ uri)
  | .wait _ => false
  | .peek u => u ≠ uri

/-- Time passes in place of an operation that speaks of another document. -/
def Operation.only (uri : Uri) (op : Operation) : Operation :=
  if op.isAway uri then .wait 0 else op

/-- What is heard of a document when an operation is performed: an answer, unless it is about
another document, and what is published for the document before the next operation. -/
structure Hearing where
  answer : Answer
  published : List Publication

def hears (site : Site) (tick : Nat) (uri : Uri) (s : Server) (op : Operation) : Hearing where
  answer := if op.isAway uri then .none else s.answer site op
  published := ((s.perform site tick op).log.drop s.log.length).filter (·.uri = uri)

def hearings (site : Site) (tick : Nat) (uri : Uri) : Server → List Operation → List Hearing
  | _, [] => []
  | s, op :: ops => s.hears site tick uri op :: hearings site tick uri (s.perform site tick op) ops

section
variable {site : Site} {s s' : Server} {uri : Uri} {op : Operation}

/-! ## Publications -/

theorem log_handle (site : Site) (s : Server) (r : Request) :
    s.log <+: (s.handle site r).1.log := by
  by_cases hstopped : s.stopped = true
  · rw [handle_of_stopped site hstopped]
  have hdemand : ∀ u, s.log <+: (s.analysisFor site u).1.log := by
    intro u
    obtain ⟨cache, heq⟩ := analysisFor_frame site s u
    rw [heq]
  rw [handle_of_not_stopped site (Bool.eq_false_iff.2 hstopped)]
  cases r with
  | opened u version text => exact List.prefix_rfl
  | changed u version changes =>
    obtain ⟨doc, lastSeq, timers, heq⟩ := changed_frame site s u version changes
    rw [heq]
  | closed u => exact List.prefix_append ..
  | settingsChanged reply =>
    obtain ⟨settings, analyzer, cache, timers, heq⟩ := reload_frame site s reply
    rw [serve, heq]
  | completion u cursor trigger =>
    simp only [serve]
    split
    · exact List.prefix_rfl
    · exact hdemand u
  | symbols u => exact hdemand u
  | malformed => exact List.prefix_rfl
  | shutdown => exact List.prefix_rfl

theorem log_act (site : Site) (s : Server) (op : Operation) : s.log <+: (s.act site op).log := by
  cases op with
  | request r => exact log_handle site s r
  | _ => exact List.prefix_rfl

theorem log_elapse (site : Site) (s : Server) (ms : Nat) : s.log <+: (s.elapse site ms).log := by
  obtain ⟨cache, heq⟩ := elapse_frame site s ms
  rw [heq]
  exact List.prefix_append ..

/-- What is published for a document in the course of an operation is what has been told of it
afterwards and not before. -/
theorem published_perform (site : Site) (tick : Nat) (s : Server) (op : Operation) (uri : Uri) :
    ((s.perform site tick op).log.drop s.log.length).filter (·.uri = uri) =
      ((s.perform site tick op).told uri).drop (s.told uri).length := by
  obtain ⟨new, hnew⟩ := (log_act site s op).trans (log_elapse site (s.act site op) (op.pause tick))
  have hlog : (s.perform site tick op).log = s.log ++ new := hnew.symm
  simp [told, hlog]

/-! ## Steps -/

theorem pause_only (uri : Uri) (op : Operation) (tick : Nat) :
    (op.only uri).pause tick = op.pause tick := by
  unfold Operation.only
  split
  · next haway =>
    cases op with
    | wait ms => cases haway
    | _ => exact Nat.zero_add tick
  · rfl

theorem Tidy.act (h : Tidy s) (site : Site) (op : Operation) : Tidy (s.act site op) := by
  cases op with
  | request r => exact h.handle site r
  | _ => exact h

theorem Tidy.perform (h : Tidy s) (site : Site) (tick : Nat) (op : Operation) :
    Tidy (s.perform site tick op) := (h.act site op).elapse site _

namespace Agree

theorem glimpse (h : Agree uri s s') : s.glimpse uri = s'.glimpse uri := by
  unfold Server.glimpse Table.contains
  rw [h.map_document (·.text) fun _ => rfl, h.map_document (·.version) fun _ => rfl,
    h.map_document (·.hash) fun _ => rfl, h.result]

theorem act (h : Agree uri s s') (hs : Tidy s) (hs' : Tidy s') (site : Site) (op : Operation) :
    Agree uri (s.act site (op.only uri)) (s'.act site op) := by
  unfold Operation.only
  split
  · next haway =>
    cases op with
    | request r =>
      obtain ⟨u, hr, hu⟩ := (Option.any_eq_true _ _).1 haway
      exact h.trans (agree_of_away site s' hr (of_decide_eq_true hu))
    | wait ms => exact h
    | peek u => exact h
  · cases op with
    | request r => exact h.handle hs hs' site r
    | wait ms => exact h
    | peek u => exact h

theorem perform (h : Agree uri s s') (hs : Tidy s) (hs' : Tidy s') (site : Site) (tick : Nat)
    (op : Operation) :
    Agree uri (s.perform site tick (op.only uri)) (s'.perform site tick op) := by
  unfold Server.perform
  rw [pause_only]
  exact (h.act hs hs' site op).elapse (hs.act site _).ordered (hs'.act site op).ordered site _

theorem answer (h : Agree uri s s') (site : Site) (haway : op.isAway uri = false) :
    s.answer site op = s'.answer site op := by
  cases op with
  | request r =>
    refine congrArg Answer.response (h.response site fun u hr => ?_)
    simpa [Operation.isAway, hr] using haway
  | wait ms => rfl
  | peek u =>
    obtain rfl : u = uri := by simpa [Operation.isAway] using haway
    exact congrArg Answer.glimpse h.glimpse

/-- What is heard of the document is the same. -/
theorem hears (h : Agree uri s s') (hs : Tidy s) (hs' : Tidy s') (site : Site) (tick : Nat)
    (op : Operation) :
    s.hears site tick uri (op.only uri) = s'.hears site tick uri op := by
  have hperform := h.perform hs hs' site tick op
  have hanswer : (if (op.only uri).isAway uri then .none else s.answer site (op.only uri)) =
      if op.isAway uri then .none else s'.answer site op := by
    unfold Operation.only
    by_cases haway : op.isAway uri = true
    · rw [if_pos haway, if_pos haway]
      rfl
    · rw [if_neg haway, if_neg haway, if_neg haway]
      exact h.answer site (Bool.eq_false_iff.2 haway)
  rw [Server.hears, Server.hears, hanswer, published_perform, published_perform, hperform.told,
    h.told]

end Agree

theorem hearings_of_agree (site : Site) (tick : Nat) (ops : List Operation)
    (h : Agree uri s s') (hs : Tidy s) (hs' : Tidy s') :
    hearings site tick uri s (ops.map (·.only uri)) = hearings site tick uri s' ops := by
  induction ops generalizing s s' with
  | nil => rfl
  | cons op ops ih =>
    have hrest := ih (h.perform hs hs' site tick op) (hs.perform site tick _)
      (hs'.perform site tick op)
    rw [List.map_cons, hearings, hearings, h.hears hs hs', hrest]

end

/-- Of a document the same is heard whether anything is done with other documents or time passes
instead: the answers about it, what is published for it and behind which operation, and what a look
at it shows. -/
theorem hearings_only (site : Site) (reply : SettingsReply) (tick : Nat) (uri : Uri)
    (ops : List Operation) :
    hearings site tick uri (start site reply) (ops.map (·.only uri)) =
      hearings site tick uri (start site reply) ops :=
  hearings_of_agree site tick ops (.refl uri _) (.start site reply) (.start site reply)

end Krl.Server
