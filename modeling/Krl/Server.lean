import Krl.Analysis
import Krl.OperatorContext
import Krl.Workspace

/-!
# The language server

A server on a clock of milliseconds. An edit does not start an analysis at once but sets a timer;
when it is due, the document is analysed unless it has been edited again meanwhile, and its
diagnostics are published. Requests take no time, and neither do analyses; only waiting does. A
server that has been shut down does nothing that it is told and refuses what it is asked, but the
timers that it has set still fire.

* `clock_elapse`: waiting moves the clock.
* `log_publish`: what has been published stays in the log.
* `handle_of_stopped`: a server that has been shut down does nothing for a request.
-/

set_option autoImplicit false

namespace Krl

open Tool

namespace Server

/-- An analysis that is to be made, with the analyzer and the limit in force when it was asked
for. -/
structure Timer where
  due : Nat
  uri : Uri
  seq : Nat
  analyzer : Analyzer
  limit : Nat
deriving DecidableEq, Repr

/-- Diagnostics sent to the editor, and when. A version is given unless the document is closed. -/
structure Publication where
  time : Nat
  uri : Uri
  diagnostics : List Diagnostic
  version : Option Int
deriving DecidableEq, Repr

/-- Where a server runs: the programs that it can start, and the settings that it starts with. -/
structure Site where
  host : Host
  settings : Settings := {}

end Server

/-- The state of a server. Timers stand in the order in which they are due, those due at the same
time in the order in which they were set; publications in the order in which they were sent. -/
structure Server where
  workspace : Workspace Analysis := {}
  settings : Settings := {}
  analyzer : Analyzer := {}
  clock : Nat := 0
  timers : List Server.Timer := []
  log : List Server.Publication := []
  /-- Has the server been shut down? -/
  stopped : Bool := false

namespace Server

/-! ## Publishing -/

/-- Send diagnostics. -/
def publish (s : Server) (uri : Uri) (diagnostics : List Diagnostic) (version : Option Int) :
    Server :=
  { s with log := s.log ++ [⟨s.clock, uri, diagnostics, version⟩] }

/-! ## Timers -/

/-- Put a timer behind all that are due no later. -/
def insertTimer (timer : Timer) : List Timer → List Timer
  | [] => [timer]
  | t :: ts => if t.due ≤ timer.due then t :: insertTimer timer ts else timer :: t :: ts

/-- Set the timer of an analysis, with the settings in force. -/
def setTimer (s : Server) (uri : Uri) (seq : Nat) : Server :=
  let timer := ⟨s.clock + s.settings.debounce, uri, seq, s.analyzer, s.settings.maxProblems⟩
  { s with timers := insertTimer timer s.timers }

/-- Make the analysis of a timer that is due, unless its document is gone or has a new number. -/
def fire (site : Site) (s : Server) (timer : Timer) : Server :=
  let s := { s with clock := timer.due }
  match s.workspace.snapshot? timer.uri with
  | none => s
  | some snapshot =>
    if snapshot.seq ≠ timer.seq then s
    else
      let result := timer.analyzer.analyze site.host snapshot.text
      let (workspace, stored) :=
        s.workspace.offer timer.uri timer.seq snapshot.version result
      if stored then
        { s with workspace := workspace }.publish timer.uri (result.diagnostics.take timer.limit)
          (some snapshot.version)
      else s

/-- Let time pass: each timer that is due by then fires at its time. -/
def elapse (site : Site) (s : Server) (ms : Nat) : Server :=
  let stop := s.clock + ms
  let due := s.timers.takeWhile (·.due ≤ stop)
  let rest := s.timers.dropWhile (·.due ≤ stop)
  { due.foldl (fire site) { s with timers := rest } with clock := stop }

/-! ## Settings -/

/-- What the editor answers when it is asked for settings: a list of values, or nothing at all. -/
abbrev SettingsReply := Option (List Json)

/-- Lay the first value of an answer over the settings of the site. Without one, or with one that is
no section of settings, all stays as it is. -/
def loadSettings (site : Site) (s : Server) (reply : SettingsReply) : Server :=
  match (reply.bind List.head?).bind site.settings.overlay? with
  | none => s
  | some settings => { s with settings := settings, analyzer := .ofSettings settings }

/-- Analyse a document anew: its result is gone, and a timer is set under its present number. -/
def refresh (s : Server) (uri : Uri) (seq : Nat) : Server :=
  { s with workspace := s.workspace.forget uri }.setTimer uri seq

def refreshAll (s : Server) : Server :=
  s.workspace.documents.entries.foldl (fun s e => s.refresh e.1 e.2.seq) s

/-- A server that has just started, with the settings of its site. -/
def initial (site : Site) : Server :=
  { settings := site.settings, analyzer := .ofSettings site.settings }

/-- A server that has asked for settings when it started. -/
def start (site : Site) (reply : SettingsReply) : Server := (initial site).loadSettings site reply

/-! ## Requests -/

/-- The analysis of a document: the result at hand, or one made now and kept if it is current. -/
def analysisFor (site : Site) (s : Server) (uri : Uri) : Server × Option Analysis :=
  match s.workspace.cache.get? uri with
  | some result => (s, some result)
  | none =>
    match s.workspace.snapshot? uri with
    | none => (s, none)
    | some snapshot =>
      let result := s.analyzer.analyze site.host snapshot.text
      let workspace := (s.workspace.offer uri snapshot.seq snapshot.version result).1
      ({ s with workspace := workspace }, some result)

/-- What an editor can offer. -/
inductive Suggestion where
  /-- A function without a name; always offered where no operator is being applied. -/
  | anonymousFunction
  | item (c : Completion)
deriving DecidableEq, Repr

/-- Is an operator being applied at the cursor? A point that has just been typed says so itself. -/
def wantsOperators (s : Server) (uri : Uri) (cursor : Text.Cursor) (trigger : Option String) :
    Bool :=
  trigger == some "." ||
    OperatorContext.holds
      (((s.workspace.documents.get? uri).map fun doc =>
        Text.lineHead doc.text.toList cursor).getD [])

/-- What the editor sends: it tells the server that something has happened, or asks it for an
answer. -/
inductive Request where
  | opened (uri : Uri) (version : Int) (text : String)
  | changed (uri : Uri) (version : Int) (changes : List Text.Change)
  | closed (uri : Uri)
  /-- The settings have changed; the reply is what the editor gives when it is asked for them. -/
  | settingsChanged (reply : SettingsReply)
  | completion (uri : Uri) (cursor : Text.Cursor) (trigger : Option String)
  | symbols (uri : Uri)
  /-- A question about a document or a place that there cannot be. -/
  | malformed
  | shutdown

/-- Is an answer asked for? -/
def Request.isQuestion : Request → Bool
  | .opened .. => false
  | .changed .. => false
  | .closed _ => false
  | .settingsChanged _ => false
  | .completion .. => true
  | .symbols _ => true
  | .malformed => true
  | .shutdown => true

/-- Why a question is not answered. -/
inductive Refusal where
  /-- The server has been shut down. -/
  | stopped
  | malformed
deriving DecidableEq, Repr

/-- What the editor gets. -/
inductive Response where
  | none
  | refused (why : Refusal)
  | suggestions (items : List Suggestion)
  | symbols (items : Option (List Symbol))

/-- Take over a changed workspace, and set a timer if a number comes with it. -/
def adopt (s : Server) (uri : Uri) (changed : Workspace Analysis × Option Nat) : Server :=
  match changed.2 with
  | some seq => { s with workspace := changed.1 }.setTimer uri seq
  | none => { s with workspace := changed.1 }

/-- Do what a request asks for. -/
def serve (site : Site) (s : Server) : Request → Server × Response
  | .opened uri version text =>
    let (workspace, seq) := s.workspace.openDocument uri version text
    ({ s with workspace := workspace }.setTimer uri seq, .none)
  | .changed uri version changes => (s.adopt uri (s.workspace.change uri version changes), .none)
  | .closed uri =>
    ({ s with workspace := s.workspace.close uri }.publish uri [] none, .none)
  | .settingsChanged reply => ((s.loadSettings site reply).refreshAll, .none)
  | .completion uri cursor trigger =>
    if s.wantsOperators uri cursor trigger then
      (s, .suggestions (Completion.ofOperators.map .item))
    else
      let (s, result) := s.analysisFor site uri
      let items := (result.map Analysis.completions).getD []
      (s, .suggestions (.anonymousFunction :: items.map .item))
  | .symbols uri =>
    let (s, result) := s.analysisFor site uri
    (s, .symbols (result.map Analysis.symbols))
  | .malformed => (s, .refused .malformed)
  | .shutdown => ({ s with stopped := true }, .none)

/-- Do what a request asks for, unless the server has been shut down. -/
def handle (site : Site) (s : Server) (r : Request) : Server × Response :=
  if s.stopped then (s, if r.isQuestion then .refused .stopped else .none) else s.serve site r

/-! ## Sessions -/

/-- What happens to a server. -/
inductive Event where
  | request (r : Request)
  | elapse (ms : Nat)

def step (site : Site) (s : Server) : Event → Server
  | .request r => (s.handle site r).1
  | .elapse ms => s.elapse site ms

/-- The state behind a session. -/
def run (site : Site) (s : Server) (events : List Event) : Server := events.foldl (step site) s

/-! ## Facts -/

@[simp] theorem clock_elapse (site : Site) (s : Server) (ms : Nat) :
    (s.elapse site ms).clock = s.clock + ms := rfl

@[simp] theorem log_publish (s : Server) (uri : Uri) (diagnostics : List Diagnostic)
    (version : Option Int) :
    (s.publish uri diagnostics version).log = s.log ++ [⟨s.clock, uri, diagnostics, version⟩] :=
  rfl

theorem handle_of_stopped (site : Site) {s : Server} (h : s.stopped = true) (r : Request) :
    (s.handle site r).1 = s := by
  simp [handle, h]

theorem response_of_stopped (site : Site) {s : Server} (h : s.stopped = true) {r : Request}
    (hr : r.isQuestion = true) : (s.handle site r).2 = .refused .stopped := by
  simp [handle, h, hr]

theorem handle_of_not_stopped (site : Site) {s : Server} (h : s.stopped = false) (r : Request) :
    s.handle site r = s.serve site r := by
  simp [handle, h]

theorem run_append (site : Site) (s : Server) (es fs : List Event) :
    s.run site (es ++ fs) = (s.run site es).run site fs := by
  simp [run]

end Server

end Krl
