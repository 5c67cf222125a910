import Krl.Proofs.Server.Freshness
import Krl.Proofs.Server.Requests
import Krl.Proofs.Text.Lines

/-!
# The server has the texts that the editor has

What an editor has told a server of a document is said in the terms of the protocol (`mirror`): it
opens and closes the document, and each of its changes names places in what the previous one left.
The server has the same text, as long as in front of the places that are named there is none of the
characters that end a line for the server and not in the protocol (`PlainAt`).

* `contents_session`: what the server has is what the editor has.
* `contents_drift`: a change behind a vertical tab goes to another place.
-/

set_option autoImplicit false

namespace Krl.Server

/-! ## What the editor has -/

/-- What the editor has of a document behind a request. A document that is changed without having
been opened is empty before. -/
def Request.mirror (uri : Uri) (text : Option (List Char)) : Request → Option (List Char)
  | .opened u _ new => if u = uri then some new.toList else text
  | .changed u _ changes =>
    if u = uri then some (Text.Change.reviseAll changes (text.getD [])) else text
  | .closed u => if u = uri then none else text
  | _ => text

/-- What the editor has of a document behind a session. Nothing counts behind a shutdown. -/
def mirror (uri : Uri) : Option (List Char) → List Event → Option (List Char)
  | text, [] => text
  | text, .elapse _ :: events => mirror uri text events
  | text, .request .shutdown :: _ => text
  | text, .request r :: events => mirror uri (r.mirror uri text) events

/-- What the server has of a document. -/
def contents (s : Server) (uri : Uri) : Option (List Char) :=
  (s.workspace.documents.get? uri).map (·.text.toList)

/-- In front of the places that a change of the document names, lines end for the server where they
end in the protocol. -/
def PlainAt (uri : Uri) (m : Moment Server Event) : Prop :=
  match m.event with
  | .request (.changed u _ changes) =>
    m.state.stopped = false → u = uri → Text.PlainAll changes ((m.state.contents uri).getD [])
  | _ => True

/-! ## Steps -/

section
variable {site : Site} {s s' : Server} {uri : Uri} {events : List Event}

theorem contents_congr (h : s'.workspace.documents.get? uri = s.workspace.documents.get? uri) :
    s'.contents uri = s.contents uri := by
  rw [contents, h, contents]

theorem contents_elapse (site : Site) (s : Server) (ms : Nat) (uri : Uri) :
    (s.elapse site ms).contents uri = s.contents uri := by
  obtain ⟨cache, heq⟩ := elapse_frame site s ms
  exact contents_congr (by rw [heq])

theorem stopped_serve (site : Site) (s : Server) {r : Request} (hr : r ≠ .shutdown) :
    (s.serve site r).1.stopped = s.stopped := by
  have hdemand : ∀ u, (s.analysisFor site u).1.stopped = s.stopped := by
    intro u
    obtain ⟨cache, heq⟩ := analysisFor_frame site s u
    rw [heq]
  cases r with
  | opened u version text => rfl
  | changed u version changes =>
    obtain ⟨doc, lastSeq, timers, heq⟩ := changed_frame site s u version changes
    rw [heq]
  | closed u => rfl
  | settingsChanged reply =>
    obtain ⟨settings, analyzer, cache, timers, heq⟩ := reload_frame site s reply
    rw [serve, heq]
  | completion u cursor trigger =>
    simp only [serve]
    split
    · rfl
    · exact hdemand u
  | symbols u => exact hdemand u
  | malformed => rfl
  | shutdown => exact absurd rfl hr

/-- An edit leaves what is computed from its changes, whether it draws a number or not. -/
theorem contents_changed (site : Site) (s : Server) (uri : Uri) (version : Int)
    (changes : List Text.Change) :
    (s.serve site (.changed uri version changes)).1.contents uri =
      some (Text.Change.applyAll changes ((s.contents uri).getD [])) := by
  have hedited : (s.workspace.edited uri version changes).text.toList =
      Text.Change.applyAll changes ((s.contents uri).getD []) := by
    rw [Workspace.edited, Document.edit, String.toList_ofList, contents]
    cases s.workspace.documents.get? uri <;> rfl
  rw [contents, serve, workspace_adopt, ← hedited]
  obtain ⟨-, -, heq⟩ | ⟨-, heq⟩ := Workspace.change_cases s.workspace uri version changes <;>
    · rw [heq, Table.get?_insert_self]
      rfl

/-- The server takes from a request what the editor means by it. -/
theorem contents_serve (site : Site) {r : Request} (later : List Event)
    (hrunning : s.stopped = false) (h : PlainAt uri ⟨s, .request r, later⟩) :
    (s.serve site r).1.contents uri = r.mirror uri (s.contents uri) := by
  by_cases hr : r.concerns uri
  · cases r <;> simp only [Request.concerns] at hr
    · subst hr
      simp [contents, serve, setTimer, Request.mirror]
    · next u version changes =>
      subst hr
      rw [contents_changed, Text.applyAll_eq_reviseAll (h hrunning rfl)]
      exact (if_pos rfl).symm
    · subst hr
      simp [contents, serve, publish, Request.mirror]
    · next reply =>
      obtain ⟨settings, analyzer, cache, timers, heq⟩ := reload_frame site s reply
      exact contents_congr (by rw [serve, heq])
  · rw [contents_congr (undisturbed_of_not_concerns site s hr).2]
    cases r <;> first | rfl | exact (if_neg hr).symm

/-! ## Sessions -/

theorem contents_run_of_stopped (hstopped : s.stopped = true) (events : List Event) :
    (s.run site events).contents uri = s.contents uri := by
  induction events generalizing s with
  | nil => rfl
  | cons e events ih =>
    have hstep : (s.step site e).stopped = true ∧
        (s.step site e).contents uri = s.contents uri := by
      cases e with
      | elapse ms =>
        obtain ⟨cache, heq⟩ := elapse_frame site s ms
        exact ⟨by rw [step, heq]; exact hstopped, contents_elapse site s ms uri⟩
      | request r =>
        rw [step, handle_of_stopped site hstopped]
        exact ⟨hstopped, rfl⟩
    exact (ih hstep.1).trans hstep.2

theorem contents_run (hrunning : s.stopped = false) (events : List Event)
    (h : ∀ m ∈ moments (step site) s events, PlainAt uri m) :
    (s.run site events).contents uri = mirror uri (s.contents uri) events := by
  induction events generalizing s with
  | nil => rfl
  | cons e events ih =>
    obtain ⟨hfirst, hrest⟩ := List.forall_mem_cons.1 h
    cases e with
    | elapse ms =>
      obtain ⟨cache, heq⟩ := elapse_frame site s ms
      have hstep : (s.step site (.elapse ms)).stopped = false := by
        rw [step, heq]
        exact hrunning
      exact (ih hstep hrest).trans (congrArg (mirror uri · events) (contents_elapse site s ms uri))
    | request r =>
      have hserve : s.step site (.request r) = (s.serve site r).1 := by
        rw [step, handle_of_not_stopped site hrunning]
      have hcontents := contents_serve site events hrunning hfirst
      by_cases hr : r = .shutdown
      · subst hr
        have hstopped : (s.step site (.request .shutdown)).stopped = true := by
          rw [hserve]
          rfl
        exact (contents_run_of_stopped hstopped events).trans
          (contents_congr (by rw [hserve]; rfl))
      · have hstep : (s.step site (.request r)).stopped = false := by
          rw [hserve, stopped_serve site s hr, hrunning]
        have hmirror : mirror uri (s.contents uri) (.request r :: events) =
            mirror uri (r.mirror uri (s.contents uri)) events := by
          cases r <;> first | rfl | exact absurd rfl hr
        rw [hmirror, ← hcontents, ← hserve]
        exact ih hstep hrest

/-- Where changes of a document name places in front of which only the line ends of the protocol end
a line, the server has of the document what the editor has, behind every session. -/
theorem contents_session (site : Site) (reply : SettingsReply) (events : List Event) (uri : Uri)
    (h : ∀ m ∈ moments (step site) (start site reply) events, PlainAt uri m) :
    (session site reply events).contents uri = mirror uri none events := by
  obtain ⟨settings, heq⟩ := start_eq site reply
  have hrunning : (start site reply).stopped = false := by rw [heq]
  have hnone : (start site reply).contents uri = none := by rw [heq]; rfl
  rw [← hnone]
  exact contents_run hrunning events h

/-- A session in which a document is changed at places within a surrogate pair and behind the end of
a line, then at the ends of a range in either order; all of them are in front of a vertical tab. It
is closed, and changed behind its last line when it is open again. -/
def editing (uri : Uri) : List Event :=
  [.request (.opened uri 1 "a😀\r\nb\n\x0bc"),
    .request (.changed uri 2
      [⟨some (⟨0, 2⟩, ⟨0, 9⟩), ['x']⟩, ⟨some (⟨1, 0⟩, ⟨0, 1⟩), ['y', '\r']⟩]),
    .elapse 500, .request (.closed uri), .request (.opened uri 3 "d\re"),
    .request (.changed uri 4 [⟨some (⟨2, 0⟩, ⟨2, 0⟩), ['f']⟩, ⟨some (⟨1, 1⟩, ⟨9, 0⟩), []⟩]),
    .request .shutdown, .request (.closed uri)]

theorem contents_session_editing :
    let site : Site := ⟨⟨fun command _ => .error ⟨command.program, Tool.noSuchFile⟩⟩, {}⟩
    (∀ m ∈ moments (step site) (start site none) (editing ⟨"a"⟩), PlainAt ⟨"a"⟩ m) ∧
      (session site none ((editing ⟨"a"⟩).take 2)).contents ⟨"a"⟩ = some "ay\rb\n\x0bc".toList ∧
      (session site none (editing ⟨"a"⟩)).contents ⟨"a"⟩ = some "d\re".toList ∧
      (session site none (editing ⟨"a"⟩)).contents ⟨"a"⟩ = mirror ⟨"a"⟩ none (editing ⟨"a"⟩) := by
  intro site
  have hplain : ∀ m ∈ moments (step site) (start site none) (editing ⟨"a"⟩), PlainAt ⟨"a"⟩ m := by
    simp only [editing, moments, List.forall_mem_cons, PlainAt, true_and]
    refine ⟨fun _ _ => ?_, fun _ _ => ?_, fun _ hm => absurd hm List.not_mem_nil⟩ <;> decide +kernel
  have hcontents := contents_session site none (editing ⟨"a"⟩) ⟨"a"⟩ hplain
  have hmirror : mirror ⟨"a"⟩ none (editing ⟨"a"⟩) = some "d\re".toList := by decide +kernel
  refine ⟨hplain, by decide +kernel, ?_, hcontents⟩
  rw [hcontents, hmirror]

/-- Behind a vertical tab, which ends a line here, a place in the line is taken for one in front of
it. -/
theorem contents_drift :
    let site : Site := ⟨⟨fun command _ => .error ⟨command.program, Tool.noSuchFile⟩⟩, {}⟩
    let events : List Event := [.request (.opened ⟨"a"⟩ 1 "ab\x0bcd"),
      .request (.changed ⟨"a"⟩ 2 [⟨some (⟨0, 4⟩, ⟨0, 4⟩), ['X']⟩])]
    (session site none events).contents ⟨"a"⟩ = some "ab\x0bXcd".toList ∧
      mirror ⟨"a"⟩ none events = some "ab\x0bcXd".toList ∧
      (session site none events).contents ⟨"a"⟩ ≠ mirror ⟨"a"⟩ none events := by
  decide +kernel

end

end Krl.Server
