import Krl.Proofs.Server.Synchronisation
import Mathlib.Data.List.Induction

/-!
# The settings in force

A server asks for settings when it starts, and again whenever they have changed. A reply gives
settings if its first value can be laid over those of the site (`Gives`), and else nothing
(`GivesNothing`). The settings in force are those of the last reply that gives some, whatever has
been replied before, and the analyzer is made of them (`Matched`).

* `prevails_iff`: of any replies just one prevails, and loading one after the other gives its
  settings.
* `settings_run`: the settings behind a run are those of the replies that arrive in its course.
* `settings_session`: settings and analyzer are those of the last reply that gives some.
-/

set_option autoImplicit false

namespace Krl.Server

/-! ## Replies -/

section
variable (site : Site)

/-- The first value of the reply is a section, and these are the settings of the site with the
section laid over them. -/
inductive Gives : SettingsReply → Settings → Prop
  | first {value : Json} {values : List Json} {settings : Settings}
      (h : site.settings.overlay? value = some settings) : Gives (some (value :: values)) settings

/-- There is no reply, or no value in it, or its first value is no section. -/
inductive GivesNothing : SettingsReply → Prop
  | failed : GivesNothing none
  | empty : GivesNothing (some [])
  | malformed {value : Json} {values : List Json} (h : site.settings.overlay? value = none) :
      GivesNothing (some (value :: values))

/-- These are the settings of the last of the replies that gives some; if there is none, they are
those of the site. -/
inductive Prevails : List SettingsReply → Settings → Prop
  | startup {replies : List SettingsReply} (h : ∀ reply ∈ replies, GivesNothing site reply) :
      Prevails replies site.settings
  | given {earlier later : List SettingsReply} {reply : SettingsReply} {settings : Settings}
      (h : Gives site reply settings) (hlater : ∀ reply ∈ later, GivesNothing site reply) :
      Prevails (earlier ++ reply :: later) settings

end

/-- The replies that arrive in the course of events: none behind a shutdown. -/
def replies : List Event → List SettingsReply
  | [] => []
  | .request .shutdown :: _ => []
  | .request (.settingsChanged reply) :: events => reply :: replies events
  | _ :: events => replies events

/-- The settings that a reply gives, or those that there have been. -/
def settingsAfter (site : Site) (settings : Settings) (reply : SettingsReply) : Settings :=
  ((reply.bind List.head?).bind site.settings.overlay?).getD settings

section
variable {site : Site} {reply : SettingsReply} {settings : Settings}

theorem gives_or_givesNothing (site : Site) (reply : SettingsReply) :
    (∃ settings, Gives site reply settings) ∨ GivesNothing site reply := by
  rcases reply with _ | _ | ⟨value, values⟩
  · exact .inr .failed
  · exact .inr .empty
  · cases hvalue : site.settings.overlay? value with
    | none => exact .inr (.malformed hvalue)
    | some settings => exact .inl ⟨settings, .first hvalue⟩

theorem settingsAfter_of_gives (h : Gives site reply settings) (t : Settings) :
    settingsAfter site t reply = settings := by
  obtain ⟨hvalue⟩ := h
  show (site.settings.overlay? _).getD t = settings
  rw [hvalue, Option.getD_some]

theorem settingsAfter_of_givesNothing (h : GivesNothing site reply) (t : Settings) :
    settingsAfter site t reply = t := by
  cases h with
  | failed => rfl
  | empty => rfl
  | @malformed value values hvalue =>
    show (site.settings.overlay? value).getD t = t
    rw [hvalue, Option.getD_none]

theorem foldl_of_givesNothing {replies : List SettingsReply}
    (h : ∀ reply ∈ replies, GivesNothing site reply) (settings : Settings) :
    replies.foldl (settingsAfter site) settings = settings := by
  induction replies with
  | nil => rfl
  | cons reply replies ih =>
    obtain ⟨hreply, hreplies⟩ := List.forall_mem_cons.1 h
    rw [List.foldl_cons, settingsAfter_of_givesNothing hreply, ih hreplies]

/-- A reply that gives nothing does not count. -/
theorem Prevails.concat {replies : List SettingsReply} (h : Prevails site replies settings)
    (hreply : GivesNothing site reply) : Prevails site (replies ++ [reply]) settings := by
  have hlast : ∀ r ∈ [reply], GivesNothing site r := List.forall_mem_singleton.2 hreply
  cases h with
  | startup h => exact .startup (List.forall_mem_append.2 ⟨h, hlast⟩)
  | given h hlater =>
    rw [List.append_assoc, List.cons_append]
    exact .given h (List.forall_mem_append.2 ⟨hlater, hlast⟩)

theorem prevails_foldl (site : Site) (replies : List SettingsReply) :
    Prevails site replies (replies.foldl (settingsAfter site) site.settings) := by
  induction replies using List.reverseRecOn with
  | nil => exact .startup nofun
  | append_singleton replies reply ih =>
    rw [List.foldl_concat]
    obtain ⟨settings, h⟩ | h := gives_or_givesNothing site reply
    · rw [settingsAfter_of_gives h]
      exact .given h nofun
    · rw [settingsAfter_of_givesNothing h]
      exact ih.concat h

theorem prevails_iff {replies : List SettingsReply} : Prevails site replies settings ↔
    replies.foldl (settingsAfter site) site.settings = settings := by
  constructor
  · intro h
    cases h with
    | startup h => exact foldl_of_givesNothing h _
    | given h hlater =>
      rw [List.foldl_append, List.foldl_cons, settingsAfter_of_gives h,
        foldl_of_givesNothing hlater]
  · rintro rfl
    exact prevails_foldl site replies

end

/-! ## Runs -/

section
variable {site : Site} {s : Server} {e : Event}

/-- The analyzer is the one of the settings. -/
def Matched (s : Server) : Prop := s.analyzer = .ofSettings s.settings

theorem settings_loadSettings (site : Site) (s : Server) (reply : SettingsReply) :
    (s.loadSettings site reply).settings = settingsAfter site s.settings reply := by
  unfold loadSettings settingsAfter
  split
  · next h => rw [h, Option.getD_none]
  · next h => rw [h, Option.getD_some]

theorem settings_settingsChanged (site : Site) (s : Server) (reply : SettingsReply) :
    (s.serve site (.settingsChanged reply)).1.settings = settingsAfter site s.settings reply := by
  obtain ⟨cache, timers, heq⟩ := (s.loadSettings site reply).refreshAll_frame
  rw [serve, heq]
  exact settings_loadSettings site s reply

/-- An event that loads no settings leaves settings and analyzer. -/
theorem step_frame (site : Site) (h : s.reloads e = false) :
    (s.step site e).settings = s.settings ∧ (s.step site e).analyzer = s.analyzer := by
  cases e with
  | elapse ms =>
    obtain ⟨cache, heq⟩ := elapse_frame site s ms
    rw [step, heq]
    exact ⟨rfl, rfl⟩
  | request r =>
    obtain ⟨hsettings, hanalyzer, -, -⟩ := handle_frame site h
    exact ⟨hsettings, hanalyzer⟩

theorem Matched.loadSettings (h : Matched s) (site : Site) (reply : SettingsReply) :
    Matched (s.loadSettings site reply) := by
  obtain heq | ⟨settings, heq⟩ := loadSettings_cases site s reply
  · rw [heq]
    exact h
  · rw [heq]
    rfl

theorem Matched.step (h : Matched s) (site : Site) (e : Event) : Matched (s.step site e) := by
  cases hreload : s.reloads e with
  | true =>
    obtain ⟨reply, heq⟩ := step_of_reloads site hreload
    obtain ⟨cache, timers, hrefresh⟩ := (s.loadSettings site reply).refreshAll_frame
    rw [heq, hrefresh]
    exact h.loadSettings site reply
  | false =>
    obtain ⟨hsettings, hanalyzer⟩ := step_frame site hreload
    rw [Matched, hsettings, hanalyzer]
    exact h

theorem Matched.run (h : Matched s) (site : Site) (events : List Event) :
    Matched (s.run site events) := by
  induction events generalizing s with
  | nil => exact h
  | cons e events ih => exact ih (h.step site e)

theorem stopped_elapse (site : Site) (s : Server) (ms : Nat) :
    (s.elapse site ms).stopped = s.stopped := by
  obtain ⟨cache, heq⟩ := elapse_frame site s ms
  rw [heq]

/-- No reply arrives at a server that has been shut down. -/
theorem settings_run_of_stopped (site : Site) (hs : s.stopped = true) (events : List Event) :
    (s.run site events).settings = s.settings := by
  induction events generalizing s with
  | nil => rfl
  | cons e events ih =>
    rw [run, List.foldl_cons, ← run]
    cases e with
    | elapse ms =>
      have hstopped : (s.step site (.elapse ms)).stopped = true :=
        (stopped_elapse site s ms).trans hs
      have hwait : s.reloads (.elapse ms) = false := rfl
      rw [ih hstopped, (step_frame site hwait).1]
    | request r => rw [step, handle_of_stopped site hs, ih hs]

theorem settings_run (site : Site) (hs : s.stopped = false) (events : List Event) :
    (s.run site events).settings = (replies events).foldl (settingsAfter site) s.settings := by
  induction events generalizing s with
  | nil => rfl
  | cons e events ih =>
    rw [run, List.foldl_cons, ← run]
    have hquiet : s.reloads e = false → (s.step site e).stopped = false →
        ((s.step site e).run site events).settings =
          (replies events).foldl (settingsAfter site) s.settings := by
      intro hreload hrunning
      rw [ih hrunning, (step_frame site hreload).1]
    cases e with
    | elapse ms => exact hquiet rfl ((stopped_elapse site s ms).trans hs)
    | request r =>
      have hstep : s.step site (.request r) = (s.serve site r).1 := by
        rw [step, handle_of_not_stopped site hs]
      have hrunning : r ≠ .shutdown → (s.step site (.request r)).stopped = false := by
        intro hr
        rw [hstep, stopped_serve site s hr, hs]
      cases r with
      | shutdown =>
        rw [hstep]
        exact settings_run_of_stopped site rfl events
      | settingsChanged reply =>
        rw [ih (hrunning (by simp)), hstep, settings_settingsChanged, replies, List.foldl_cons]
      | _ => exact hquiet rfl (hrunning (by simp))

end

/-! ## Sessions -/

section
variable (site : Site) (reply : SettingsReply) (events : List Event)

theorem matched_session : Matched (session site reply events) := by
  have hinitial : Matched (initial site) := rfl
  exact (hinitial.loadSettings site reply).run site events

theorem settings_session_eq : (session site reply events).settings =
    (reply :: replies events).foldl (settingsAfter site) site.settings := by
  have hstart : (start site reply).stopped = false := by
    obtain ⟨settings, heq⟩ := start_eq site reply
    rw [heq]
  have hfirst : (start site reply).settings = settingsAfter site site.settings reply :=
    settings_loadSettings site (initial site) reply
  rw [session, settings_run site hstart, hfirst, List.foldl_cons]

/-- The settings in force are those of the last reply that gives some, and the analyzer is made of
them. A reply that gives nothing leaves both. -/
theorem settings_session :
    (∀ settings, (session site reply events).settings = settings ↔
      Prevails site (reply :: replies events) settings) ∧
    (session site reply events).analyzer = .ofSettings (session site reply events).settings ∧
    ∀ idle, GivesNothing site idle →
      let next := session site reply (events ++ [.request (.settingsChanged idle)])
      next.settings = (session site reply events).settings ∧
        next.analyzer = (session site reply events).analyzer := by
  refine ⟨fun settings => ?_, matched_session site reply events, fun idle hidle => ?_⟩
  · rw [settings_session_eq]
    exact prevails_iff.symm
  · intro next
    have hnext : next = ((session site reply events).handle site (.settingsChanged idle)).1 :=
      session_concat ..
    have hsettings : next.settings = (session site reply events).settings := by
      rw [hnext]
      cases hstopped : (session site reply events).stopped with
      | true => rw [handle_of_stopped site hstopped]
      | false =>
        rw [handle_of_not_stopped site hstopped, settings_settingsChanged,
          settingsAfter_of_givesNothing hidle]
    refine ⟨hsettings, ?_⟩
    have hmatched : next.analyzer = .ofSettings next.settings := matched_session site reply _
    rw [hmatched, hsettings]
    exact (matched_session site reply events).symm

end

end Krl.Server
