import Krl.Proofs.Server.Synchronisation
import Mathlib.Data.List.Induction

/-!
# Servers that agree on a document

Two servers agree on a document (`Agree`) if nothing that either of them will ever say of it tells
them apart: it has the same text, version, hash and result in both, the same analyses of it wait,
the same has been published for it, and clock and settings are the same. The numbers of documents
and of timers may differ, since they are drawn for all documents together.

* `Agree.elapse`: waiting keeps the agreement.
* `agree_of_away`: a request to another document leaves a server in agreement with itself.
-/

set_option autoImplicit false

namespace Krl

/-- A document but for its number. -/
def Document.unnumbered (doc : Document) : Document := { doc with seq := 0 }

namespace Server

variable {site : Site} {s s' t t' : Server} {timer : Timer} {ts : List Timer} {uri : Uri}

/-! ## Timers but for their numbers -/

def Timer.unnumbered (timer : Timer) : Timer := { timer with seq := 0 }

theorem map_unnumbered_insertTimer (timer : Timer) (ts : List Timer) :
    (insertTimer timer ts).map Timer.unnumbered =
      insertTimer timer.unnumbered (ts.map Timer.unnumbered) := by
  induction ts with
  | nil => rfl
  | cons t ts ih =>
    have hdue : t.unnumbered.due ≤ timer.unnumbered.due ↔ t.due ≤ timer.due := Iff.rfl
    simp only [insertTimer, List.map_cons, hdue]
    split
    · rw [List.map_cons, ih]
    · rfl

theorem insertTimer_of_lt (h : ∀ u ∈ ts, timer.due < u.due) :
    insertTimer timer ts = timer :: ts := by
  cases ts with
  | nil => rfl
  | cons t ts => exact if_neg (Nat.not_le_of_lt (h t List.mem_cons_self))

/-- Among the timers that count, one that counts is put in its place too. -/
theorem filter_insertTimer {p : Timer → Bool} (h : Ordered ts) (ht : p timer = true) :
    (insertTimer timer ts).filter p = insertTimer timer (ts.filter p) := by
  induction ts with
  | nil => simp [insertTimer, ht]
  | cons t ts ih =>
    obtain ⟨hle, hts⟩ := List.pairwise_cons.1 h
    rw [insertTimer]
    split
    · next hdue => by_cases hp : p t = true <;> simp [hp, ih hts, insertTimer, hdue]
    · next hdue =>
      have hlater : ∀ u ∈ (t :: ts).filter p, timer.due < u.due := by
        intro u hu
        rcases List.mem_cons.1 (List.mem_filter.1 hu).1 with rfl | hu
        · omega
        · have := hle u hu
          omega
      rw [List.filter_cons_of_pos ht, insertTimer_of_lt hlater]

/-! ## Agreement -/

/-- All that has been published for a document. -/
def told (s : Server) (uri : Uri) : List Publication := s.log.filter (·.uri = uri)

/-- The two servers are alike in all that is not of one document. -/
structure Alike (s s' : Server) : Prop where
  settings : s.settings = s'.settings
  analyzer : s.analyzer = s'.analyzer
  clock : s.clock = s'.clock
  stopped : s.stopped = s'.stopped

/-- Nothing that is said of the document tells the two servers apart. -/
structure Agree (uri : Uri) (s s' : Server) : Prop extends Alike s s' where
  document : (s.workspace.documents.get? uri).map Document.unnumbered =
    (s'.workspace.documents.get? uri).map Document.unnumbered
  result : s.workspace.cache.get? uri = s'.workspace.cache.get? uri
  awaiting : (s.awaiting uri).map Timer.unnumbered = (s'.awaiting uri).map Timer.unnumbered
  told : s.told uri = s'.told uri

namespace Alike

theorem refl (s : Server) : Alike s s := ⟨rfl, rfl, rfl, rfl⟩

theorem symm (h : Alike s s') : Alike s' s :=
  ⟨h.settings.symm, h.analyzer.symm, h.clock.symm, h.stopped.symm⟩

theorem trans (h : Alike s s') (h' : Alike s' t) : Alike s t :=
  ⟨h.settings.trans h'.settings, h.analyzer.trans h'.analyzer, h.clock.trans h'.clock,
    h.stopped.trans h'.stopped⟩

/-- Servers that were alike are alike still, if both have stayed as they were. -/
theorem both (h : Alike s s') (ht : Alike s t) (ht' : Alike s' t') : Alike t t' :=
  ht.symm.trans (h.trans ht')

end Alike

namespace Agree

theorem refl (uri : Uri) (s : Server) : Agree uri s s := ⟨.refl s, rfl, rfl, rfl, rfl⟩

theorem trans (h : Agree uri s s') (h' : Agree uri s' t) : Agree uri s t :=
  ⟨h.toAlike.trans h'.toAlike, h.document.trans h'.document, h.result.trans h'.result,
    h.awaiting.trans h'.awaiting, h.told.trans h'.told⟩

theorem symm (h : Agree uri s s') : Agree uri s' s :=
  ⟨h.toAlike.symm, h.document.symm, h.result.symm, h.awaiting.symm, h.told.symm⟩

/-- What is made of a document without a look at its number is the same in both. -/
theorem map_document {β : Type} (h : Agree uri s s') (f : Document → β)
    (hf : ∀ doc, f doc.unnumbered = f doc) :
    (s.workspace.documents.get? uri).map f = (s'.workspace.documents.get? uri).map f := by
  have hdocument := congrArg (Option.map f) h.document
  have hcomp : f ∘ Document.unnumbered = f := funext hf
  rwa [Option.map_map, Option.map_map, hcomp] at hdocument

theorem newTimer (h : Agree uri s s') (seq seq' : Nat) :
    (s.newTimer uri seq).unnumbered = (s'.newTimer uri seq').unnumbered := by
  simp only [Server.newTimer, Timer.unnumbered, h.settings, h.analyzer, h.clock]

end Agree

/-! ## Waiting -/

/-- The analysis of a document that a timer makes, if it makes one. -/
def firing? (s : Server) (uri : Uri) (timer : Timer) : Option (Timer × Document) :=
  if timer.uri = uri then
    (s.target? timer).map fun doc => (timer.unnumbered, doc.unnumbered)
  else none

/-- The analyses of a document that are made while time passes, in order. -/
def firings (s : Server) (uri : Uri) (ms : Nat) : List (Timer × Document) :=
  (s.timers.filter (·.due ≤ s.clock + ms)).filterMap (s.firing? uri)

/-- They are those of the timers that await the document. -/
theorem firings_eq (s : Server) (uri : Uri) (ms : Nat) : s.firings uri ms =
    (((s.awaiting uri).map Timer.unnumbered).filter (·.due ≤ s.clock + ms)).filterMap fun t =>
      ((s.workspace.documents.get? uri).map Document.unnumbered).map fun doc => (t, doc) := by
  rw [firings, awaiting, List.filterMap_filter, List.filter_map, List.filterMap_map,
    List.filterMap_filter, List.filterMap_filter]
  refine List.filterMap_congr fun t _ => ?_
  have hdue : t.unnumbered.due = t.due := rfl
  by_cases huri : t.uri = uri
  · cases htarget : s.target? t with
    | none => simp [firing?, htarget]
    | some doc =>
      have hdoc := huri ▸ (target?_eq_some.1 htarget).1
      simp [firing?, huri, htarget, hdoc, hdue]
  · simp [firing?, huri]

/-- What is published for a document while time passes. -/
theorem told_elapse (h : Ordered s.timers) (ms : Nat) (uri : Uri) :
    (s.elapse site ms).told uri =
      s.told uri ++ (s.firings uri ms).map fun f => f.1.publication site f.2 := by
  obtain ⟨cache, heq⟩ := elapse_frame site s ms
  rw [told, heq, told, List.filter_append, takeWhile_due h, firings, List.filter_filterMap,
    List.map_filterMap]
  congr 1
  refine List.filterMap_congr fun t _ => ?_
  by_cases huri : t.uri = uri
  · cases htarget : s.target? t <;> simp [firing?, huri, htarget, Timer.publication,
      Timer.unnumbered, Document.unnumbered, Option.filter]
  · cases s.target? t <;> simp [firing?, huri, Timer.publication, Option.filter]

theorem cache_fire (site : Site) (s : Server) (timer : Timer) (uri : Uri) :
    (s.fire site timer).workspace.cache.get? uri =
      ((s.firing? uri timer).map fun f => f.1.analyzer.analyze site.host f.2.text).or
        (s.workspace.cache.get? uri) := by
  obtain ⟨doc, hdoc, hseq, heq⟩ | ⟨hgone, heq⟩ := fire_cases site s timer
  · rw [heq, firing?, target?_eq_some.2 ⟨hdoc, hseq⟩]
    refine (Table.get?_insert ..).trans ?_
    by_cases huri : timer.uri = uri
    · simp [huri, Timer.unnumbered, Document.unnumbered]
    · simp [huri, Ne.symm huri]
  · rw [heq, firing?, target?_eq_none hgone]
    simp

/-- The result of a document is that of the last analysis made of it. -/
theorem cache_foldl_fire (site : Site) (s : Server) (due : List Timer) (uri : Uri) :
    (due.foldl (fire site) s).workspace.cache.get? uri =
      ((due.filterMap (s.firing? uri)).getLast?.map fun f =>
        f.1.analyzer.analyze site.host f.2.text).or (s.workspace.cache.get? uri) := by
  induction due using List.reverseRecOn with
  | nil => rfl
  | append_singleton due t ih =>
    obtain ⟨cache, clock, hfold⟩ := foldl_fire_frame site s due
    have htarget : (due.foldl (fire site) s).target? t = s.target? t :=
      target?_congr (by rw [hfold]) t
    have hsame : (due.foldl (fire site) s).firing? uri t = s.firing? uri t := by
      rw [firing?, htarget, firing?]
    rw [List.foldl_concat, cache_fire, hsame, ih, List.filterMap_append]
    cases hfiring : s.firing? uri t <;> simp [hfiring]

theorem cache_elapse (h : Ordered s.timers) (ms : Nat) (uri : Uri) :
    (s.elapse site ms).workspace.cache.get? uri =
      ((s.firings uri ms).getLast?.map fun f => f.1.analyzer.analyze site.host f.2.text).or
        (s.workspace.cache.get? uri) := by
  rw [firings, ← takeWhile_due h]
  exact cache_foldl_fire site _ _ uri

theorem Agree.elapse (h : Agree uri s s') (hs : Ordered s.timers) (hs' : Ordered s'.timers)
    (site : Site) (ms : Nat) : Agree uri (s.elapse site ms) (s'.elapse site ms) := by
  have hfirings : s.firings uri ms = s'.firings uri ms := by
    rw [firings_eq, firings_eq, h.document, h.awaiting, h.clock]
  have hlater : ∀ s : Server, Ordered s.timers →
      ((s.elapse site ms).awaiting uri).map Timer.unnumbered =
        ((s.awaiting uri).map Timer.unnumbered).filter (s.clock + ms < ·.due) := by
    intro s hs
    rw [awaiting_elapse hs, List.filter_map]
    rfl
  obtain ⟨cache, heq⟩ := elapse_frame site s ms
  obtain ⟨cache', heq'⟩ := elapse_frame site s' ms
  refine ⟨?_, ?_, ?_, ?_, ?_⟩
  · rw [heq, heq']
    exact ⟨h.settings, h.analyzer, congrArg (· + ms) h.clock, h.stopped⟩
  · rw [heq, heq']
    exact h.document
  · rw [cache_elapse hs, cache_elapse hs', hfirings, h.result]
  · rw [hlater s hs, hlater s' hs', h.awaiting, h.clock]
  · rw [told_elapse hs, told_elapse hs', hfirings, h.told]

/-! ## Requests to other documents -/

/-- The document that a request speaks of, if it speaks of one. -/
def Request.addressee? : Request → Option Uri
  | .opened uri _ _ => some uri
  | .changed uri _ _ => some uri
  | .closed uri => some uri
  | .settingsChanged _ => none
  | .completion uri _ _ => some uri
  | .symbols uri => some uri
  | .malformed => none
  | .shutdown => none

section
variable {r : Request} {u : Uri}

theorem reloads_of_addressee (s : Server) (hr : r.addressee? = some u) :
    s.reloads (.request r) = false := by
  cases r with
  | settingsChanged reply => cases hr
  | _ => rfl

/-- A request that speaks of one document leaves all that is not of one document. -/
theorem alike_serve (site : Site) (hs : s.stopped = false) (hr : r.addressee? = some u) :
    Alike s (s.serve site r).1 := by
  have hstopped : (s.serve site r).1.stopped = s.stopped := by
    refine stopped_serve site s ?_
    rintro rfl
    cases hr
  obtain ⟨hsettings, hanalyzer, hclock, -⟩ := handle_frame site (s.reloads_of_addressee hr)
  rw [handle_of_not_stopped site hs] at hsettings hanalyzer hclock
  exact ⟨hsettings.symm, hanalyzer.symm, hclock.symm, hstopped.symm⟩

theorem cache_serve_of_ne (site : Site) (s : Server) (hr : r.addressee? = some u) (hu : u ≠ uri) :
    (s.serve site r).1.workspace.cache.get? uri = s.workspace.cache.get? uri := by
  have hdemand : (s.analysisFor site u).1.workspace.cache.get? uri =
      s.workspace.cache.get? uri := by
    obtain heq | ⟨doc, -, -, heq⟩ := analysisFor_cases site s u
    · rw [heq]
    · rw [heq]
      exact Table.get?_insert_of_ne _ hu _
  cases r <;> cases hr
  case opened => exact Table.get?_erase_of_ne _ hu
  case changed version changes =>
    obtain ⟨doc, lastSeq, timers, heq⟩ := changed_frame site s u version changes
    rw [heq]
  case closed => exact Table.get?_erase_of_ne _ hu
  case completion =>
    simp only [serve]
    split
    · rfl
    · exact hdemand
  case symbols => exact hdemand

/-- A request that speaks of another document says nothing about this one. -/
theorem agree_of_away (site : Site) (s : Server) (hr : r.addressee? = some u) (hu : u ≠ uri) :
    Agree uri s (s.handle site r).1 := by
  by_cases hstopped : s.stopped = true
  · rw [handle_of_stopped site hstopped]
    exact .refl uri s
  have hs : s.stopped = false := Bool.eq_false_iff.2 hstopped
  have hconcerns : ¬ r.concerns uri := by
    cases r <;> cases hr <;> first | exact hu | exact id
  obtain ⟨hundisturbed, hdoc⟩ := undisturbed_of_not_concerns site s hconcerns
  rw [handle_of_not_stopped site hs]
  refine ⟨alike_serve site hs hr, ?_, ?_, ?_, ?_⟩
  · rw [hdoc]
  · rw [cache_serve_of_ne site s hr hu]
  · rw [hundisturbed.awaiting]
  · exact hundisturbed.log.symm

end

end Server

end Krl
