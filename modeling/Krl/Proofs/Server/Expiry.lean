import Krl.Proofs.Server.Operations
import Mathlib.Data.List.Basic

/-!
# Timers that come due

Waiting touches no document, so what the timers do that come due while time passes is settled before
the first of them fires: those whose documents still have their numbers have them analysed, in the
order in which they are due, and the others do nothing.

* `elapse_frame`: waiting touches results and publications, clock and timers, and nothing else.
* `awaiting_elapse`, `published_elapse`: of the timers that await a document, those that are due
  publish and the others stay, where timers stand in the order in which they are due.
-/

set_option autoImplicit false

namespace Krl.Server

variable {site : Site} {s s' : Server} {timer t : Timer} {ts : List Timer} {uri : Uri}

/-! ## One timer -/

/-- The document that a timer awaits: the one of its name, if it still has the timer's number. -/
def target? (s : Server) (timer : Timer) : Option Document :=
  (s.workspace.documents.get? timer.uri).filter (·.seq = timer.seq)

/-- What a timer publishes when it fires for a document. -/
def Timer.publication (site : Site) (timer : Timer) (doc : Document) : Publication :=
  ⟨timer.due, timer.uri,
    (timer.analyzer.analyze site.host doc.text).diagnostics.take timer.limit, some doc.version⟩

theorem target?_eq_some {doc : Document} : s.target? timer = some doc ↔
    s.workspace.documents.get? timer.uri = some doc ∧ doc.seq = timer.seq := by
  simp [target?, Option.filter_eq_some_iff]

theorem target?_eq_none (h : ∀ doc, s.workspace.documents.get? timer.uri = some doc →
    doc.seq ≠ timer.seq) : s.target? timer = none := by
  refine Option.eq_none_iff_forall_ne_some.2 fun doc hdoc => ?_
  obtain ⟨hget, hseq⟩ := target?_eq_some.1 hdoc
  exact h doc hget hseq

theorem target?_congr (h : s'.workspace.documents = s.workspace.documents) (timer : Timer) :
    s'.target? timer = s.target? timer := by
  rw [target?, h, target?]

/-- A timer that fires touches no document; it publishes if it finds the document that it awaits. -/
theorem fire_frame (site : Site) (s : Server) (timer : Timer) :
    ∃ cache, s.fire site timer =
      { s with
          workspace := { s.workspace with cache := cache }
          clock := timer.due
          log := s.log ++ ((s.target? timer).map (timer.publication site)).toList } := by
  obtain ⟨doc, hdoc, hseq, heq⟩ | ⟨hgone, heq⟩ := fire_cases site s timer
  · have htarget : s.target? timer = some doc := target?_eq_some.2 ⟨hdoc, hseq⟩
    rw [heq, htarget]
    exact ⟨_, rfl⟩
  · rw [heq, target?_eq_none hgone]
    exact ⟨s.workspace.cache, by simp⟩

/-! ## Waiting -/

theorem foldl_fire_frame (site : Site) (s : Server) (due : List Timer) :
    ∃ cache clock, due.foldl (fire site) s =
      { s with
          workspace := { s.workspace with cache := cache }
          clock := clock
          log := s.log ++ due.filterMap fun t => (s.target? t).map (t.publication site) } := by
  induction due generalizing s with
  | nil => exact ⟨s.workspace.cache, s.clock, by simp⟩
  | cons t due ih =>
    obtain ⟨cache, hfire⟩ := fire_frame site s t
    obtain ⟨cache', clock, hrest⟩ := ih (s.fire site t)
    have hsame : ∀ u, (s.fire site t).target? u = s.target? u :=
      fun u => target?_congr (by rw [hfire]) u
    refine ⟨cache', clock, ?_⟩
    rw [List.foldl_cons, hrest]
    simp only [hsame]
    rw [hfire]
    cases htarget : s.target? t <;> simp [htarget]

theorem elapse_frame (site : Site) (s : Server) (ms : Nat) :
    ∃ cache, s.elapse site ms =
      { s with
          workspace := { s.workspace with cache := cache }
          clock := s.clock + ms
          timers := s.timers.dropWhile (·.due ≤ s.clock + ms)
          log := s.log ++ (s.timers.takeWhile (·.due ≤ s.clock + ms)).filterMap fun t =>
            (s.target? t).map (t.publication site) } := by
  obtain ⟨cache, clock, heq⟩ := foldl_fire_frame site
    { s with timers := s.timers.dropWhile (·.due ≤ s.clock + ms) }
    (s.timers.takeWhile (·.due ≤ s.clock + ms))
  refine ⟨cache, ?_⟩
  rw [elapse, heq]
  rfl

/-! ## The order of timers -/

/-- Timers stand in the order in which they are due. -/
def Ordered (ts : List Timer) : Prop := ts.Pairwise (·.due ≤ ·.due)

theorem ordered_insertTimer (h : Ordered ts) (timer : Timer) : Ordered (insertTimer timer ts) := by
  induction ts with
  | nil => exact List.pairwise_singleton _ _
  | cons t ts ih =>
    obtain ⟨hle, hts⟩ := List.pairwise_cons.1 h
    rw [insertTimer]
    split
    · next hdue =>
      refine List.pairwise_cons.2 ⟨fun u hu => ?_, ih hts⟩
      rcases mem_insertTimer.1 hu with rfl | hu
      · exact hdue
      · exact hle u hu
    · next hdue =>
      refine List.pairwise_cons.2 ⟨fun u hu => ?_, h⟩
      rcases List.mem_cons.1 hu with rfl | hu
      · omega
      · have := hle u hu
        omega

theorem takeWhile_due (h : Ordered ts) (n : Nat) :
    ts.takeWhile (·.due ≤ n) = ts.filter (·.due ≤ n) := by
  induction ts with
  | nil => rfl
  | cons t ts ih =>
    obtain ⟨hle, hts⟩ := List.pairwise_cons.1 h
    by_cases hdue : t.due ≤ n
    · simp [hdue, ih hts]
    · have hrest : ∀ u ∈ ts, ¬ u.due ≤ n := fun u hu => by have := hle u hu; omega
      simpa [hdue] using hrest

theorem dropWhile_due (h : Ordered ts) (n : Nat) :
    ts.dropWhile (·.due ≤ n) = ts.filter (n < ·.due) := by
  induction ts with
  | nil => rfl
  | cons t ts ih =>
    obtain ⟨hle, hts⟩ := List.pairwise_cons.1 h
    by_cases hdue : t.due ≤ n
    · simp [hdue, ih hts]
    · have hrest : ∀ u ∈ ts, n < u.due := fun u hu => by have := hle u hu; omega
      rw [List.dropWhile_cons_of_neg (by simpa using hdue), List.filter_eq_self.2]
      simpa [Nat.lt_of_not_le hdue] using hrest

/-- The timers that are due by a time come before the others. -/
theorem filter_due_append (h : Ordered ts) (n : Nat) :
    ts.filter (·.due ≤ n) ++ ts.filter (n < ·.due) = ts := by
  rw [← takeWhile_due h, ← dropWhile_due h, List.takeWhile_append_dropWhile]

/-- A timer that does not count leaves those that count as they are. -/
theorem filter_insertTimer_of_neg {p : Timer → Bool} (h : p timer = false) :
    (insertTimer timer ts).filter p = ts.filter p := by
  induction ts with
  | nil => simp [insertTimer, h]
  | cons t ts ih =>
    rw [insertTimer]
    split
    · simp [List.filter_cons, ih]
    · simp [h]

/-- Where no other timer counts, the place of one that does makes no difference. -/
theorem filter_insertTimer_of_pos {p : Timer → Bool} (h : p timer = true)
    (hts : ∀ t ∈ ts, p t = false) : (insertTimer timer ts).filter p = [timer] := by
  induction ts with
  | nil => simp [insertTimer, h]
  | cons t ts ih =>
    obtain ⟨ht, hrest⟩ := List.forall_mem_cons.1 hts
    rw [insertTimer]
    split
    · rw [List.filter_cons_of_neg (by simp [ht]), ih hrest]
    · rw [List.filter_cons_of_pos h, List.filter_eq_nil_iff.2 (by simpa using hts)]

/-! ## Timers that await a document -/

/-- The timers that await a document, in the order in which they are due. -/
def awaiting (s : Server) (uri : Uri) : List Timer :=
  s.timers.filter fun t => t.uri = uri && (s.target? t).isSome

/-- What has been published for a document while it was open. -/
def published (s : Server) (uri : Uri) : List Publication :=
  s.log.filter fun p => p.uri = uri && p.version.isSome

/-- What has been published for a document when it was closed. -/
def cleared (s : Server) (uri : Uri) : List Publication :=
  s.log.filter fun p => p.uri = uri && p.version.isNone

theorem mem_awaiting : t ∈ s.awaiting uri ↔
    t ∈ s.timers ∧ t.uri = uri ∧ ∃ doc, s.target? t = some doc := by
  simp [awaiting, Option.isSome_iff_exists]

theorem ordered_awaiting (h : Ordered s.timers) (uri : Uri) : Ordered (s.awaiting uri) :=
  h.filter _

/-- Of the timers that await a document, those stay that are not yet due. -/
theorem awaiting_elapse (h : Ordered s.timers) (ms : Nat) (uri : Uri) :
    (s.elapse site ms).awaiting uri = (s.awaiting uri).filter (s.clock + ms < ·.due) := by
  obtain ⟨cache, heq⟩ := elapse_frame site s ms
  have hsame : ∀ t, (s.elapse site ms).target? t = s.target? t :=
    fun t => target?_congr (by rw [heq]) t
  simp only [awaiting, hsame]
  rw [heq, dropWhile_due h, List.filter_filter, List.filter_filter]
  exact List.filter_congr fun t _ => Bool.and_comm ..

/-- Of the timers that await a document, those that are due publish. -/
theorem published_elapse (h : Ordered s.timers) (ms : Nat) (uri : Uri) :
    (s.elapse site ms).published uri = s.published uri ++
      ((s.awaiting uri).filter (·.due ≤ s.clock + ms)).filterMap fun t =>
        (s.target? t).map (t.publication site) := by
  obtain ⟨cache, heq⟩ := elapse_frame site s ms
  rw [published, heq, published, List.filter_append, takeWhile_due h, awaiting]
  simp only [List.filter_filterMap, List.filterMap_filter]
  congr 1
  refine List.filterMap_congr fun t _ => ?_
  cases htarget : s.target? t <;> by_cases huri : t.uri = uri <;>
    by_cases hdue : t.due ≤ s.clock + ms <;> simp [Timer.publication, huri, hdue]

theorem cleared_elapse (ms : Nat) (uri : Uri) :
    (s.elapse site ms).cleared uri = s.cleared uri := by
  obtain ⟨cache, heq⟩ := elapse_frame site s ms
  rw [cleared, heq, cleared, List.filter_append, List.filter_filterMap]
  refine List.append_right_eq_self.2 (List.filterMap_eq_nil_iff.2 fun t _ => ?_)
  cases s.target? t <;> simp [Timer.publication]

end Krl.Server
