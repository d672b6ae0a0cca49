import Mathlib.Algebra.BigOperators.Group.List.Basic
import TopicLoad.Metrics.Collector
import TopicLoad.Proofs.Percentiles

/-! What a collector reports depends on which events were emitted, and neither on their order nor on which
of its clones they were emitted through. -/
namespace TopicLoad

theorem Summary.ofSamples_congr {samples samples' : List Sample} (h : sorted samples = sorted samples') :
    ofSamples samples = ofSamples samples' := by
  simp only [ofSamples, h]

namespace Event

def counted? : Event → Option String
  | counter name _ => some name
  | _ => none

def added (name : String) : Event → Nat
  | counter k n => if k = name then n else 0
  | _ => 0

def measured? : Event → Option String
  | histogram name _ => some name
  | _ => none

def sample? (name : String) : Event → Option Sample
  | histogram k s => if k = name then some s else none
  | _ => none

theorem counted?_eq_some_iff {name : String} {e : Event} :
    e.counted? = some name ↔ ∃ n, e = counter name n := by
  cases e with
  | counter k n => simp [counted?]
  | _ => simp [counted?]

theorem measured?_eq_some_iff {name : String} {e : Event} :
    e.measured? = some name ↔ ∃ s, e = histogram name s := by
  cases e with
  | histogram k s => simp [measured?]
  | _ => simp [measured?]

theorem added_of_counted?_ne {name : String} {e : Event} (h : e.counted? ≠ some name) :
    e.added name = 0 := by
  cases e with
  | counter k n => exact if_neg fun hk => h (congrArg some hk)
  | _ => rfl

theorem sample?_of_measured?_ne {name : String} {e : Event} (h : e.measured? ≠ some name) :
    e.sample? name = none := by
  cases e with
  | histogram k s => exact if_neg fun hk => h (congrArg some hk)
  | _ => rfl

end Event
namespace Metrics

variable {m m' : Metrics} {events events' : List Event} {name : String}

/-! ## Events in any order -/

/-- The sum of the increments of a counter. -/
def total (name : String) (events : List Event) : Nat := (events.map (Event.added name)).sum

/-- The samples for a histogram. -/
def taken (name : String) (events : List Event) : List Sample := events.filterMap (Event.sample? name)

/-- The names of the counters that there are events for. -/
def counted (events : List Event) : List String := events.filterMap Event.counted?

/-- The names of the histograms that there are events for. -/
def measured (events : List Event) : List String := events.filterMap Event.measured?

theorem total_concat (e : Event) : total name (events ++ [e]) = total name events + e.added name := by
  simp [total]

theorem taken_concat (e : Event) :
    taken name (events ++ [e]) = taken name events ++ (e.sample? name).toList := by
  simp only [taken, List.filterMap_append]
  cases h : e.sample? name with
  | none => simp [h]
  | some s => simp [h]

theorem mem_counted_concat (e : Event) :
    name ∈ counted (events ++ [e]) ↔ name ∈ counted events ∨ e.counted? = some name := by
  simp [counted]

theorem mem_measured_concat (e : Event) :
    name ∈ measured (events ++ [e]) ↔ name ∈ measured events ∨ e.measured? = some name := by
  simp [measured]

theorem total_perm (h : events.Perm events') : total name events = total name events' :=
  (h.map _).sum_eq

theorem taken_perm (h : events.Perm events') : (taken name events).Perm (taken name events') :=
  h.filterMap _

theorem mem_counted_perm (h : events.Perm events') : name ∈ counted events ↔ name ∈ counted events' :=
  (h.filterMap _).mem_iff

theorem mem_measured_perm (h : events.Perm events') : name ∈ measured events ↔ name ∈ measured events' :=
  (h.filterMap _).mem_iff

theorem total_of_not_mem (h : name ∉ counted events) : total name events = 0 := by
  refine List.sum_eq_zero fun n hn => ?_
  obtain ⟨e, he, rfl⟩ := List.mem_map.mp hn
  exact Event.added_of_counted?_ne fun hname => h (List.mem_filterMap.mpr ⟨e, he, hname⟩)

theorem taken_ne_nil_iff : taken name events ≠ [] ↔ name ∈ measured events := by
  constructor
  · intro hne
    by_contra hname
    refine hne (List.filterMap_eq_nil_iff.mpr fun e he => Event.sample?_of_measured?_ne fun h => ?_)
    exact hname (List.mem_filterMap.mpr ⟨e, he, h⟩)
  · intro hname hnil
    obtain ⟨e, he, h⟩ := List.mem_filterMap.mp hname
    obtain ⟨s, rfl⟩ := Event.measured?_eq_some_iff.mp h
    have hnone := List.filterMap_eq_nil_iff.mp hnil _ he
    simp [Event.sample?] at hnone

/-! ## What is recorded -/

/-- A collector that has recorded certain events since it was new. -/
structure Holds (m : Metrics) (events : List Event) : Prop where
  started : m.started = events.count .started % counterLimit
  counters_ordered : m.counters.Ordered
  counter : ∀ name, m.counters.get? name =
    if name ∈ counted events then some (total name events % counterLimit) else none
  histograms_ordered : m.histograms.Ordered
  histogram : ∀ name, m.histograms.get? name =
    if name ∈ measured events then some (taken name events) else none

namespace Holds

theorem empty : Holds {} [] :=
  ⟨rfl, Keyed.ordered_nil, fun _ => rfl, Keyed.ordered_nil, fun _ => rfl⟩

theorem counter_eq (h : m.Holds events) (name : String) :
    m.counter name = total name events % counterLimit := by
  rw [Metrics.counter, h.counter]
  by_cases hname : name ∈ counted events
  · simp [hname]
  · simp [hname, total_of_not_mem hname]

theorem samples_eq (h : m.Holds events) (name : String) : m.samples name = taken name events := by
  rw [Metrics.samples, h.histogram]
  by_cases hname : name ∈ measured events
  · simp [hname]
  · have hnil : taken name events = [] := by
      by_contra hne
      exact hname (taken_ne_nil_iff.mp hne)
    simp [hname, hnil]

theorem record (h : m.Holds events) (e : Event) : (m.record e).Holds (events ++ [e]) where
  started := by
    have hold := h.started
    rw [started_record, List.count_append]
    by_cases he : e = .started
    · simp [he, hold]
    · simp [he, hold]
  counters_ordered := by
    cases e with
    | counter k n => exact Keyed.ordered_insert _ _ h.counters_ordered
    | _ => exact h.counters_ordered
  counter name := by
    simp only [mem_counted_concat, total_concat]
    by_cases he : e.counted? = some name
    · obtain ⟨n, rfl⟩ := Event.counted?_eq_some_iff.mp he
      simp [Metrics.record, Keyed.get?_insert, h.counter_eq, Event.counted?, Event.added]
    · have hkept : (m.record e).counters.get? name = m.counters.get? name := by
        cases e with
        | counter k n =>
          have hk : k ≠ name := fun hk => he (congrArg some hk)
          simp [Metrics.record, Keyed.get?_insert, hk]
        | _ => rfl
      simp [hkept, h.counter, he, Event.added_of_counted?_ne he]
  histograms_ordered := by
    cases e with
    | histogram k s => exact Keyed.ordered_insert _ _ h.histograms_ordered
    | _ => exact h.histograms_ordered
  histogram name := by
    simp only [mem_measured_concat, taken_concat]
    by_cases he : e.measured? = some name
    · obtain ⟨s, rfl⟩ := Event.measured?_eq_some_iff.mp he
      simp [Metrics.record, Keyed.get?_insert, h.samples_eq, Event.measured?, Event.sample?]
    · have hkept : (m.record e).histograms.get? name = m.histograms.get? name := by
        cases e with
        | histogram k s =>
          have hk : k ≠ name := fun hk => he (congrArg some hk)
          simp [Metrics.record, Keyed.get?_insert, hk]
        | _ => rfl
      simp [hkept, h.histogram, he, Event.sample?_of_measured?_ne he]

theorem recordAll (h : m.Holds events) (es : List Event) : (m.recordAll es).Holds (events ++ es) := by
  induction es generalizing m events with
  | nil => simpa [Metrics.recordAll] using h
  | cons e es ih => simpa [Metrics.recordAll] using ih (h.record e)

theorem counters_fst_mem_iff (h : m.Holds events) : name ∈ m.counters.map Prod.fst ↔ name ∈ counted events := by
  rw [Keyed.mem_map_fst_iff, h.counter]
  by_cases hname : name ∈ counted events
  · simp [hname]
  · simp [hname]

theorem histograms_fst_mem_iff (h : m.Holds events) :
    name ∈ m.histograms.map Prod.fst ↔ name ∈ measured events := by
  rw [Keyed.mem_map_fst_iff, h.histogram]
  by_cases hname : name ∈ measured events
  · simp [hname]
  · simp [hname]

theorem report_eq (h : m.Holds events) : m.report =
    Log.info s!"📊 Scenarios started: {m.started}" ::
      (m.counters.map Prod.fst).map (fun k => Log.info s!"📊 {k}: {m.counter k}") ++
      (m.histograms.map Prod.fst).filterMap fun k =>
        (m.summary k).map fun s => Log.info (summaryLine k s) := by
  have hcounters : ∀ c ∈ m.counters, m.counter c.1 = c.2 := by
    intro c hc
    have hget := (Keyed.get?_eq_some_iff h.counters_ordered).mpr hc
    simp [Metrics.counter, hget]
  have hhistograms : ∀ d ∈ m.histograms, m.samples d.1 = d.2 := by
    intro d hd
    have hget := (Keyed.get?_eq_some_iff h.histograms_ordered).mpr hd
    simp [Metrics.samples, hget]
  rw [report, List.map_map, List.filterMap_map]
  congr 1
  · congr 1
    refine List.map_congr_left fun c hc => ?_
    simp [hcounters c hc]
  · refine List.filterMap_congr fun d hd => ?_
    simp [summary, hhistograms d hd]

theorem same_report (h : m.Holds events) (h' : m'.Holds events') (hperm : events.Perm events') :
    m'.started = m.started ∧ (∀ name, m'.counter name = m.counter name) ∧
      (∀ name, m'.summary name = m.summary name) ∧ m'.report = m.report := by
  have hstarted : m'.started = m.started := by
    rw [h.started, h'.started, hperm.count_eq]
  have hcounter (name : String) : m'.counter name = m.counter name := by
    rw [h.counter_eq, h'.counter_eq, total_perm hperm]
  have hsummary (name : String) : m'.summary name = m.summary name := by
    rw [summary, summary, h.samples_eq, h'.samples_eq]
    exact Summary.ofSamples_congr (Summary.sorted_eq_of_perm (taken_perm hperm.symm))
  have hcounters : m'.counters.map Prod.fst = m.counters.map Prod.fst := by
    refine List.Pairwise.eq_of_mem_iff (List.pairwise_map.mpr h'.counters_ordered)
      (List.pairwise_map.mpr h.counters_ordered) fun name => ?_
    rw [h.counters_fst_mem_iff, h'.counters_fst_mem_iff, mem_counted_perm hperm]
  have hhistograms : m'.histograms.map Prod.fst = m.histograms.map Prod.fst := by
    refine List.Pairwise.eq_of_mem_iff (List.pairwise_map.mpr h'.histograms_ordered)
      (List.pairwise_map.mpr h.histograms_ordered) fun name => ?_
    rw [h.histograms_fst_mem_iff, h'.histograms_fst_mem_iff, mem_measured_perm hperm]
  refine ⟨hstarted, hcounter, hsummary, ?_⟩
  simp only [h.report_eq, h'.report_eq, hstarted, hcounter, hsummary, hcounters, hhistograms]

end Holds
end Metrics

/-! ## Clones -/

/-- Collectors in use: the records there are, and for each collector the record it has. A clone has the
record of the collector it was made of. -/
structure Collectors where
  records : List Metrics
  clones : List Nat

namespace Collectors

/-- What is done with collectors, which are told apart by the order in which they were made. -/
inductive Use where
  | clone (i : Nat)
  | emit (i : Nat) (e : Event)

def Use.event? : Use → Option Event
  | clone _ => none
  | emit _ e => some e

def emitted (uses : List Use) : List Event := uses.filterMap Use.event?

def fresh : Collectors := ⟨[{}], [0]⟩

def use (c : Collectors) : Use → Option Collectors
  | .clone i => c.clones[i]?.map fun r => { c with clones := c.clones ++ [r] }
  | .emit i e => c.clones[i]?.map fun r => { c with records := c.records.modify r (·.record e) }

def useAll (c : Collectors) (uses : List Use) : Option Collectors := uses.foldlM use c

def read (c : Collectors) (i : Nat) : Option Metrics := c.clones[i]?.bind fun r => c.records[r]?

structure Shared (c : Collectors) (m : Metrics) : Prop where
  records : c.records = [m]
  nonempty : c.clones ≠ []
  clones : ∀ r ∈ c.clones, r = 0

namespace Shared

variable {c c' : Collectors} {m : Metrics}

theorem fresh : Shared fresh {} :=
  ⟨rfl, by decide, by decide⟩

theorem read (h : c.Shared m) {i : Nat} (hi : i < c.clones.length) : c.read i = some m := by
  have hzero := h.clones _ (List.getElem_mem hi)
  simp [Collectors.read, hi, hzero, h.records]

theorem use (h : c.Shared m) {u : Use} (hu : c.use u = some c') :
    c'.Shared (m.recordAll u.event?.toList) := by
  cases u with
  | clone i =>
    obtain ⟨r, hr, rfl⟩ := Option.map_eq_some_iff.mp hu
    have hzero := h.clones r (List.mem_of_getElem? hr)
    refine ⟨h.records, by simp, fun r' hr' => ?_⟩
    rcases List.mem_append.mp hr' with hr' | hr'
    · exact h.clones r' hr'
    · exact (List.mem_singleton.mp hr').trans hzero
  | emit i e =>
    obtain ⟨r, hr, rfl⟩ := Option.map_eq_some_iff.mp hu
    have hzero := h.clones r (List.mem_of_getElem? hr)
    refine ⟨?_, h.nonempty, h.clones⟩
    simp [h.records, hzero, Use.event?, Metrics.recordAll]

theorem useAll (h : c.Shared m) {uses : List Use} (hu : c.useAll uses = some c') :
    c'.Shared (m.recordAll (emitted uses)) := by
  induction uses generalizing c m with
  | nil =>
    obtain rfl : c = c' := Option.some.inj hu
    exact h
  | cons u uses ih =>
    obtain ⟨c₁, hc₁, hrest⟩ := Option.bind_eq_some_iff.mp hu
    have hshared := ih (h.use hc₁) hrest
    cases u with
    | clone i => exact hshared
    | emit i e => exact hshared

end Shared

open Metrics in
/-- Whatever the order of the events and whichever clones they are emitted through, all clones of a
collector count the same starts, have the sum of its increments for every counter and the same summary for
every histogram, and report in the same lines: one for each counter and then one for each histogram there
is, both in order of their names. -/
theorem reports_same_in_any_order {uses uses' : List Use} {c c' : Collectors}
    (h : fresh.useAll uses = some c) (h' : fresh.useAll uses' = some c')
    (hperm : (emitted uses).Perm (emitted uses'))
    (hfits : ∀ name, total name (emitted uses) < counterLimit) :
    ∃ m m', c.clones ≠ [] ∧ (∀ i < c.clones.length, c.read i = some m) ∧
      c'.clones ≠ [] ∧ (∀ i < c'.clones.length, c'.read i = some m') ∧
      (m.started = (emitted uses).count .started % counterLimit ∧
        (∀ name, m.counter name = total name (emitted uses)) ∧
        ∀ name ∉ counted (emitted uses), m.counter name = 0) ∧
      (m'.started = m.started ∧ (∀ name, m'.counter name = m.counter name) ∧
        (∀ name, m'.summary name = m.summary name) ∧ m'.report = m.report) ∧
      ∃ counters histograms : List String,
        counters.Pairwise (· < ·) ∧ (∀ name, name ∈ counters ↔ name ∈ counted (emitted uses)) ∧
        histograms.Pairwise (· < ·) ∧ (∀ name, name ∈ histograms ↔ name ∈ measured (emitted uses)) ∧
        (∀ name ∈ histograms, (m.summary name).isSome = true) ∧
        m.report = Log.info s!"📊 Scenarios started: {m.started}" ::
          counters.map (fun name => Log.info s!"📊 {name}: {m.counter name}") ++
          histograms.filterMap fun name => (m.summary name).map fun s => Log.info (summaryLine name s) := by
  have hshared := Shared.fresh.useAll h
  have hshared' := Shared.fresh.useAll h'
  have hholds : (recordAll {} (emitted uses)).Holds (emitted uses) := Holds.empty.recordAll _
  have hholds' : (recordAll {} (emitted uses')).Holds (emitted uses') := Holds.empty.recordAll _
  generalize recordAll {} (emitted uses) = m at hshared hholds
  generalize recordAll {} (emitted uses') = m' at hshared' hholds'
  have hcounter (name : String) : m.counter name = total name (emitted uses) := by
    rw [hholds.counter_eq, Nat.mod_eq_of_lt (hfits name)]
  have hunused (name : String) (hname : name ∉ counted (emitted uses)) : m.counter name = 0 := by
    rw [hcounter, total_of_not_mem hname]
  have hsummary (name : String) (hname : name ∈ m.histograms.map Prod.fst) :
      (m.summary name).isSome = true := by
    have hne := taken_ne_nil_iff.mpr (hholds.histograms_fst_mem_iff.mp hname)
    obtain ⟨s, hs, -⟩ := Summary.ofSamples_eq_some hne
    simp [summary, hholds.samples_eq, hs]
  refine ⟨m, m', hshared.nonempty, fun i => hshared.read, hshared'.nonempty, fun i => hshared'.read,
    ⟨hholds.started, hcounter, hunused⟩, hholds.same_report hholds' hperm, ?_⟩
  exact ⟨m.counters.map Prod.fst, m.histograms.map Prod.fst, List.pairwise_map.mpr hholds.counters_ordered,
    fun _ => hholds.counters_fst_mem_iff, List.pairwise_map.mpr hholds.histograms_ordered,
    fun _ => hholds.histograms_fst_mem_iff, hsummary, hholds.report_eq⟩

def emissions : List Use :=
  [.clone 0, .emit 0 (.counter "sent" 2), .emit 1 (.histogram "latency" ⟨0⟩), .emit 1 .started,
    .emit 1 (.counter "sent" 3), .emit 0 (.histogram "latency" ⟨0x8000000000000000⟩)]

def emissionsReordered : List Use :=
  [.emit 0 (.histogram "latency" ⟨0x8000000000000000⟩), .emit 0 (.counter "sent" 3),
    .emit 0 .started, .emit 0 (.histogram "latency" ⟨0⟩), .emit 0 (.counter "sent" 2)]

theorem reports_same_for_reordered : ∃ c c' m m', fresh.useAll emissions = some c ∧
    fresh.useAll emissionsReordered = some c' ∧ c.read 1 = some m ∧ c'.read 0 = some m' ∧
    m.counter "sent" = 5 ∧ m'.counter "sent" = 5 ∧ m'.summary "latency" = m.summary "latency" ∧
    m'.report = m.report := by
  have hperm : (emitted emissions).Perm (emitted emissionsReordered) := by decide
  have hfits (name : String) : Metrics.total name (emitted emissions) < Metrics.counterLimit := by
    by_cases hname : name = "sent"
    · subst hname
      decide
    · have hcounted : Metrics.counted (emitted emissions) = ["sent", "sent"] := rfl
      rw [Metrics.total_of_not_mem (by simp [hcounted, hname])]
      decide
  obtain ⟨m, m', -, hread, -, hread', ⟨-, hcounter, -⟩, ⟨-, hother, hsummary, hreport⟩, -⟩ :=
    reports_same_in_any_order rfl rfl hperm hfits
  have hfive : m.counter "sent" = 5 := (hcounter "sent").trans (by decide)
  exact ⟨_, _, m, m', rfl, rfl, hread 1 (by decide), hread' 0 (by decide), hfive,
    (hother "sent").trans hfive, hsummary "latency", hreport⟩

end Collectors
end TopicLoad
