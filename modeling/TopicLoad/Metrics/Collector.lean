import TopicLoad.Keyed
import TopicLoad.Log.Basic
import TopicLoad.Metrics.Summary

/-! Events of scenario runs and what is kept of them. -/
namespace TopicLoad

inductive Event where
  /-- One for every run. -/
  | started
  | counter (name : String) (value : Nat)
  | histogram (name : String) (sample : Sample)
deriving DecidableEq, Repr

/-- Everything recorded so far. What is counted has 64 bits. -/
structure Metrics where
  started : Nat := 0
  counters : Keyed Nat := []
  histograms : Keyed (List Sample) := []
deriving DecidableEq, Repr

namespace Metrics

def counterLimit : Nat := Limits.bits64

def counter (m : Metrics) (name : String) : Nat := (m.counters.get? name).getD 0

def samples (m : Metrics) (name : String) : List Sample := (m.histograms.get? name).getD []

def summary (m : Metrics) (name : String) : Option Summary := Summary.ofSamples (m.samples name)

def record (m : Metrics) : Event → Metrics
  | .started => { m with started := (m.started + 1) % counterLimit }
  | .counter name n =>
    { m with counters := m.counters.insert name ((m.counter name + n) % counterLimit) }
  | .histogram name s =>
    { m with histograms := m.histograms.insert name (m.samples name ++ [s]) }

theorem started_record (m : Metrics) (e : Event) :
    (m.record e).started = if e = .started then (m.started + 1) % counterLimit else m.started := by
  cases e <;> simp [record]

theorem counter_record (m : Metrics) (e : Event) (name : String) : (m.record e).counter name =
    match e with
    | .counter k n => if k = name then (m.counter name + n) % counterLimit else m.counter name
    | _ => m.counter name := by
  cases e with
  | counter k n =>
    simp only [record, counter, Keyed.get?_insert]
    by_cases hk : k = name
    · simp [hk]
    · simp [hk]
  | _ => rfl

theorem samples_record (m : Metrics) (e : Event) (name : String) : (m.record e).samples name =
    match e with
    | .histogram k s => if k = name then m.samples name ++ [s] else m.samples name
    | _ => m.samples name := by
  cases e with
  | histogram k s =>
    simp only [record, samples, Keyed.get?_insert]
    by_cases hk : k = name
    · simp [hk]
    · simp [hk]
  | _ => rfl

def recordAll (m : Metrics) (events : List Event) : Metrics := events.foldl record m

def summaryLine (name : String) (s : Summary) : String :=
  let places (x : Sample) := Double.onePlaceText x.toFloat
  s!"📊 {name}: count={s.count} min={places s.min} max={places s.max} mean={places s.mean} " ++
    s!"p50={places s.p50} p95={places s.p95} p99={places s.p99}"

/-- The counters in order of their names, then the histograms in order of theirs. -/
def report (m : Metrics) : List Log.Line :=
  Log.info s!"📊 Scenarios started: {m.started}" ::
    m.counters.map (fun c => Log.info s!"📊 {c.1}: {c.2}") ++
    m.histograms.filterMap fun h =>
      (Summary.ofSamples h.2).map fun s => Log.info (summaryLine h.1 s)

end Metrics
end TopicLoad
