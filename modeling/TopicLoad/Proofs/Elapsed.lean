import TopicLoad.Proofs.Course
import TopicLoad.Proofs.Overlap
import TopicLoad.Proofs.Unrolling

/-! How long a run lasts that is alone on the clock. It is made of the leaves of its flow, one begun when
the one before it has ended; a pause takes as long as it is, a message step as long as its longest call,
and nothing else takes any time. -/
namespace TopicLoad
namespace Engine

/-- A leaf of a flow that was executed: the moment and the context it began with, what it showed, and the
moment and the context it ended with, and its failure, if it had one. -/
structure Stint where
  leaf : Step
  begun : Moment
  before : Context
  shown : History
  ended : Moment
  after : Context
  failure : Option Fault

def World.Instant (w : World) : Prop := ∀ n name c ds, w.function n name c = some ds →
  ∀ d, Deed.pause d ∈ ds → d.ceilMilliseconds = 0

/-- Functions leave alone what latencies are measured from. -/
def World.KeepsStart (w : World) : Prop := ∀ n name c ds, w.function n name c = some ds →
  ∀ d, Deed.become d ∈ ds → d.start = c.start

namespace Stint

def calls (w : World) (x : Stint) : List Call :=
  w.calls x.begun.tally.calls 0 (x.shown.filterMap Happening.call?).length

def length (w : World) (x : Stint) : Nat :=
  match x.leaf with
  | .think d => d.ceilMilliseconds
  | .message _ => Call.longest (x.calls w)
  | _ => 0

def events (x : Stint) : List Event := x.shown.filterMap Happening.event?

/-- A leaf that was executed on the clock. -/
structure Timed (w : World) (settings : Settings) (defaults : ThinkDefaults) (x : Stint) : Prop where
  ends : Run.Ends settings (Run.ofTask (Task.ofStep defaults x.leaf) x.before) x.shown x.after x.failure
  lived : w.Lived x.begun x.shown x.ended
  landed : x.ended.flights = []
  lasts : x.ended.now = x.begun.now + x.length w
  overlaps : ∀ spec, x.leaf = .message spec → ∃ order, Run.Overlaps w settings spec x.before x.begun
    x.shown x.ended x.failure (x.calls w) order
  uncalled : (∀ spec, x.leaf ≠ .message spec) → x.calls w = []
  start : w.KeepsStart → x.after.start = x.before.start

end Stint

/-- Executed leaves in a row, up to the first that fails. Each begins at the moment at which the one before
it ended and with its context, but for the loop variable. -/
inductive Stints (w : World) (settings : Settings) (defaults : ThinkDefaults) :
    Moment → Context → List Stint → Moment → Except Fault Context → Prop where
  | nil (k : Moment) (c : Context) : Stints w settings defaults k c [] k (.ok c)
  | rebound {k k' : Moment} {c : Context} {xs : List Stint} {o : Except Fault Context} (v : Option Json)
    (h : Stints w settings defaults k (c.setVar loopVar v) xs k' o) :
    Stints w settings defaults k c xs k' o
  | went {x : Stint} {xs : List Stint} {k' : Moment} {o : Except Fault Context}
    (hx : x.Timed w settings defaults) (hok : x.failure = none)
    (h : Stints w settings defaults x.ended x.after xs k' o) :
    Stints w settings defaults x.begun x.before (x :: xs) k' o
  | failed {x : Stint} {f : Fault} (hx : x.Timed w settings defaults) (hf : x.failure = some f) :
    Stints w settings defaults x.begun x.before [x] x.ended (.error f)

namespace Stints

variable {w : World} {settings : Settings} {defaults : ThinkDefaults} {k k' m : Moment} {c d : Context}
  {xs ys : List Stint} {o : Except Fault Context}

theorem append (h : Stints w settings defaults k c xs m (.ok d))
    (h' : Stints w settings defaults m d ys k' o) : Stints w settings defaults k c (xs ++ ys) k' o := by
  generalize ho : Except.ok d = o' at h
  induction h with
  | nil k c =>
    cases ho
    exact h'
  | rebound v _ ih => exact .rebound v (ih h' ho)
  | went hx hok _ ih => exact .went hx hok (ih h' ho)
  | failed => cases ho

theorem timed (h : Stints w settings defaults k c xs k' o) : ∀ x ∈ xs, x.Timed w settings defaults := by
  induction h with
  | nil => simp
  | rebound _ _ ih => exact ih
  | went hx _ _ ih => exact List.forall_mem_cons.mpr ⟨hx, ih⟩
  | failed hx => exact List.forall_mem_singleton.mpr hx

theorem now (h : Stints w settings defaults k c xs k' o) :
    k'.now = k.now + (xs.map (Stint.length w)).sum := by
  induction h with
  | nil => rfl
  | rebound _ _ ih => exact ih
  | went hx _ _ ih => rw [ih, hx.lasts, List.map_cons, List.sum_cons, Nat.add_assoc]
  | failed hx => rw [hx.lasts, List.map_singleton, List.sum_singleton]

theorem begun (h : Stints w settings defaults k c xs k' o) {x : Stint} {front back : List Stint}
    (hxs : xs = front ++ x :: back) :
    x.begun.now = k.now + (front.map (Stint.length w)).sum ∧
      x.begun.tally.calls = k.tally.calls + (front.map fun y => (y.calls w).length).sum := by
  induction h generalizing front with
  | nil => simp at hxs
  | rebound _ _ ih => exact ih hxs
  | @went y xs k' o hy hok h ih =>
    cases front with
    | nil =>
      obtain ⟨rfl, rfl⟩ := List.cons.inj hxs
      exact ⟨rfl, rfl⟩
    | cons z front =>
      obtain ⟨rfl, rfl⟩ := List.cons.inj hxs
      obtain ⟨hnow, hcalls⟩ := ih rfl
      rw [hnow, hcalls, hy.lasts, hy.lived.tally.2]
      simp only [List.map_cons, List.sum_cons, Stint.calls, World.length_calls]
      exact ⟨Nat.add_assoc .., Nat.add_assoc ..⟩
  | failed =>
    cases front with
    | nil =>
      obtain ⟨rfl, rfl⟩ := List.cons.inj hxs
      exact ⟨rfl, rfl⟩
    | cons z front => simp at hxs

theorem events (h : Stints w settings defaults k c xs k' o) :
    k'.tally.events = k.tally.events ++ xs.flatMap Stint.events := by
  induction h with
  | nil => simp
  | rebound _ _ ih => exact ih
  | went hx _ _ ih => rw [ih, hx.lived.tally.1, List.flatMap_cons, List.append_assoc]; rfl
  | failed hx => rw [hx.lived.tally.1]; simp [Stint.events]

theorem failure {f : Fault} (h : Stints w settings defaults k c xs k' (.error f)) :
    ∃ front last, xs = front ++ [last] ∧ last.failure = some f ∧ ∀ x ∈ front, x.failure = none := by
  generalize ho : Except.error f = o at h
  induction h with
  | nil => cases ho
  | rebound _ _ ih => exact ih ho
  | @went x xs k' o hx hok _ ih =>
    obtain ⟨front, last, rfl, hlast, hfront⟩ := ih ho
    exact ⟨x :: front, last, rfl, hlast, List.forall_mem_cons.mpr ⟨hok, hfront⟩⟩
  | @failed x f hx hf =>
    cases ho
    exact ⟨[], x, rfl, hf, by simp⟩

theorem start (h : Stints w settings defaults k c xs k' o) (hw : w.KeepsStart) :
    ∀ x ∈ xs, x.before.start = c.start := by
  induction h with
  | nil => simp
  | rebound v _ ih => exact ih
  | went hx _ _ ih =>
    refine List.forall_mem_cons.mpr ⟨rfl, fun y hy => ?_⟩
    rw [ih y hy, hx.start hw]
  | failed => simp

end Stints
namespace Run

variable {w : World} {settings : Settings} {defaults : ThinkDefaults} {k k' m : Moment} {c d : Context}
  {hs : History} {e : Option Fault} {fs gs : List Frame} {leaves leaves' : List Step}

def outcome (d : Context) : Option Fault → Except Fault Context
  | none => .ok d
  | some f => .error f

/-- Work that comes to its end on the clock, as leaves that are executed in a row: these, or the first of
them up to one that fails. -/
def Performs (w : World) (settings : Settings) (defaults : ThinkDefaults) (fs : List Frame)
    (leaves : List Step) : Prop :=
  ∀ k c, k.flights = [] → ∃ hs d e k' xs, Ends settings ⟨fs, c, none⟩ hs d e ∧ w.Lived k hs k' ∧
    k'.flights = [] ∧ Stints w settings defaults k c xs k' (outcome d e) ∧
    xs.map Stint.leaf <+: leaves ∧ (e = none → xs.map Stint.leaf = leaves)

theorem performs_nil : Performs w settings defaults [] [] := fun k c hk =>
  ⟨[], c, none, k, [], ends_done, rfl, hk, .nil k c, List.prefix_rfl, fun _ => rfl⟩

theorem Performs.append (hfs : Performs w settings defaults fs leaves)
    (hgs : Performs w settings defaults gs leaves') (hgone : gs.filter Frame.survives = []) :
    Performs w settings defaults (fs ++ gs) (leaves ++ leaves') := by
  intro k c hk
  obtain ⟨hs, d, e, k', xs, hends, hlived, hk', hstints, hfront, hall⟩ := hfs k c hk
  have hatop : (⟨fs ++ gs, c, none⟩ : Run) = atop gs ⟨fs, c, none⟩ := rfl
  cases e with
  | some f =>
    have hgone' : Ends settings (atop gs ⟨[], d, some f⟩) [] d (some f) := by
      rw [atop_of_some, hgone]
      exact ends_done
    refine ⟨hs, d, some f, k', xs, ?_, hlived, hk', hstints, hfront.trans (List.prefix_append _ _),
      fun h => nomatch h⟩
    exact hatop ▸ (ends_atop_iff gs).mpr ⟨hs, d, some f, [], hends, hgone', (List.append_nil hs).symm⟩
  | none =>
    obtain ⟨hs', d', e', k'', ys, hends', hlived', hk'', hstints', hfront', hall'⟩ := hgs k' d hk'
    refine ⟨hs ++ hs', d', e', k'', xs ++ ys, ?_, hlived.append hlived', hk'', hstints.append hstints', ?_,
      fun h => ?_⟩
    · exact hatop ▸ (ends_atop_iff gs).mpr ⟨hs, d, none, hs', hends, hends', rfl⟩
    · rw [List.map_append, hall rfl]
      exact (List.prefix_append_right_inj leaves).mpr hfront'
    · rw [List.map_append, hall rfl, hall' h]

/-- Binding the loop variable is no leaf and takes no time, whether the work before it has failed or
not. -/
theorem Performs.rebind (hfs : Performs w settings defaults fs leaves) (outer : Option Json) :
    Performs w settings defaults (fs ++ [.rebind outer]) leaves := by
  intro k c hk
  obtain ⟨hs, d, e, k', xs, hends, hlived, hk', hstints, hfront, hall⟩ := hfs k c hk
  have hrebind : Ends settings (atop [.rebind outer] ⟨[], d, e⟩) [] (d.setVar loopVar outer) e := by
    cases e <;> exact .served (.rebind outer) ends_done
  have hstints' : Stints w settings defaults k c xs k' (outcome (d.setVar loopVar outer) e) := by
    cases e with
    | some f => exact hstints
    | none =>
      have happend := hstints.append (.rebound outer (.nil k' (d.setVar loopVar outer)))
      exact List.append_nil xs ▸ happend
  refine ⟨hs, _, e, k', xs, ?_, hlived, hk', hstints', hfront, hall⟩
  exact (ends_atop_iff [.rebind outer]).mpr ⟨hs, d, e, [], hends, hrebind, (List.append_nil hs).symm⟩

theorem performs_of_served {f : Frame} (h : ∀ c, ∃ gs v,
    f.Served settings c none [] (.went gs (c.setVar loopVar v)) ∧ Performs w settings defaults gs leaves) :
    Performs w settings defaults [f] leaves := by
  intro k c hk
  obtain ⟨gs, v, hserved, hgs⟩ := h c
  obtain ⟨hs, d, e, k', xs, hends, hlived, hk', hstints, hfront, hall⟩ := hgs k (c.setVar loopVar v) hk
  refine ⟨hs, d, e, k', xs, ?_, hlived, hk', .rebound v hstints, hfront, hall⟩
  exact .served hserved (by simpa [Upshot.run] using hends)

theorem performs_of_timed {s : Step} (h : ∀ k c, k.flights = [] → ∃ x : Stint, x.leaf = s ∧
    x.begun = k ∧ x.before = c ∧ x.Timed w settings defaults) :
    Performs w settings defaults [.task (Task.ofStep defaults s)] [s] := by
  intro k c hk
  obtain ⟨x, rfl, rfl, rfl, hx⟩ := h k c hk
  refine ⟨x.shown, x.after, x.failure, x.ended, [x], hx.ends, hx.lived, hx.landed, ?_, List.prefix_rfl,
    fun _ => rfl⟩
  cases hf : x.failure with
  | none => exact .went hx hf (.nil _ _)
  | some f => exact .failed hx hf

theorem exists_deeds {ds : List Deed} (hinstant : ∀ d, Deed.pause d ∈ ds → d.ceilMilliseconds = 0)
    (k : Moment) (c : Context) : ∃ hs d m, Ends settings ⟨[.deeds ds], c, none⟩ hs d none ∧
      w.Lived k hs m ∧ m.now = k.now ∧ m.flights = k.flights ∧ hs.filterMap Happening.call? = [] ∧
      ∀ t, c.start = t → (∀ d, Deed.become d ∈ ds → d.start = t) → d.start = t := by
  induction ds generalizing k c with
  | nil =>
    exact ⟨_, c, k, .served .finished ends_done, rfl, rfl, rfl, rfl, fun t ht _ => ht⟩
  | cons x ds ih =>
    have hinstant' : ∀ d, Deed.pause d ∈ ds → d.ceilMilliseconds = 0 :=
      fun d hd => hinstant d (List.mem_cons_of_mem _ hd)
    -- Whichever deed is the first, those behind it follow from where it has led.
    have hnext {hs₁ : History} {c₁ : Context} {k₁ : Moment}
        (hserved : Frame.Served settings c none (.deeds (x :: ds)) hs₁ (.went [.deeds ds] c₁))
        (hlived : w.Lived k hs₁ k₁) (hnow : k₁.now = k.now) (hflights : k₁.flights = k.flights)
        (hcalls : hs₁.filterMap Happening.call? = [])
        (hstart : ∀ t, c.start = t → (∀ d, Deed.become d ∈ x :: ds → d.start = t) → c₁.start = t) :
        ∃ hs d m, Ends settings ⟨[.deeds (x :: ds)], c, none⟩ hs d none ∧ w.Lived k hs m ∧
          m.now = k.now ∧ m.flights = k.flights ∧ hs.filterMap Happening.call? = [] ∧
          ∀ t, c.start = t → (∀ d, Deed.become d ∈ x :: ds → d.start = t) → d.start = t := by
      obtain ⟨hs, d, m, hends, hlived', hnow', hflights', hcalls', hstart'⟩ := ih hinstant' k₁ c₁
      refine ⟨hs₁ ++ hs, d, m, .served hserved hends, hlived.append hlived', hnow'.trans hnow,
        hflights'.trans hflights, ?_, fun t ht hds => ?_⟩
      · rw [List.filterMap_append, hcalls, hcalls', List.append_nil]
      · exact hstart' t (hstart t ht hds) fun d hd => hds d (List.mem_cons_of_mem x hd)
    cases x with
    | become d =>
      exact hnext (.became d ds) (World.lived_nil_iff.mpr rfl) rfl rfl rfl
        fun t _ hds => hds d List.mem_cons_self
    | emit e =>
      exact hnext (.emitted e ds) (World.lived_singleton_iff.mpr rfl) rfl rfl rfl fun t ht _ => ht
    | pause d =>
      have hzero : d.ceilMilliseconds = 0 := hinstant d List.mem_cons_self
      refine hnext (.paused d ds) (World.lived_singleton_iff.mpr ⟨rfl, rfl⟩) ?_ rfl rfl fun t ht _ => ht
      simp [hzero]
    | inspect =>
      exact hnext (.inspected ds) (World.lived_singleton_iff.mpr rfl) rfl rfl rfl fun t ht _ => ht

theorem timed_of_uncalled {s : Step} (hmessage : ∀ spec, s ≠ .message spec)
    (hends : Ends settings ⟨[.task (Task.ofStep defaults s)], c, none⟩ hs d none) (hlived : w.Lived k hs m)
    (hflights : m.flights = []) (hcalls : hs.filterMap Happening.call? = [])
    (hlasts : m.now = k.now + Stint.length w ⟨s, k, c, hs, m, d, none⟩)
    (hstart : w.KeepsStart → d.start = c.start) :
    Stint.Timed w settings defaults ⟨s, k, c, hs, m, d, none⟩ where
  ends := hends
  lived := hlived
  landed := hflights
  lasts := hlasts
  overlaps spec hspec := absurd hspec (hmessage spec)
  uncalled _ := by simp [Stint.calls, hcalls, World.calls]
  start := hstart

theorem performs_think (hjitter : defaults.jitter = none) (pause : Duration) :
    Performs w settings defaults [.task (Task.ofStep defaults (.think pause))] [.think pause] := by
  refine performs_of_timed fun k c hk => ?_
  have hends : Ends settings ⟨[.task (Task.ofStep defaults (.think pause))], c, none⟩
      [.paused ⟨pause, defaults.jitter⟩] c none := .served (.pause _) ends_done
  obtain ⟨length, hlength⟩ : ∃ n, pause.ceilMilliseconds = n := ⟨_, rfl⟩
  have hpaused : w.Lives k (.paused ⟨pause, defaults.jitter⟩) { k with now := k.now + length } :=
    ⟨hjitter, by rw [hlength]⟩
  have hlived := World.lived_singleton_iff.mpr hpaused
  exact ⟨_, rfl, rfl, rfl, timed_of_uncalled (by simp) hends hlived hk rfl
    (by simp only [Stint.length, hlength]) fun _ => rfl⟩

theorem performs_function (hinstant : w.Instant) (name : String) :
    Performs w settings defaults [.task (Task.ofStep defaults (.function name))] [.function name] := by
  refine performs_of_timed fun k c hk => ?_
  let k₁ : Moment := { k with tally := { k.tally with functions := k.tally.functions + 1 } }
  have hcalled (reply : Option (List Deed)) (hreply : w.function k.tally.functions name c = reply) :
      w.Lived k [.called name c reply] k₁ := World.lived_singleton_iff.mpr ⟨hreply.symm, rfl⟩
  cases hreply : w.function k.tally.functions name c with
  | none =>
    let line := Log.debug s!"No processor named '{name}', skipping"
    have hends : Ends settings ⟨[.task (Task.ofStep defaults (.function name))], c, none⟩
        ([.called name c none] ++ [.noted line]) c none :=
      .served (.uncalled name) (.served (.note line) ends_done)
    have hnoted : w.Lived k₁ [.noted line] k₁ := World.lived_singleton_iff.mpr rfl
    have hlived := (hcalled _ hreply).append hnoted
    exact ⟨_, rfl, rfl, rfl, timed_of_uncalled (by simp) hends hlived hk rfl rfl fun _ => rfl⟩
  | some ds =>
    obtain ⟨hs, d, m, hends, hlived, hnow, hflights, hcalls, hstart⟩ :=
      @exists_deeds w settings ds (hinstant _ name c ds hreply) k₁ c
    have hends' : Ends settings ⟨[.task (Task.ofStep defaults (.function name))], c, none⟩
        ([.called name c (some ds)] ++ hs) d none := .served (.called name ds) hends
    exact ⟨_, rfl, rfl, rfl, timed_of_uncalled (by simp) hends' ((hcalled _ hreply).append hlived)
      (hflights.trans hk) hcalls hnow fun hw => hstart c.start rfl (hw _ name c ds hreply)⟩

theorem performs_log (text : String) :
    Performs w settings defaults [.task (Task.ofStep defaults (.log text))] [.log text] := by
  refine performs_of_timed fun k c hk => ?_
  let line := Log.debug s!"log marker: {text}"
  have hends : Ends settings ⟨[.task (Task.ofStep defaults (.log text))], c, none⟩
      [.surrendered, .noted line] c none :=
    .served (.mark text) (.served .surrender (.served (.note line) ends_done))
  have hlived : w.Lived k [.surrendered, .noted line] k := ⟨k, rfl, k, rfl, rfl⟩
  exact ⟨_, rfl, rfl, rfl, timed_of_uncalled (by simp) hends hlived hk rfl rfl fun _ => rfl⟩

theorem performs_unrecognized (v : Json) :
    Performs w settings defaults [.task (Task.ofStep defaults (.unrecognized v))] [.unrecognized v] := by
  refine performs_of_timed fun k c hk => ?_
  have hends : Ends settings ⟨[.task (Task.ofStep defaults (.unrecognized v))], c, none⟩ [] c none :=
    .served .skip ends_done
  have hlived : w.Lived k [] k := rfl
  exact ⟨_, rfl, rfl, rfl, timed_of_uncalled (by simp) hends hlived hk rfl rfl fun _ => rfl⟩

theorem performs_message (spec : MessageSpec) :
    Performs w settings defaults [.task (Task.ofStep defaults (.message spec))] [.message spec] := by
  refine performs_of_timed fun k c hk => ?_
  obtain ⟨hs, e, m, calls, order, hends, hlived, hflights, hoverlaps⟩ :=
    @exists_overlapping w settings c k spec hk
  obtain rfl := hoverlaps.made
  refine ⟨⟨.message spec, k, c, hs, m, c, e⟩, rfl, rfl, rfl, ?_⟩
  exact {
    ends := hends
    lived := hlived
    landed := hflights
    lasts := hoverlaps.now
    overlaps := fun spec' hspec => by
      cases hspec
      exact ⟨order, hoverlaps⟩
    uncalled := fun h => absurd rfl (h spec)
    start := fun _ => rfl }

theorem performs_turn {body : List Task} {leaves : Option Json → List Step}
    (hbody : ∀ turn, Performs w settings defaults (body.map .task) (leaves turn)) (left turns : Nat) :
    Performs w settings defaults [.turn (.times (turns + left)) turns body]
      ((List.range' turns left).flatMap fun i => leaves (some (.ofNat (i + 1)))) := by
  induction left generalizing turns with
  | zero =>
    intro k c hk
    have hover : goesOn (.times (turns + 0)) turns = false := by simp [goesOn]
    exact ⟨[], c, none, k, [], .served (.done body hover) ends_done, rfl, hk, .nil k c, List.prefix_rfl,
      fun _ => rfl⟩
  | succ left ih =>
    have hmore : goesOn (.times (turns + (left + 1))) turns = true := by simp [goesOn]
    have hsurrender : Performs w settings defaults [.surrender] [] := fun k c hk =>
      ⟨_, c, none, k, [], .served .surrender ends_done, World.lived_singleton_iff.mpr rfl, hk, .nil k c,
        List.prefix_rfl, fun _ => rfl⟩
    have hnext : turns + (left + 1) = turns + 1 + left := by omega
    have hrest := (hbody (some (.ofNat (turns + 1)))).append
      (hsurrender.append (ih (turns + 1)) rfl) rfl
    rw [← hnext] at hrest
    exact performs_of_served fun c => ⟨_, _, .turn body hmore, hrest⟩

mutual

theorem performs_step (hinstant : w.Instant) (hjitter : defaults.jitter = none) :
    ∀ (s : Step) (turn : Option Json), s.finite = true → Performs w settings defaults
      [.task (Task.ofStep defaults s)] ((Step.unroll turn s).map Step.Occurrence.leaf)
  | .loop ss .infinite, turn, h => by simp [Step.finite, LoopCount.isInfinite] at h
  | .loop ss (.times n), turn, h => by
    have hss : Step.finiteAll ss = true := by simpa [Step.finite, LoopCount.isInfinite] using h
    have hturns := performs_turn (fun turn => performs_steps hinstant hjitter ss turn hss) n 0
    rw [Nat.zero_add, ← List.range_eq_range', ← List.map_flatMap] at hturns
    exact performs_of_served fun c => ⟨_, _, .loop _ _, hturns.rebind _⟩
  | .think pause, _, _ => performs_think hjitter pause
  | .function name, _, _ => performs_function hinstant name
  | .log text, _, _ => performs_log text
  | .message spec, _, _ => performs_message spec
  | .unrecognized v, _, _ => performs_unrecognized v

theorem performs_steps (hinstant : w.Instant) (hjitter : defaults.jitter = none) :
    ∀ (ss : List Step) (turn : Option Json), Step.finiteAll ss = true → Performs w settings defaults
      ((Task.ofSteps defaults ss).map .task) ((Step.unrollAll turn ss).map Step.Occurrence.leaf)
  | [], _, _ => performs_nil
  | s :: ss, turn, h => by
    obtain ⟨hs, hss⟩ : s.finite = true ∧ Step.finiteAll ss = true := by
      simpa [Step.finiteAll] using h
    have happend := (performs_step hinstant hjitter s turn hs).append
      (performs_steps hinstant hjitter ss turn hss) (filter_survives_tasks _)
    rw [Step.unrollAll, List.map_append]
    exact happend

end

/-- How a lone run goes in time. Without a topic it executes nothing. With one it executes the leaves of its
flow in order, up to the first that fails; each begins when those before it have taken their time. The events
are those of the leaves, after the one for the start. A step that makes calls fails with the failure of the
call that fails first, and its latencies are those of its calls that succeed, in the order in which they
settle: the time until the step is begun and the delay of the call. -/
structure Itinerary (w : World) (settings : Settings) (defaults : ThinkDefaults) (flow : List Step)
    (now : Nat) (c : Context) (xs : List Stint) (tally : Tally) (failure : Option Fault) : Prop where
  refused : ∀ f, w.topic ⟨settings.project, settings.topic⟩ {} = .error f → xs = [] ∧ failure = some f
  chained : ∀ topic, w.topic ⟨settings.project, settings.topic⟩ {} = .ok topic →
    ∃ m o, Stints w settings defaults ⟨now, [], { events := [.started] }⟩
      { c with state := .running, publisher := some topic } xs m o
  executed : xs.map Stint.leaf <+: (Step.unrollAll none flow).map Step.Occurrence.leaf
  whole : failure = none → xs.map Stint.leaf = (Step.unrollAll none flow).map Step.Occurrence.leaf
  failed : ∀ topic f, w.topic ⟨settings.project, settings.topic⟩ {} = .ok topic → failure = some f →
    ∃ front last, xs = front ++ [last] ∧ last.failure = some f ∧ ∀ x ∈ front, x.failure = none
  timed : ∀ x ∈ xs, x.Timed w settings defaults
  begun : ∀ front x back, xs = front ++ x :: back →
    x.begun.now = now + (front.map (Stint.length w)).sum ∧
      x.begun.tally.calls = (front.map fun y => (y.calls w).length).sum
  events : tally.events = .started :: xs.flatMap Stint.events
  start : w.KeepsStart → ∀ x ∈ xs, x.before.start = c.start
  blames : ∀ x ∈ xs, ∀ spec, x.leaf = .message spec → x.calls w ≠ [] → ∀ g, x.failure = some g ↔
    ∃ a ∈ x.calls w, a.reply = .error g ∧
      ∀ b ∈ x.calls w, (∃ g', b.reply = .error g') → b = a ∨ a.Before b
  latencies : ∀ x ∈ xs, ∀ spec, x.leaf = .message spec → ∃ order : List Call,
    order.Perm (x.calls w) ∧ order.Pairwise Call.Before ∧
      ∀ t, x.before.start + t = Lane.instant x.begun.now →
        x.events.filterMap (Event.sample? publishLatency) = (order.filter fun a => a.reply.isOk).map
          fun a => .ofFloat (Duration.toMilliseconds
            ⟨t + (Duration.ofMilliseconds a.delay).nanoseconds⟩)

theorem itinerary_of_stints {flow : List Step} {now : Nat} {xs : List Stint} {topic : Handle}
    (htopic : w.topic ⟨settings.project, settings.topic⟩ {} = .ok topic)
    (h : Stints w settings defaults ⟨now, [], { events := [.started] }⟩
      { c with state := .running, publisher := some topic } xs m (outcome d e))
    (hfront : xs.map Stint.leaf <+: (Step.unrollAll none flow).map Step.Occurrence.leaf)
    (hall : e = none → xs.map Stint.leaf = (Step.unrollAll none flow).map Step.Occurrence.leaf) :
    Itinerary w settings defaults flow now c xs m.tally e where
  refused f hf := by
    rw [htopic] at hf
    cases hf
  chained topic' htopic' := by
    obtain rfl : topic = topic' := Except.ok.inj (htopic.symm.trans htopic')
    exact ⟨m, _, h⟩
  executed := hfront
  whole := hall
  failed _ f _ he := by
    subst he
    exact h.failure
  timed := h.timed
  begun front x back hxs := by
    obtain ⟨hnow, hcalls⟩ := h.begun hxs
    exact ⟨hnow, hcalls.trans (Nat.zero_add _)⟩
  events := h.events
  start hw := h.start hw
  blames x hx spec hleaf hne g := by
    obtain ⟨order, hoverlaps⟩ := (h.timed x hx).overlaps spec hleaf
    exact hoverlaps.failure_iff hne
  latencies x hx spec hleaf := by
    obtain ⟨order, hoverlaps⟩ := (h.timed x hx).overlaps spec hleaf
    exact ⟨order, hoverlaps.perm, hoverlaps.ordered, fun t ht => hoverlaps.latencies ht⟩

theorem itinerary_of_refusal {flow : List Step} {now : Nat} {tally : Tally} {f : Fault}
    (htopic : w.topic ⟨settings.project, settings.topic⟩ {} = .error f) (hevents : tally.events = [.started]) :
    Itinerary w settings defaults flow now c [] tally (some f) where
  refused g hg := by
    rw [htopic] at hg
    cases hg
    exact ⟨rfl, rfl⟩
  chained topic htopic' := by
    rw [htopic] at htopic'
    cases htopic'
  executed := List.nil_prefix
  whole h := nomatch h
  failed topic _ htopic' _ := by
    rw [htopic] at htopic'
    cases htopic'
  timed := by simp
  begun := by simp
  events := hevents
  start := by simp
  blames := by simp
  latencies := by simp

theorem lived_opening {reply : Except Fault Handle} (now : Nat)
    (hreply : w.topic ⟨settings.project, settings.topic⟩ {} = reply) :
    w.Lived ⟨now, [], {}⟩ (opening settings reply) ⟨now, [], { events := [.started] }⟩ :=
  ⟨_, rfl, _, rfl, _, ⟨hreply.symm, rfl⟩, rfl⟩

theorem ends_opened {name : String} {tasks : List Task} {reply : Except Fault Handle}
    (h : Ends settings ⟨.acquire ⟨settings.project, settings.topic⟩ ::
      (tasks.map Frame.task ++ [.conclude name]), { c with state := .running }, none⟩
      (.acquired ⟨settings.project, settings.topic⟩ {} reply :: hs) d e) :
    Ends settings (ofScenario settings name tasks c) (opening settings reply ++ hs) d e := by
  have hnoted := Ends.served (.note (Log.debug
    s!"Initializing Pub/Sub publisher for {settings.project}/{settings.topic}")) h
  have hentered := Ends.served .enter hnoted
  have hstarted := Ends.served (.emit .started) hentered
  exact hstarted

theorem exists_itinerary (hinstant : w.Instant) (hjitter : defaults.jitter = none) {flow : List Step}
    (hfinite : Step.finiteAll flow = true) (name : String) (c : Context) (now : Nat) :
    ∃ hs d e m xs, Ends settings (ofScenario settings name (Task.ofSteps defaults flow) c) hs d e ∧
      w.Lived ⟨now, [], {}⟩ hs m ∧ m.now = now + (xs.map (Stint.length w)).sum ∧
      Itinerary w settings defaults flow now c xs m.tally e := by
  cases hreply : w.topic ⟨settings.project, settings.topic⟩ {} with
  | error f =>
    have hleft : ((Task.ofSteps defaults flow).map Frame.task ++ [Frame.conclude name]).filter
        Frame.survives = [.conclude name] := by
      rw [List.filter_append, filter_survives_tasks]
      rfl
    have hconclude : Ends settings ⟨[.conclude name], { c with state := .running }, some f⟩
        (epitaph name f) { c with state := .failed } (some f) :=
      .served (.broken name rfl) ends_done
    rw [← hleft] at hconclude
    have hends := ends_opened (.served (.unacquired _ f) hconclude)
    have hepitaph : w.Lived ⟨now, [], { events := [.started] }⟩ (epitaph name f)
        ⟨now, [], { events := [.started] }⟩ := World.lived_singleton_iff.mpr rfl
    have hlived := (lived_opening now hreply).append hepitaph
    exact ⟨_, _, some f, _, [], hends, hlived, rfl, itinerary_of_refusal hreply rfl⟩
  | ok topic =>
    obtain ⟨hs, d, e, m, xs, htasks, hlived, -, hstints, hfront, hall⟩ :=
      @performs_steps w settings defaults hinstant hjitter flow none hfinite
        ⟨now, [], { events := [.started] }⟩ { c with state := .running, publisher := some topic } rfl
    obtain ⟨hs', d', hconclude, hlived'⟩ : ∃ hs' d', Ends settings (atop [.conclude name] ⟨[], d, e⟩) hs'
        d' e ∧ w.Lived m hs' m := by
      cases e with
      | none => exact ⟨_, _, .served (.completed name rfl) ends_done, rfl⟩
      | some f => exact ⟨_, _, .served (.broken name rfl) ends_done, World.lived_singleton_iff.mpr rfl⟩
    have hrest := (ends_atop_iff [.conclude name]).mpr ⟨hs, d, e, hs', htasks, hconclude, rfl⟩
    have hends := ends_opened (.served (.acquired _ topic) hrest)
    exact ⟨_, d', e, m, xs, hends, (lived_opening now hreply).append (hlived.append hlived'), hstints.now,
      itinerary_of_stints hreply hstints hfront hall⟩

/-- How long a run lasts that is alone on the clock: as long as the leaves that are executed, one after
another. -/
theorem lone_run_lasts (w : World) (settings : Settings) (defaults : ThinkDefaults) (name : String)
    (flow : List Step) (c : Context) (now fuel : Nat) (hinstant : w.Instant)
    (hjitter : defaults.jitter = none) (hfinite : Step.finiteAll flow = true) (hfuel : 0 < fuel) :
    ∃ xs lane tally enough,
      (∀ rounds, enough ≤ rounds → (Schedule.drive w.collaborators settings fuel rounds now
          [{ run := ofScenario settings name (Task.ofSteps defaults flow) c }]).run {} =
        ((now + (xs.map (Stint.length w)).sum, [lane]), tally)) ∧
      lane.ending = some .finished ∧ lane.run.control = [] ∧
      Itinerary w settings defaults flow now c xs tally lane.run.failure := by
  obtain ⟨hs, d, e, m, xs, hends, hlived, hnow, hitinerary⟩ :=
    @exists_itinerary w settings defaults hinstant hjitter flow hfinite name c now
  obtain ⟨enough, lane, hrun, hending, hdrive⟩ := hends.drive rfl hlived hfuel
  rw [hnow] at hdrive
  exact ⟨xs, lane, m.tally, enough, hdrive, hending, by rw [hrun], by rw [hrun]; exact hitinerary⟩

/-- A world in which calls take some time each and two of them fail. -/
def slow : World where
  topic _ _ := .ok ⟨"address", {}⟩
  template _ _ _ := .ok .null
  call
    | 0 => (5, .ok "first")
    | 1 => (0, .ok "second")
    | 2 => (5, .ok "third")
    | 3 => (9, .ok "fourth")
    | 4 => (4, .error (.publish "rejected"))
    | _ => (4, .error (.publish "rejected too"))
  function _ _ _ := none
  seed := ⟨0⟩

def slowFlow : List Step :=
  [.think ⟨1500000⟩, .loop [.message ⟨some .null, some 3, none⟩] (.times 2)]

def slowSettings : Settings := ⟨none, "project", "topic", false⟩

def slowContext : Context := ⟨.ofRandom 0, .ofList [], 0, none, .notStarted⟩

def slowRun (rounds : Nat) : (Nat × List Lane) × Tally :=
  (Schedule.drive slow.collaborators slowSettings 40 rounds 0
    [{ run := ofScenario slowSettings "slow" (Task.ofSteps {} slowFlow) slowContext }]).run {}

theorem slow_run_lasts : ∃ xs lane tally enough,
    (∀ rounds, enough ≤ rounds → slowRun rounds = ((2 + 5 + 9, [lane]), tally)) ∧
      (xs.map (Stint.length slow)).sum = 2 + 5 + 9 ∧
      Itinerary slow slowSettings {} slowFlow 0 slowContext xs tally (some (.publish "rejected")) := by
  have hinstant : slow.Instant := by simp [World.Instant, slow]
  obtain ⟨xs, lane, tally, enough, hdrive, -, -, hitinerary⟩ :=
    lone_run_lasts slow slowSettings {} "slow" slowFlow slowContext 0 40 hinstant rfl rfl (by decide)
  have hended : ∀ l ∈ (slowRun 20).1.2, l.ending.isSome = true := by decide +kernel
  have hnow : (slowRun 20).1.1 = 16 := by decide +kernel
  have hfailures : (slowRun 20).1.2.map (fun l => l.run.failure) = [some (.publish "rejected")] := by
    decide +kernel
  generalize hresult : slowRun 20 = result at hended hnow hfailures
  obtain rfl : ((0 + (xs.map (Stint.length slow)).sum, [lane]), tally) = result :=
    (hdrive (20 + enough) (Nat.le_add_left _ _)).symm.trans (Schedule.drive_add hresult hended enough)
  have hsum : (xs.map (Stint.length slow)).sum = 2 + 5 + 9 := (Nat.zero_add _).symm.trans hnow
  have hfailure : lane.run.failure = some (.publish "rejected") := (List.cons.inj hfailures).1
  rw [hsum, Nat.zero_add] at hdrive
  rw [hfailure] at hitinerary
  exact ⟨xs, lane, tally, enough, hdrive, hsum, hitinerary⟩

end Run
end Engine
end TopicLoad
