import TopicLoad.Proofs.Serving

/-! How a scenario goes from its beginning to its end: it reports its start, acquires the topic once, and
works off its tasks up to the first failure. Its last state says whether there was one. -/
namespace TopicLoad
namespace Engine

namespace Happening

def isStart : Happening → Bool
  | emitted .engine .started => true
  | _ => false

def acquisition? : Happening → Option (Destination × Batching × Except Fault Handle)
  | acquired place batching reply => some (place, batching, reply)
  | _ => none

def IsInner (a : Happening) : Prop := a.isStart = false ∧ a.acquisition? = none

end Happening
namespace Frame

/-- A frame that neither reports a start nor acquires a topic, and of which no such frame comes. -/
def IsInner : Frame → Prop
  | .emit .started | .acquire _ => False
  | _ => True

variable {settings : Settings} {c : Context} {failure : Option Fault} {f : Frame} {hs : History}

theorem isInner_settledFrames (s : Settlement) : ∀ f ∈ Run.settledFrames c s, f.IsInner := by
  intro f hf
  rcases Run.mem_settledFrames hf with ⟨line, rfl⟩ | ⟨ev, hev, rfl⟩
  · trivial
  · cases ev with
    | started => exact hev rfl
    | _ => trivial

theorem IsInner.shows {u : Upshot} (hf : f.IsInner) (h : f.Served settings c failure hs u) :
    ∀ a ∈ hs, a.IsInner := by
  cases h with
  | emit e =>
    cases e with
    | started => exact hf.elim
    | _ => exact List.forall_mem_singleton.mpr ⟨rfl, rfl⟩
  | acquired | unacquired => exact hf.elim
  | _ => first | exact List.forall_mem_singleton.mpr ⟨rfl, rfl⟩ | exact List.forall_mem_nil _

theorem IsInner.served {fs : List Frame} {d : Context} (hf : f.IsInner)
    (h : f.Served settings c failure hs (.went fs d)) : ∀ g ∈ fs, g.IsInner := by
  cases h with
  | acquired => exact hf.elim
  | turn body =>
    intro g hg
    rcases List.mem_append.mp hg with hg | hg
    · obtain ⟨t, -, rfl⟩ := List.mem_map.mp hg
      trivial
    · simp only [List.mem_cons, List.not_mem_nil, or_false] at hg
      rcases hg with rfl | rfl <;> trivial
  | sentAtOnce | settled =>
    exact List.forall_mem_append.mpr ⟨isInner_settledFrames _, List.forall_mem_singleton.mpr trivial⟩
  | _ => simp [IsInner]

end Frame

/-- A task that was executed: what it began with, what it showed, and how it ended. -/
structure Leg where
  task : Task
  before : Context
  shown : History
  after : Context
  failure : Option Fault

namespace Run

variable {settings : Settings} {c d : Context} {r r' : Run} {hs : History} {e : Option Fault}

theorem shows_inner (hm : Moves settings r hs r') (hr : ∀ f ∈ r.control, f.IsInner) :
    (∀ f ∈ r'.control, f.IsInner) ∧ ∀ a ∈ hs, a.IsInner := by
  refine hm.forall_control hr fun {f c failure u} hf hu => ⟨?_, hf.shows hu⟩
  cases u with
  | went gs d => simpa [Upshot.run] using hf.served hu
  | failed g => exact List.forall_mem_nil _

/-- Executed tasks in a row, each begun with what the one before it left. -/
inductive Legs (settings : Settings) : Context → List Leg → Context → Prop where
  | nil (c : Context) : Legs settings c [] c
  | cons (leg : Leg) {legs : List Leg} {d : Context}
    (h : Ends settings (ofTask leg.task leg.before) leg.shown leg.after leg.failure)
    (h' : Legs settings leg.after legs d) : Legs settings leg.before (leg :: legs) d

def opening (settings : Settings) (reply : Except Fault Handle) : History :=
  [ .emitted .engine .started,
    .noted (Log.debug s!"Initializing Pub/Sub publisher for {settings.project}/{settings.topic}"),
    .acquired ⟨settings.project, settings.topic⟩ {} reply ]

def epitaph (name : String) (f : Fault) : History :=
  [.noted (Log.debug s!"Scenario '{name}' failed: {f.message}")]

/-- How a run of a scenario can go. Without a topic no task is executed. With one, tasks are executed in
order, all of them if none fails, and otherwise those up to the first that fails, with whose failure the
run ends. -/
inductive Course (settings : Settings) (name : String) (tasks : List Task) (c : Context) :
    History → Context → Option Fault → Prop where
  | unacquired (f : Fault) :
    Course settings name tasks c (opening settings (.error f) ++ epitaph name f)
      { c with state := .failed } (some f)
  | completed {topic : Handle} {legs : List Leg} {d : Context}
    (h : Legs settings { c with state := .running, publisher := some topic } legs d)
    (hall : legs.map Leg.task = tasks) (hok : ∀ leg ∈ legs, leg.failure = none) :
    Course settings name tasks c (opening settings (.ok topic) ++ legs.flatMap Leg.shown)
      { d with state := .completed } none
  | broken {topic : Handle} {legs : List Leg} {last : Leg} {d : Context} {f : Fault}
    (h : Legs settings { c with state := .running, publisher := some topic } (legs ++ [last]) d)
    (hfront : (legs ++ [last]).map Leg.task <+: tasks) (hok : ∀ leg ∈ legs, leg.failure = none)
    (hlast : last.failure = some f) :
    Course settings name tasks c
      (opening settings (.ok topic) ++ (legs ++ [last]).flatMap Leg.shown ++ epitaph name f)
      { d with state := .failed } (some f)

/-- Tasks are worked off one after another up to the first failure. By induction on the tasks; the first
one is cut off from those below it. -/
theorem ends_tasks {tasks : List Task} (h : Ends settings ⟨tasks.map .task, c, none⟩ hs d e) :
    ∃ legs, Legs settings c legs d ∧ hs = legs.flatMap Leg.shown ∧
      ((e = none ∧ legs.map Leg.task = tasks ∧ ∀ leg ∈ legs, leg.failure = none) ∨
        ∃ f init last, e = some f ∧ legs = init ++ [last] ∧ legs.map Leg.task <+: tasks ∧
          (∀ leg ∈ init, leg.failure = none) ∧ last.failure = some f) := by
  induction tasks generalizing c hs with
  | nil =>
    obtain ⟨rfl, rfl, rfl⟩ := ends_nil_iff.mp h
    exact ⟨[], .nil d, rfl, Or.inl ⟨rfl, rfl, by simp⟩⟩
  | cons t ts ih =>
    have hfirst : Ends settings (atop (ts.map .task) ⟨[.task t], c, none⟩) hs d e := h
    obtain ⟨hs₁, c', e', hs₂, h₁, h₂, rfl⟩ := (ends_atop_iff _).mp hfirst
    cases e' with
    | some f =>
      rw [atop_of_some, filter_survives_tasks, List.append_nil] at h₂
      obtain ⟨rfl, rfl, rfl⟩ := ends_nil_iff.mp h₂
      refine ⟨[⟨t, c, hs₁, d, some f⟩], .cons ⟨t, c, hs₁, d, some f⟩ h₁ (.nil d), by simp,
        Or.inr ⟨f, [], _, rfl, rfl, ?_⟩⟩
      exact ⟨List.prefix_append [t] ts, by simp, rfl⟩
    | none =>
      obtain ⟨legs, hlegs, rfl, hcases⟩ := ih h₂
      refine ⟨⟨t, c, hs₁, c', none⟩ :: legs, .cons ⟨t, c, hs₁, c', none⟩ h₁ hlegs, rfl, ?_⟩
      rcases hcases with ⟨rfl, rfl, hok⟩ | ⟨f, init, last, rfl, rfl, hfront, hok, hlast⟩
      · exact Or.inl ⟨rfl, rfl, List.forall_mem_cons.mpr ⟨rfl, hok⟩⟩
      · refine Or.inr ⟨f, ⟨t, c, hs₁, c', none⟩ :: init, last, rfl, rfl, ?_, ?_, hlast⟩
        · exact (List.prefix_cons_inj t).mpr hfront
        · exact List.forall_mem_cons.mpr ⟨rfl, hok⟩

theorem Legs.shows_inner {legs : List Leg} (h : Legs settings c legs d) :
    ∀ a ∈ legs.flatMap Leg.shown, a.IsInner := by
  induction h with
  | nil => simp
  | cons leg h _ ih =>
    rw [List.flatMap_cons]
    refine List.forall_mem_append.mpr ⟨?_, ih⟩
    exact (h.shows Run.shows_inner (List.forall_mem_singleton.mpr trivial)).2

theorem ends_conclude_completed {name : String}
    (h : Ends settings ⟨[.conclude name], c, none⟩ hs d e) :
    hs = [] ∧ d = { c with state := .completed } ∧ e = none := by
  obtain ⟨_, _, _, hu, hr, rfl⟩ := ends_cons_iff.mp h
  cases hu with
  | broken _ hf => cases hf
  | completed =>
    obtain ⟨rfl, rfl, rfl⟩ := ends_nil_iff.mp hr
    exact ⟨rfl, rfl, rfl⟩

theorem ends_conclude_broken {name : String} {f : Fault}
    (h : Ends settings ⟨[.conclude name], c, some f⟩ hs d e) :
    hs = epitaph name f ∧ d = { c with state := .failed } ∧ e = some f := by
  obtain ⟨_, _, _, hu, hr, rfl⟩ := ends_cons_iff.mp h
  cases hu with
  | completed _ hf => cases hf
  | broken _ hf =>
    cases hf
    obtain ⟨rfl, rfl, rfl⟩ := ends_nil_iff.mp hr
    exact ⟨rfl, rfl, rfl⟩

theorem ends_ofScenario {name : String} {tasks : List Task}
    (h : Ends settings (ofScenario settings name tasks c) hs d e) :
    (∃ f, hs = opening settings (.error f) ++ epitaph name f ∧ d = { c with state := .failed } ∧
      e = some f) ∨
    ∃ topic hs₁ d' e' hs₂, hs = opening settings (.ok topic) ++ (hs₁ ++ hs₂) ∧
      Ends settings ⟨tasks.map .task, { c with state := .running, publisher := some topic }, none⟩
        hs₁ d' e' ∧ Ends settings ⟨[.conclude name], d', e'⟩ hs₂ d e := by
  obtain ⟨_, _, _, ⟨⟩, h₁, rfl⟩ := ends_cons_iff.mp h
  obtain ⟨_, _, _, ⟨⟩, h₂, rfl⟩ := ends_cons_iff.mp h₁
  obtain ⟨_, _, _, ⟨⟩, h₃, rfl⟩ := ends_cons_iff.mp h₂
  obtain ⟨_, _, hs₄, hu, h₄, rfl⟩ := ends_cons_iff.mp h₃
  cases hu with
  | unacquired place f =>
    have hleft : Ends settings ⟨(tasks.map Frame.task ++ [Frame.conclude name]).filter Frame.survives,
        { c with state := .running }, some f⟩ hs₄ d e := h₄
    rw [List.filter_append, filter_survives_tasks] at hleft
    obtain ⟨rfl, rfl, rfl⟩ := ends_conclude_broken hleft
    exact Or.inl ⟨f, rfl, rfl, rfl⟩
  | acquired place topic =>
    have htasks : Ends settings (atop [.conclude name]
        ⟨tasks.map .task, { c with state := .running, publisher := some topic }, none⟩) hs₄ d e := h₄
    obtain ⟨hs₁, d', e', hs₂, h₅, h₆, rfl⟩ := (ends_atop_iff _).mp htasks
    have hconclude : atop [.conclude name] ⟨[], d', e'⟩ = ⟨[.conclude name], d', e'⟩ := by
      cases e' <;> rfl
    exact Or.inr ⟨topic, hs₁, d', e', hs₂, rfl, h₅, hconclude ▸ h₆⟩

theorem course_of_ends {name : String} {tasks : List Task}
    (h : Ends settings (ofScenario settings name tasks c) hs d e) :
    Course settings name tasks c hs d e := by
  rcases ends_ofScenario h with ⟨f, rfl, rfl, rfl⟩ | ⟨topic, hs₁, d', e', hs₂, rfl, htasks, hend⟩
  · exact .unacquired f
  · obtain ⟨legs, hlegs, rfl, hcases⟩ := ends_tasks htasks
    rcases hcases with ⟨rfl, hall, hok⟩ | ⟨f, init, last, rfl, rfl, hfront, hok, hlast⟩
    · obtain ⟨rfl, rfl, rfl⟩ := ends_conclude_completed hend
      rw [List.append_nil]
      exact .completed hlegs hall hok
    · obtain ⟨rfl, rfl, rfl⟩ := ends_conclude_broken hend
      rw [← List.append_assoc]
      exact .broken hlegs hfront hok hlast

theorem opening_append (reply : Except Fault Handle) (h : ∀ a ∈ hs, a.IsInner) :
    (opening settings reply ++ hs).filter Happening.isStart = [.emitted .engine .started] ∧
    (opening settings reply ++ hs).filterMap Happening.acquisition? =
      [(⟨settings.project, settings.topic⟩, {}, reply)] := by
  have hstart : hs.filter Happening.isStart = [] := List.filter_eq_nil_iff.mpr fun a ha => by
    simp [(h a ha).1]
  have hacquired : hs.filterMap Happening.acquisition? = [] :=
    List.filterMap_eq_nil_iff.mpr fun a ha => (h a ha).2
  rw [List.filter_append, List.filterMap_append, hstart, hacquired]
  exact ⟨rfl, rfl⟩

/-- A run that ends has reported its start once, before anything else; it has acquired its topic once,
before any task; it has executed its tasks in order up to the first failure, and its last state says
whether there was one. -/
theorem run_takes_its_course (settings : Settings) (name : String) (tasks : List Task) (c d : Context)
    (hs : History) (e : Option Fault) (h : Ends settings (ofScenario settings name tasks c) hs d e) :
    Course settings name tasks c hs d e ∧
    hs.head? = some (.emitted .engine .started) ∧
    hs.filter Happening.isStart = [.emitted .engine .started] ∧
    (∃ reply, hs.filterMap Happening.acquisition? =
      [(⟨settings.project, settings.topic⟩, {}, reply)]) ∧
    (d.state = .completed ↔ e = none) ∧ (d.state = .failed ↔ e ≠ none) := by
  have hcourse := course_of_ends h
  have hepitaph (f : Fault) : ∀ a ∈ epitaph name f, a.IsInner :=
    List.forall_mem_singleton.mpr ⟨rfl, rfl⟩
  refine ⟨hcourse, ?_⟩
  cases hcourse with
  | unacquired f =>
    obtain ⟨hstart, hacquired⟩ := @opening_append settings _ (.error f) (hepitaph f)
    exact ⟨rfl, hstart, ⟨_, hacquired⟩, by simp, by simp⟩
  | completed hlegs =>
    obtain ⟨hstart, hacquired⟩ := opening_append (.ok _) hlegs.shows_inner
    exact ⟨rfl, hstart, ⟨_, hacquired⟩, by simp, by simp⟩
  | broken hlegs =>
    rw [List.append_assoc]
    obtain ⟨hstart, hacquired⟩ := opening_append (.ok _)
      (List.forall_mem_append.mpr ⟨hlegs.shows_inner, hepitaph _⟩)
    exact ⟨rfl, hstart, ⟨_, hacquired⟩, by simp, by simp⟩

/-- Of two tasks the second one fails, and with it the run. -/
theorem task_without_template_breaks_run :
    ∃ hs, Ends ⟨none, "project", "topic", false⟩
        (ofScenario ⟨none, "project", "topic", false⟩ "name" [.skip, .publish {}, .skip]
          ⟨.ofRandom 0, .ofList [], 0, none, .completed⟩) hs
        ⟨.ofRandom 0, .ofList [], 0, some ⟨"address", {}⟩, .failed⟩ (some .missingTemplate) ∧
      Course ⟨none, "project", "topic", false⟩ "name" [.skip, .publish {}, .skip]
        ⟨.ofRandom 0, .ofList [], 0, none, .completed⟩ hs
        ⟨.ofRandom 0, .ofList [], 0, some ⟨"address", {}⟩, .failed⟩ (some .missingTemplate) := by
  obtain ⟨hs, hends⟩ : ∃ hs, Ends ⟨none, "project", "topic", false⟩
      (ofScenario ⟨none, "project", "topic", false⟩ "name" [.skip, .publish {}, .skip]
        ⟨.ofRandom 0, .ofList [], 0, none, .completed⟩) hs
      ⟨.ofRandom 0, .ofList [], 0, some ⟨"address", {}⟩, .failed⟩ (some .missingTemplate) :=
    ⟨_, .served (.emit .started) <| .served .enter <| .served (.note _) <|
      .served (.acquired _ ⟨"address", {}⟩) <| .served .skip <| .served (.untemplated rfl) <|
      .served (.broken "name" rfl) <| ends_nil_iff.mpr ⟨rfl, rfl, rfl⟩⟩
  exact ⟨hs, hends, (run_takes_its_course _ _ _ _ _ hs _ hends).1⟩

end Run
end Engine
end TopicLoad
