import TopicLoad.Proofs.Unrolling

/-! Steps that do nothing. A flow from which they are deleted, at every depth, does what the flow does. -/
namespace TopicLoad

namespace Step

variable (known : String → Bool)

mutual

/-- What is left of a step when those are deleted that do nothing: markers, calls of functions that are not
known, and steps of no known shape. A loop stays, even if its body becomes empty. -/
def prune : Step → List Step
  | .loop steps count => [.loop (pruneAll steps) count]
  | .think d => [.think d]
  | .function name => if known name then [.function name] else []
  | .message spec => [.message spec]
  | .log _ | .unrecognized _ => []

def pruneAll : List Step → List Step
  | [] => []
  | s :: ss => prune s ++ pruneAll ss

end

end Step
namespace Engine

namespace Happening

/-- Exactly the known functions are there when they are called. -/
def Heeds (known : String → Bool) : Happening → Prop
  | called name _ reply => reply.isSome = known name
  | _ => True

/-- Everything counts but lines, that a run lets others go on, and calls of functions that are not there. -/
def isDone : Happening → Bool
  | surrendered | noted _ | called _ _ none => false
  | _ => true

end Happening
namespace Behaviour

def doings (known : String → Bool) (p : Behaviour) : Behaviour :=
  .Seen (Happening.Heeds known) Happening.isDone p

variable {known : String → Bool} {p : Behaviour} {q : Context → Behaviour} {f : Context → Context}
  {c : Context}

@[simp] theorem doings_idle : doings known (.Idle c) = .Idle c := seen_idle

theorem doings_andThen :
    doings known (.AndThen p q) = .AndThen (doings known p) fun c => doings known (q c) := seen_andThen

theorem doings_closing : doings known (.Closing p f) = .Closing (doings known p) f := seen_closing

theorem doings_followed {q : Option Fault → Context → Behaviour} :
    doings known (.Followed p q) = .Followed (doings known p) fun e c => doings known (q e c) :=
  seen_followed

end Behaviour
namespace Run

variable {settings : Settings} {defaults : ThinkDefaults} {known : String → Bool} {c : Context}

/-! ## Steps that do nothing -/

theorem doings_surrender (fs : List Frame) :
    (work settings (.surrender :: fs) c).doings known = (work settings fs c).doings known :=
  seen_surrender trivial rfl

theorem doings_note (line : Log.Line) (fs : List Frame) :
    (work settings (.note line :: fs) c).doings known = (work settings fs c).doings known := by
  refine seen_unlooked (fun hm _ => ?_) ⟨_, ⟨rfl, rfl⟩, List.forall_mem_singleton.mpr trivial⟩
  obtain ⟨rfl, rfl⟩ := hm
  exact ⟨rfl, rfl⟩

theorem doings_skip : (work settings [.task .skip] c).doings known = .Idle c := by
  have hskip : work settings [.task .skip] c = work settings [] c := behaviour_silent rfl
  rw [hskip, work_nil, Behaviour.doings_idle]

theorem doings_mark (text : String) : (work settings [.task (.mark text)] c).doings known = .Idle c := by
  have hmark : work settings [.task (.mark text)] c =
      work settings [.surrender, .note (Log.debug s!"log marker: {text}")] c := behaviour_silent rfl
  rw [hmark, doings_surrender, doings_note, work_nil, Behaviour.doings_idle]

theorem doings_uncalled {name : String} (hname : known name = false) :
    (work settings [.task (.call name)] c).doings known = .Idle c := by
  have hcall : (work settings [.task (.call name)] c).doings known =
      (work settings [.note (Log.debug s!"No processor named '{name}', skipping")] c).doings known := by
    refine seen_unlooked (fun hm hheeds => ?_) ⟨_, ⟨none, rfl, rfl⟩, ?_⟩
    · obtain ⟨_ | ds, rfl, rfl⟩ := hm
      · exact ⟨rfl, rfl⟩
      · have hds : (Happening.called name c (some ds)).Heeds known := hheeds _ List.mem_cons_self
        rw [Happening.Heeds, hname] at hds
        cases hds
    · exact List.forall_mem_singleton.mpr hname.symm
  rw [hcall, doings_note, work_nil, Behaviour.doings_idle]

/-! ## Flows -/

/-- The turns that a loop has left do what they do with another body that does the same. By induction on
their number. -/
theorem doings_turns {body body' : List Task}
    (hbody : ∀ c, (work settings (body'.map .task) c).doings known =
      (work settings (body.map .task) c).doings known) (left turns : Nat) (c : Context) :
    (work settings [.turn (.times (turns + left)) turns body'] c).doings known =
      (work settings [.turn (.times (turns + left)) turns body] c).doings known := by
  induction left generalizing turns c with
  | zero => rw [work_turn_done (by simp [goesOn]), work_turn_done (by simp [goesOn])]
  | succ left ih =>
    have hnext : turns + (left + 1) = turns + 1 + left := by omega
    rw [work_turn (by simp [goesOn]), work_turn (by simp [goesOn]), Behaviour.doings_andThen,
      Behaviour.doings_andThen, hbody]
    refine congrArg _ (funext fun d => ?_)
    rw [doings_surrender, doings_surrender, hnext, ih]

mutual

theorem doings_prune (c : Context) : ∀ s : Step, s.finite = true →
    (work settings ((Task.ofSteps defaults (s.prune known)).map .task) c).doings known =
      (work settings [.task (Task.ofStep defaults s)] c).doings known
  | .loop ss .infinite, h => by simp [Step.finite, LoopCount.isInfinite] at h
  | .loop ss (.times n), h => by
    have hss : Step.finiteAll ss = true := by simpa [Step.finite, LoopCount.isInfinite] using h
    have hturns := @doings_turns settings known _ _ (fun c => doings_pruneAll c ss hss) n 0
      (c.setVar loopVar none)
    simp only [Nat.zero_add] at hturns
    simp only [Step.prune, Task.ofSteps_cons, Task.ofSteps_nil, Task.ofStep_loop, List.map_cons,
      List.map_nil]
    rw [work_loop, work_loop, Behaviour.doings_closing, Behaviour.doings_closing, hturns]
  | .think _, _ => rfl
  | .function name, _ => by
    cases hname : known name with
    | true => simp [Step.prune, hname]
    | false => simp [Step.prune, hname, doings_uncalled, work_nil]
  | .log text, _ => by simp [Step.prune, doings_mark, work_nil]
  | .message _, _ => rfl
  | .unrecognized _, _ => by simp [Step.prune, doings_skip, work_nil]

theorem doings_pruneAll (c : Context) : ∀ ss : List Step, Step.finiteAll ss = true →
    (work settings ((Task.ofSteps defaults (Step.pruneAll known ss)).map .task) c).doings known =
      (work settings ((Task.ofSteps defaults ss).map .task) c).doings known
  | [], _ => rfl
  | s :: ss, h => by
    obtain ⟨hs, hss⟩ : s.finite = true ∧ Step.finiteAll ss = true := by
      simpa [Step.finiteAll] using h
    have happend : Task.ofSteps defaults (Step.pruneAll known (s :: ss)) =
        Task.ofSteps defaults (s.prune known) ++ Task.ofSteps defaults (Step.pruneAll known ss) := by
      simp [Step.pruneAll, Task.ofSteps_eq_map]
    rw [happend, work_tasks_append, Task.ofSteps_cons, work_tasks_cons, Behaviour.doings_andThen,
      Behaviour.doings_andThen, doings_prune c s hs]
    exact congrArg _ (funext fun d => doings_pruneAll d ss hss)

end

theorem doings_ofScenario {name : String} {tasks tasks' : List Task}
    (h : ∀ c, (work settings (tasks'.map .task) c).doings known =
      (work settings (tasks.map .task) c).doings known) :
    (behaviour settings (ofScenario settings name tasks' c)).doings known =
      (behaviour settings (ofScenario settings name tasks c)).doings known := by
  have hscenario (ts : List Task) : ofScenario settings name ts c =
      atop (ts.map .task ++ [.conclude name])
        ⟨[.emit .started, .enter] ++ setup settings, c, none⟩ := by
    simp [ofScenario, atop, remaining]
  rw [hscenario, hscenario, behaviour_atop, behaviour_atop, Behaviour.doings_followed,
    Behaviour.doings_followed]
  refine congrArg _ (funext fun e => funext fun d => ?_)
  -- After a setup that failed no task is left, and the two runs go on alike.
  cases e with
  | some f => simp [atop, remaining, List.filter_append, filter_survives_tasks]
  | none =>
    have htasks (ts : List Task) : atop (ts.map .task ++ [.conclude name]) ⟨[], d, none⟩ =
        atop [.conclude name] ⟨ts.map .task, d, none⟩ := rfl
    rw [htasks, htasks, behaviour_atop, behaviour_atop, Behaviour.doings_followed,
      Behaviour.doings_followed]
    exact congrArg (Behaviour.Followed · _) (h d)

/-- A run of a flow without endless loops does what a run of the flow does of which only the steps are left
that do something: it renders the same templates with the same variables, makes the same calls, pauses and
emits the same events, and ends on the same context with the same failure or none. -/
theorem flow_does_what_is_left (settings : Settings) (name : String) (defaults : ThinkDefaults)
    (flow : List Step) (hfinite : Step.finiteAll flow = true) (known : String → Bool) (c : Context) :
    (behaviour settings
      (ofScenario settings name (Task.ofSteps defaults (Step.pruneAll known flow)) c)).doings known =
    (behaviour settings (ofScenario settings name (Task.ofSteps defaults flow) c)).doings known :=
  doings_ofScenario fun c => doings_pruneAll c flow hfinite

/-- The inner loop becomes empty and stays; of the functions only the known one does. -/
theorem nested_markers_do_nothing :
    let settings : Settings := ⟨none, "project", "topic", false⟩
    let flow : List Step :=
      [ .log "first",
        .loop [.loop [.log "inner", .unrecognized .null] (.times 2), .message {}, .log "outer"]
          (.times 3),
        .function "known", .function "unknown" ]
    let left : List Step :=
      [.loop [.loop [] (.times 2), .message {}] (.times 3), .function "known"]
    let c : Context := ⟨.ofRandom 0, .ofList [], 0, none, .notStarted⟩
    Step.finiteAll flow = true ∧
    (behaviour settings (ofScenario settings "name" (Task.ofSteps {} left) c)).doings (· == "known") =
      (behaviour settings (ofScenario settings "name" (Task.ofSteps {} flow) c)).doings
        (· == "known") := by
  intro settings flow left c
  have hleft : Step.pruneAll (· == "known") flow = left := by
    simp [flow, left, Step.pruneAll, Step.prune]
  refine ⟨rfl, ?_⟩
  have hsame := flow_does_what_is_left settings "name" {} flow rfl (· == "known") c
  rw [hleft] at hsame
  exact hsame

end Run
end Engine
end TopicLoad
