import TopicLoad.Proofs.Looping

/-! Loops and what they stand for. Unrolling a flow lists the steps that are run, each with what the loop
variable is bound to while it is; running the flow looks like running that list from its head to its
end. -/
namespace TopicLoad

namespace Step

mutual

def finite : Step → Bool
  | .loop steps count => !count.isInfinite && finiteAll steps
  | _ => true

def finiteAll : List Step → Bool
  | [] => true
  | s :: ss => s.finite && finiteAll ss

end

/-- A step that is no loop, and what the loop variable is bound to while it is run. -/
structure Occurrence where
  turn : Option Json
  leaf : Step

mutual

/-- The leaves of a step in the order in which they are run. Each is given the turn of the innermost loop
around it, and `turn` if there is none. -/
def unroll (turn : Option Json) : Step → List Occurrence
  | .loop _ .infinite => []
  | .loop steps (.times n) =>
    (List.range n).flatMap fun i => unrollAll (some (.ofNat (i + 1))) steps
  | leaf => [⟨turn, leaf⟩]

def unrollAll (turn : Option Json) : List Step → List Occurrence
  | [] => []
  | s :: ss => unroll turn s ++ unrollAll turn ss

end

end Step
namespace Engine

/-- No function that is called binds the loop variable anew. -/
def Happening.KeepsLoopVar : Happening → Prop
  | .called _ c (some ds) => ∀ d, Deed.become d ∈ ds → d.vars.get? loopVar = c.vars.get? loopVar
  | _ => True

/-- Everything counts but that a run lets others go on. -/
def Happening.isEffect : Happening → Bool
  | .surrendered => false
  | _ => true

namespace Run

/-- Runs leaves one after another, and gives the loop variable a binding at the end. -/
def straight (defaults : ThinkDefaults) (binding : Option Json) (os : List Step.Occurrence) :
    List Frame :=
  os.flatMap (fun o => [.rebind o.turn, .task (Task.ofStep defaults o.leaf)]) ++ [.rebind binding]

end Run

namespace Frame

/-- A frame that leaves the loop variable bound as it is, as do all frames that come of it. -/
def Keeps (b : Option Json) : Frame → Prop
  | .task (.loop _ _) | .turn _ _ _ | .rebind _ => False
  | .deeds ds => ∀ d, Deed.become d ∈ ds → d.vars.get? loopVar = b
  | _ => True

variable {settings : Settings} {c : Context} {failure : Option Fault} {f : Frame} {hs : History}
  {b : Option Json}

theorem Keeps.served {fs : List Frame} {d : Context} (hf : f.Keeps b) (hc : c.vars.get? loopVar = b)
    (h : f.Served settings c failure hs (.went fs d)) (hk : ∀ a ∈ hs, a.KeepsLoopVar) :
    d.vars.get? loopVar = b ∧ ∀ g ∈ fs, g.Keeps b := by
  cases h with
  | loop | turn | rebind | done => exact hf.elim
  | called name ds =>
    have hds : (Happening.called name c (some ds)).KeepsLoopVar := hk _ List.mem_cons_self
    refine ⟨hc, fun g hg => ?_⟩
    obtain rfl := List.mem_singleton.mp hg
    exact fun e he => (hds e he).trans hc
  | became d ds =>
    refine ⟨hf d List.mem_cons_self, fun g hg => ?_⟩
    obtain rfl := List.mem_singleton.mp hg
    exact fun e he => hf e (List.mem_cons_of_mem _ he)
  | emitted | paused | inspected =>
    refine ⟨hc, fun g hg => ?_⟩
    obtain rfl := List.mem_singleton.mp hg
    exact fun e he => hf e (List.mem_cons_of_mem _ he)
  | sentAtOnce | settled =>
    refine ⟨hc, fun g hg => ?_⟩
    rcases List.mem_append.mp hg with hg | hg
    · exact Run.forall_settledFrames (fun _ => trivial) (fun _ => trivial) _ g hg
    · obtain rfl := List.mem_singleton.mp hg
      trivial
  | _ =>
    refine ⟨hc, ?_⟩
    simp [Keeps]

end Frame

namespace Run

variable {settings : Settings} {c d : Context} {r r' : Run} {hs : History} {b : Option Json}
  {defaults : ThinkDefaults}

/-- The loop variable is bound as said, and the rest of the run keeps it. -/
def KeepsLoopVar (b : Option Json) (r : Run) : Prop :=
  r.context.vars.get? loopVar = b ∧ ∀ f ∈ r.control, f.Keeps b

theorem KeepsLoopVar.moves (hm : Moves settings r hs r') (hk : ∀ a ∈ hs, a.KeepsLoopVar)
    (hr : r.KeepsLoopVar b) : r'.KeepsLoopVar b := by
  obtain ⟨fs, c, failure⟩ := r
  obtain ⟨hc, hfs⟩ := hr
  cases fs with
  | nil => exact absurd hm not_moves_nil
  | cons f fs =>
    obtain ⟨hf, hfs⟩ := List.forall_mem_cons.mp hfs
    obtain ⟨u, hu, rfl⟩ := moves_cons_iff.mp hm
    cases u with
    | went gs d =>
      obtain ⟨hd, hgs⟩ := hf.served hc hu hk
      exact ⟨hd, List.forall_mem_append.mpr ⟨hgs, hfs⟩⟩
    | failed g => exact ⟨hc, fun f hf => hfs f (List.mem_filter.mp hf).1⟩

theorem KeepsLoopVar.ended {s : Step} {e : Option Fault} (hs' : ∀ ss count, s ≠ .loop ss count)
    (h : Path settings ⟨[.task (Task.ofStep defaults s)], c, none⟩ hs ⟨[], d, e⟩)
    (hk : ∀ a ∈ hs, a.KeepsLoopVar) : d.vars.get? loopVar = c.vars.get? loopVar := by
  have hbegin : KeepsLoopVar (c.vars.get? loopVar) ⟨[.task (Task.ofStep defaults s)], c, none⟩ := by
    refine ⟨rfl, fun f hf => ?_⟩
    obtain rfl := List.mem_singleton.mp hf
    cases s with
    | loop ss count => exact absurd rfl (hs' ss count)
    | _ => trivial
  exact (h.keeps KeepsLoopVar.moves hk hbegin).1

end Run

namespace Behaviour

def effects (p : Behaviour) : Behaviour := .Seen Happening.KeepsLoopVar Happening.isEffect p

variable {p : Behaviour} {q : Context → Behaviour} {f : Context → Context} {c : Context}

@[simp] theorem effects_idle : effects (.Idle c) = .Idle c := seen_idle

theorem effects_andThen : effects (.AndThen p q) = .AndThen (effects p) fun c => effects (q c) :=
  seen_andThen

theorem effects_closing : effects (.Closing p f) = .Closing (effects p) f := seen_closing

end Behaviour
namespace Run

variable {settings : Settings} {defaults : ThinkDefaults} {c : Context} {b : Option Json}

def flat (settings : Settings) (defaults : ThinkDefaults) : List Step.Occurrence → Context → Behaviour
  | [], c => .Idle c
  | o :: os, c =>
    .AndThen (work settings [.task (Task.ofStep defaults o.leaf)] (c.setVar loopVar o.turn))
      (flat settings defaults os)

theorem flat_begins (os : List Step.Occurrence) (c : Context) :
    flat settings defaults os c [] .underway := by
  cases os with
  | nil => exact .underway
  | cons o os => exact .underway (behaviour_begins settings _)

theorem flat_append (os os' : List Step.Occurrence) (c : Context) :
    flat settings defaults (os ++ os') c =
      .AndThen (flat settings defaults os c) (flat settings defaults os') := by
  induction os generalizing c with
  | nil => exact (Behaviour.idle_andThen (flat_begins os' c)).symm
  | cons o os ih =>
    simp only [List.cons_append, flat, Behaviour.andThen_assoc]
    exact congrArg _ (funext ih)

theorem closing_effects_flat (os : List Step.Occurrence) (x : Option Json) :
    Behaviour.Closing (flat settings defaults os (c.setVar loopVar x)).effects (·.setVar loopVar b) =
      .Closing (flat settings defaults os c).effects (·.setVar loopVar b) := by
  cases os with
  | nil => simp [flat, Behaviour.closing_idle]
  | cons o os => simp [flat]

theorem effects_leaf {s : Step} (hs : ∀ ss count, s ≠ .loop ss count) :
    (work settings [.task (Task.ofStep defaults s)] (c.setVar loopVar b)).effects =
      .Closing (flat settings defaults [⟨b, s⟩] c).effects (·.setVar loopVar b) := by
  have hflat : flat settings defaults [⟨b, s⟩] c =
      work settings [.task (Task.ofStep defaults s)] (c.setVar loopVar b) :=
    Behaviour.andThen_idle fun _ _ h => behaviour_underway h
  rw [hflat]
  refine (Behaviour.closing_eq_self ?_).symm
  rintro _ e d ⟨h, hk⟩
  have hd : d.vars.get? loopVar = b := by simpa using KeepsLoopVar.ended hs h hk
  exact Context.setVar_eq_self hd

theorem effects_surrender (fs : List Frame) :
    (work settings (.surrender :: fs) c).effects = (work settings fs c).effects :=
  seen_surrender trivial rfl

/-- The turns that a loop has left, if its body is known to look like its leaves. By induction on their
number; what a turn binds the loop variable to is undone at the end of the loop. -/
theorem effects_turns {body : List Step}
    (hbody : ∀ (b : Option Json) (c : Context),
      (work settings ((Task.ofSteps defaults body).map .task) (c.setVar loopVar b)).effects =
        .Closing (flat settings defaults (Step.unrollAll b body) c).effects (·.setVar loopVar b))
    (left turns : Nat) (c : Context) :
    Behaviour.Closing
        (work settings [.turn (.times (turns + left)) turns (Task.ofSteps defaults body)] c).effects
        (·.setVar loopVar b) =
      .Closing (flat settings defaults ((List.range' turns left).flatMap fun i =>
        Step.unrollAll (some (.ofNat (i + 1))) body) c).effects (·.setVar loopVar b) := by
  induction left generalizing turns c with
  | zero =>
    rw [work_turn_done (by simp [goesOn])]
    rfl
  | succ left ih =>
    have hnext : turns + (left + 1) = turns + 1 + left := by omega
    rw [work_turn (by simp [goesOn]), List.range'_succ, List.flatMap_cons, flat_append,
      Behaviour.effects_andThen, Behaviour.effects_andThen, hbody]
    refine Behaviour.closing_closing_andThen (by simp) fun d => ?_
    rw [effects_surrender, hnext, ih]
    exact closing_effects_flat _ _

mutual

theorem effects_step (b : Option Json) (c : Context) : ∀ s : Step, s.finite = true →
    (work settings [.task (Task.ofStep defaults s)] (c.setVar loopVar b)).effects =
      .Closing (flat settings defaults (s.unroll b) c).effects (·.setVar loopVar b)
  | .loop ss .infinite, h => by simp [Step.finite, LoopCount.isInfinite] at h
  | .loop ss (.times n), h => by
    have hss : Step.finiteAll ss = true := by simpa [Step.finite, LoopCount.isInfinite] using h
    have hturns := @effects_turns settings defaults b ss (fun b c => effects_steps b c ss hss) n 0
      (c.setVar loopVar none)
    simp only [Nat.zero_add] at hturns
    rw [Task.ofStep_loop, work_loop, Behaviour.effects_closing, Context.setVar_setVar,
      Context.get?_setVar_self, hturns, closing_effects_flat, Step.unroll, List.range_eq_range']
  | .think _, _ => effects_leaf (by simp)
  | .function _, _ => effects_leaf (by simp)
  | .log _, _ => effects_leaf (by simp)
  | .message _, _ => effects_leaf (by simp)
  | .unrecognized _, _ => effects_leaf (by simp)

theorem effects_steps (b : Option Json) (c : Context) : ∀ ss : List Step, Step.finiteAll ss = true →
    (work settings ((Task.ofSteps defaults ss).map .task) (c.setVar loopVar b)).effects =
      .Closing (flat settings defaults (Step.unrollAll b ss) c).effects (·.setVar loopVar b)
  | [], _ => by
    simp only [Task.ofSteps_nil, List.map_nil, work_nil, Step.unrollAll, flat, Behaviour.effects_idle,
      Behaviour.closing_idle]
  | s :: ss, h => by
    obtain ⟨hs, hss⟩ : s.finite = true ∧ Step.finiteAll ss = true := by
      simpa [Step.finiteAll] using h
    rw [Task.ofSteps_cons, work_tasks_cons, Step.unrollAll, flat_append, Behaviour.effects_andThen,
      Behaviour.effects_andThen, effects_step b c s hs]
    exact Behaviour.andThen_closing fun d => effects_steps b d ss hss

end

theorem behaviour_straight_failed (os : List Step.Occurrence) (c : Context) (f : Fault) :
    behaviour settings ⟨(straight defaults b os).filter Frame.survives, c, some f⟩ =
      behaviour settings ⟨[], c.setVar loopVar b, some f⟩ := by
  induction os generalizing c with
  | nil => exact behaviour_silent rfl
  | cons o os ih =>
    have hrebind :
        behaviour settings ⟨(straight defaults b (o :: os)).filter Frame.survives, c, some f⟩ =
          behaviour settings ⟨(straight defaults b os).filter Frame.survives,
            c.setVar loopVar o.turn, some f⟩ := behaviour_silent rfl
    rw [hrebind, ih, Context.setVar_setVar]

theorem work_straight (os : List Step.Occurrence) (c : Context) :
    work settings (straight defaults b os) c =
      .Closing (flat settings defaults os c) (·.setVar loopVar b) := by
  induction os generalizing c with
  | nil => rw [flat, ← work_nil]; exact work_rebind [] b
  | cons o os ih =>
    have hrebind : work settings (straight defaults b (o :: os)) c =
        work settings ([.task (Task.ofStep defaults o.leaf)] ++ straight defaults b os)
          (c.setVar loopVar o.turn) := behaviour_silent rfl
    rw [hrebind, flat]
    exact work_append_closing _ (behaviour_straight_failed os) ih

/-- A flow looks like its leaves, each run with the loop variable bound to the turn of the innermost loop
around it. -/
theorem flow_looks_unrolled (settings : Settings) (defaults : ThinkDefaults) (flow : List Step)
    (hfinite : Step.finiteAll flow = true) (c : Context) :
    (work settings ((Task.ofSteps defaults flow).map .task) c).effects =
      (work settings (straight defaults (c.vars.get? loopVar)
        (Step.unrollAll (c.vars.get? loopVar) flow)) c).effects := by
  have hc : c.setVar loopVar (c.vars.get? loopVar) = c := Context.setVar_eq_self rfl
  have hflow := @effects_steps settings defaults (c.vars.get? loopVar) c flow hfinite
  rw [hc] at hflow
  rw [work_straight, Behaviour.effects_closing, hflow]

/-- What comes after an inner loop finds the turn of the outer one again. -/
theorem nested_loop_looks_unrolled :
    Step.finiteAll [.loop [.loop [.log "inner"] (.times 2), .log "outer"] (.times 2)] = true ∧
    (work ⟨none, "project", "topic", false⟩
      ((Task.ofSteps {} [.loop [.loop [.log "inner"] (.times 2), .log "outer"] (.times 2)]).map .task)
      ⟨.ofRandom 0, .ofList [], 0, none, .notStarted⟩).effects =
    (work ⟨none, "project", "topic", false⟩
      (straight {} none
        [ ⟨some (.ofNat 1), .log "inner"⟩, ⟨some (.ofNat 2), .log "inner"⟩,
          ⟨some (.ofNat 1), .log "outer"⟩,
          ⟨some (.ofNat 1), .log "inner"⟩, ⟨some (.ofNat 2), .log "inner"⟩,
          ⟨some (.ofNat 2), .log "outer"⟩ ])
      ⟨.ofRandom 0, .ofList [], 0, none, .notStarted⟩).effects :=
  ⟨rfl, flow_looks_unrolled _ _ _ rfl _⟩

end Run
end Engine
end TopicLoad
