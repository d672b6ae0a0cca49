import TopicLoad.Proofs.Endless
import TopicLoad.Proofs.Pruning

/-! What the variables of a run are bound to when it has ended. A loop binds one variable and gives it back
when it is left, whichever way that is and whatever its body has done to it. Nothing else but functions
binds any, so that a run that finds none of its functions ends with the variables it began with. -/
namespace TopicLoad
namespace Engine

namespace Frame

/-- A frame that leaves the variables alone, as do all frames that come of it, if just the known functions
are there. -/
def Still (known : String → Bool) : Frame → Prop
  | .task (.loop _ _) | .turn _ _ _ | .rebind _ | .deeds _ => False
  | .task (.call name) => known name = false
  | _ => True

variable {settings : Settings} {known : String → Bool} {c : Context} {failure : Option Fault} {f : Frame}
  {hs : History} {u : Upshot}

theorem Still.served (hf : f.Still known) (h : f.Served settings c failure hs u)
    (hheeds : ∀ a ∈ hs, a.Heeds known) :
    (∀ g ∈ (u.run c failure []).control, g.Still known) ∧ (u.run c failure []).context.vars = c.vars := by
  cases h with
  | loop | turn | done | rebind => exact hf.elim
  | finished | became | emitted | paused | inspected => exact hf.elim
  | called name ds =>
    have hcalled : (some ds).isSome = known name := hheeds _ List.mem_cons_self
    have huncalled : known name = false := hf
    rw [huncalled] at hcalled
    cases hcalled
  | sentAtOnce _ _ _ _ _ _ s | settled _ _ _ _ s =>
    refine ⟨?_, rfl⟩
    have hsettled := Run.forall_settledFrames (c := c) (P := Still known) (fun _ => trivial)
      (fun _ => trivial) s
    simp only [Upshot.run, List.append_nil]
    exact List.forall_mem_append.mpr ⟨hsettled, List.forall_mem_singleton.mpr trivial⟩
  | _ => simp [Upshot.run, Still]

end Frame
namespace Run

variable {settings : Settings} {known : String → Bool} {defaults : ThinkDefaults} {c c' d : Context}
  {r r' : Run} {hs : History} {e : Option Fault}

/-- All that is left to do leaves the variables alone, which are bound as said. -/
def Still (known : String → Bool) (vars : Vars) (r : Run) : Prop :=
  (∀ f ∈ r.control, f.Still known) ∧ r.context.vars = vars

theorem Still.moves {vars : Vars} (hm : Moves settings r hs r') (hheeds : ∀ a ∈ hs, a.Heeds known)
    (hr : r.Still known vars) : r'.Still known vars := by
  obtain ⟨_ | ⟨f, after⟩, c, failure⟩ := r
  · exact absurd hm not_moves_nil
  obtain ⟨hfs, hvars⟩ := hr
  obtain ⟨hf, hafter⟩ := List.forall_mem_cons.mp hfs
  obtain ⟨u, hu, rfl⟩ := moves_cons_iff.mp hm
  obtain ⟨hgs, hkept⟩ := hf.served hu hheeds
  refine ⟨Upshot.forall_run hgs hafter, ?_⟩
  cases u <;> exact hkept.trans hvars

/-- Work that ends with the variables it began with if just the known functions are there. -/
def Restores (settings : Settings) (known : String → Bool) (fs : List Frame) : Prop :=
  ∀ c hs d e, (∀ a ∈ hs, a.Heeds known) → Ends settings ⟨fs, c, none⟩ hs d e → d.vars = c.vars

theorem restores_of_still {fs : List Frame} (hfs : ∀ f ∈ fs, f.Still known) :
    Restores settings known fs := by
  intro c hs d e hheeds h
  have hbegin : Still known c.vars ⟨fs, c, none⟩ := ⟨hfs, rfl⟩
  have hend : Still known c.vars ⟨[], d, e⟩ := h.keeps Still.moves hheeds hbegin
  exact hend.2

theorem Restores.append {fs gs : List Frame} (hfs : Restores settings known fs)
    (hgs : Restores settings known gs) (hgone : gs.filter Frame.survives = []) :
    Restores settings known (fs ++ gs) := by
  intro c hs d e hheeds h
  have hfirst : Ends settings (atop gs ⟨fs, c, none⟩) hs d e := h
  obtain ⟨hs₁, c', e', hs₂, h₁, h₂, rfl⟩ := (ends_atop_iff _).mp hfirst
  obtain ⟨hheeds₁, hheeds₂⟩ := List.forall_mem_append.mp hheeds
  have hvars₁ : c'.vars = c.vars := hfs _ _ _ _ hheeds₁ h₁
  cases e' with
  | none =>
    have hvars₂ : d.vars = c'.vars := hgs _ _ _ _ hheeds₂ h₂
    exact hvars₂.trans hvars₁
  | some f =>
    rw [atop_of_some, hgone] at h₂
    obtain ⟨-, rfl, -⟩ := ends_nil_iff.mp h₂
    exact hvars₁

/-! ## Loops -/

theorem turns_of_loop {count : LoopCount} {body : List Task}
    (h : Ends settings (ofTask (.loop count body) c) hs d e) :
    ∃ c', Turns settings count body 0 (c.setVar loopVar none) hs c' e ∧
      d = c'.setVar loopVar (c.vars.get? loopVar) := by
  have hwork : work settings [.task (.loop count body)] c hs (.ended e d) := h
  rw [work_loop] at hwork
  cases hwork with
  | @ended _ _ c' _ hturns hd => exact ⟨c', turns_of_ends hturns, hd⟩

/-- If the body of a loop leaves the variables as it found them, the turns change at most what the loop
variable is bound to. By induction on the turns. -/
theorem Turns.set_vars {count : LoopCount} {body : List Task} {turns : Nat}
    (hbody : Restores settings known (body.map .task)) (h : Turns settings count body turns c hs d e)
    (hheeds : ∀ a ∈ hs, a.Heeds known) (b : Option Json) :
    d.vars.set loopVar b = c.vars.set loopVar b := by
  induction h with
  | done => rfl
  | @broken turns c d hs f hn hfailed =>
    have hvars : d.vars = (c.setVar loopVar (some (.ofNat (turns + 1)))).vars :=
      hbody _ _ _ _ hheeds hfailed
    rw [hvars, Context.setVar, Vars.set_set]
  | @next turns c c' d hs hs' e hn hpassed hrest ih =>
    obtain ⟨hheeds₁, hheeds₂⟩ := List.forall_mem_append.mp hheeds
    have hvars : c'.vars = (c.setVar loopVar (some (.ofNat (turns + 1)))).vars :=
      hbody _ _ _ _ hheeds₁ hpassed
    have hlater := ih (List.forall_mem_cons.mp hheeds₂).2
    rw [hlater, hvars, Context.setVar, Vars.set_set]

theorem Restores.loop {count : LoopCount} {body : List Task}
    (hbody : Restores settings known (body.map .task)) :
    Restores settings known [.task (.loop count body)] := by
  intro c hs d e hheeds h
  obtain ⟨c', hturns, rfl⟩ := turns_of_loop h
  calc (c'.setVar loopVar (c.vars.get? loopVar)).vars
      = (c.setVar loopVar none).vars.set loopVar (c.vars.get? loopVar) := hturns.set_vars hbody hheeds _
    _ = c.vars.set loopVar (c.vars.get? loopVar) := Vars.set_set ..
    _ = c.vars := Vars.set_eq_self rfl

/-! ## Flows -/

mutual

theorem restores_step : ∀ s : Step, (∀ name, .function name ∈ s.leaves → known name = false) →
    Restores settings known [.task (Task.ofStep defaults s)]
  | .loop ss count, h => Restores.loop (restores_steps ss h)
  | .function name, h => by
    have hname : known name = false := h name List.mem_cons_self
    exact restores_of_still (List.forall_mem_singleton.mpr hname)
  | .think _, _ | .log _, _ | .message _, _ | .unrecognized _, _ =>
    restores_of_still (List.forall_mem_singleton.mpr trivial)

theorem restores_steps : ∀ ss : List Step,
    (∀ name, .function name ∈ Step.leavesAll ss → known name = false) →
    Restores settings known ((Task.ofSteps defaults ss).map .task)
  | [], _ => restores_of_still (List.forall_mem_nil _)
  | s :: ss, h => by
    have hs := restores_step s fun name hname => h name (List.mem_append_left _ hname)
    have hss := restores_steps ss fun name hname => h name (List.mem_append_right _ hname)
    have hboth := hs.append hss (filter_survives_tasks _)
    simpa using hboth

end

theorem restores_ofScenario {name : String} {tasks : List Task}
    (htasks : Restores settings known (tasks.map .task)) (hheeds : ∀ a ∈ hs, a.Heeds known)
    (h : Ends settings (ofScenario settings name tasks c) hs d e) : d.vars = c.vars := by
  rcases ends_ofScenario h with ⟨f, -, rfl, -⟩ | ⟨topic, hs₁, d', e', hs₂, rfl, h₁, h₂⟩
  · rfl
  · have hinner := (List.forall_mem_append.mp (List.forall_mem_append.mp hheeds).2).1
    have hvars := htasks _ _ _ _ hinner h₁
    cases e' with
    | none =>
      obtain ⟨-, rfl, -⟩ := ends_conclude_completed h₂
      exact hvars
    | some f =>
      obtain ⟨-, rfl, -⟩ := ends_conclude_broken h₂
      exact hvars

/-- Whatever functions do in its body, a loop that ends, with or without a failure, has bound its variable
as it was bound before, or left it unbound; so has a loop with other work behind it before the run goes on
with that. A run of a scenario whose functions are not there ends, whichever way it does, with just the
variables it began with. -/
theorem loops_leave_no_trace (settings : Settings) :
    (∀ count body c hs d e, Ends settings (ofTask (.loop count body) c) hs d e →
      d.vars.get? loopVar = c.vars.get? loopVar) ∧
    (∀ count body after c hs q, Path settings ⟨.task (.loop count body) :: after, c, none⟩ hs q →
      (∃ r, Path settings (ofTask (.loop count body) c) hs r ∧ q = atop after r) ∨
      ∃ hs₁ d e hs₂, Ends settings (ofTask (.loop count body) c) hs₁ d e ∧
        d.vars.get? loopVar = c.vars.get? loopVar ∧
        Path settings ⟨remaining e after, d, e⟩ hs₂ q ∧ hs = hs₁ ++ hs₂) ∧
    (∀ known defaults flow name c hs d e,
      (∀ f, .function f ∈ Step.leavesAll flow → known f = false) → (∀ a ∈ hs, a.Heeds known) →
      Ends settings (ofScenario settings name (Task.ofSteps defaults flow) c) hs d e →
      d.vars = c.vars) := by
  have hloop : ∀ count body c hs d e, Ends settings (ofTask (.loop count body) c) hs d e →
      d.vars.get? loopVar = c.vars.get? loopVar := by
    intro count body c hs d e h
    obtain ⟨c', -, rfl⟩ := turns_of_loop h
    exact Context.get?_setVar_self c' loopVar _
  refine ⟨hloop, ?_, ?_⟩
  · intro count body after c hs q h
    have hatop : Path settings (atop after (ofTask (.loop count body) c)) hs q := h
    rcases path_atop_iff.mp hatop with hwithin | ⟨hs₁, d, e, hs₂, hends, hrest, rfl⟩
    · exact .inl hwithin
    · exact .inr ⟨hs₁, d, e, hs₂, hends, hloop _ _ _ _ _ _ hends, hrest, rfl⟩
  · intro known defaults flow name c hs d e hunknown hheeds h
    exact restores_ofScenario (restores_steps flow hunknown) hheeds h

/-- A function drops all variables, that of the loop included, before its loop fails. In a whole run an
endless loop fails within another loop. -/
theorem failed_loops_leave_no_trace :
    let settings : Settings := ⟨none, "project", "topic", false⟩
    let c : Context := ⟨.ofRandom 0, .ofList [("$loopCount", .ofNat 7), ("size", .ofNat 1)], 0, none,
      .notStarted⟩
    let spoiled : Context := { c with vars := .ofList [] }
    let body : List Task := [.call "spoil", .publish {}]
    let flow : List Step := [.loop [.function "absent", .loop [.message {}] .infinite] (.times 2)]
    (∃ d, Ends settings (ofTask (.loop (.times 2) body) c)
        [.called "spoil" (c.setVar loopVar (some (.ofNat 1))) (some [.become spoiled])] d
        (some .missingTemplate) ∧
      d.vars.get? loopVar = c.vars.get? loopVar) ∧
    ∃ hs d, (∀ f, .function f ∈ Step.leavesAll flow → (f == "spoil") = false) ∧
      (∀ a ∈ hs, a.Heeds (· == "spoil")) ∧
      Ends settings (ofScenario settings "name" (Task.ofSteps {} flow) c) hs d (some .missingTemplate) ∧
      d.vars = c.vars := by
  intro settings c spoiled body flow
  obtain ⟨hloop, -, hflow⟩ := loops_leave_no_trace settings
  have hspoiled : ∃ d, Ends settings (ofTask (.loop (.times 2) body) c)
      [.called "spoil" (c.setVar loopVar (some (.ofNat 1))) (some [.become spoiled])] d
      (some .missingTemplate) :=
    ⟨_, .served (.loop _ _) <| .served (.turn _ rfl) <| .served (.called "spoil" [.become spoiled]) <|
      .served (.became spoiled []) <| .served .finished <| .served (.untemplated rfl) <|
      .served (.rebind _) <| ends_nil_iff.mpr ⟨rfl, rfl, rfl⟩⟩
  have hunknown : ∀ f, .function f ∈ Step.leavesAll flow → (f == "spoil") = false := by
    simp [flow, Step.leavesAll, Step.leaves]
  obtain ⟨hs, d, hends, hheeds⟩ : ∃ hs d, Ends settings
      (ofScenario settings "name" (Task.ofSteps {} flow) c) hs d (some .missingTemplate) ∧
      ∀ a ∈ hs, a.Heeds (· == "spoil") :=
    ⟨_, _, .served (.emit .started) <| .served .enter <| .served (.note _) <|
      .served (.acquired _ ⟨"address", {}⟩) <| .served (.loop _ _) <| .served (.turn _ rfl) <|
      .served (.uncalled "absent") <| .served (.note _) <| .served (.loop _ _) <|
      .served (.turn _ rfl) <| .served (.untemplated rfl) <| .served (.rebind _) <|
      .served (.rebind _) <| .served (.broken "name" rfl) <| ends_nil_iff.mpr ⟨rfl, rfl, rfl⟩,
      by simp [Happening.Heeds]⟩
  obtain ⟨d', hspoils⟩ := hspoiled
  have hgiven := hloop _ _ _ _ _ _ hspoils
  have hvars := hflow _ _ _ _ _ _ _ _ hunknown hheeds hends
  exact ⟨⟨d', hspoils, hgiven⟩, hs, d, hunknown, hheeds, hends, hvars⟩

end Run
end Engine
end TopicLoad
