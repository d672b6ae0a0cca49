import TopicLoad.Proofs.Course
import TopicLoad.Proofs.Halting
import TopicLoad.Proofs.Rereading

/-! Which flows can end. A flow without endless loops comes to an end whatever the world answers. A flow
that was read has no loop of zero turns, so that it cannot pass by an endless loop anywhere in it: a run of it
that ends has failed, with the failure of its setup or of a step that is no loop. -/
namespace TopicLoad

namespace Step

mutual

/-- The steps within a step that are no loops. -/
def leaves : Step → List Step
  | .loop steps _ => leavesAll steps
  | leaf => [leaf]

def leavesAll : List Step → List Step
  | [] => []
  | s :: ss => s.leaves ++ leavesAll ss

end

theorem finiteAll_eq_false_iff {ss : List Step} : finiteAll ss = false ↔ ∃ s ∈ ss, s.finite = false := by
  induction ss with
  | nil => simp [finiteAll]
  | cons s ss ih =>
    cases hs : s.finite with
    | true => simp [finiteAll, hs, ih]
    | false => simp [finiteAll, hs]

theorem leaves_subset_leavesAll {s : Step} {ss : List Step} (hs : s ∈ ss) : s.leaves ⊆ leavesAll ss := by
  induction ss with
  | nil => cases hs
  | cons s' ss ih =>
    rw [leavesAll]
    rcases List.mem_cons.mp hs with rfl | hs
    · exact List.subset_append_left _ _
    · exact List.subset_append_of_subset_right _ (ih hs)

end Step
namespace Engine

/-- A frame whose work goes on for ever unless it fails: there is an endless loop in it that is not passed
by. -/
inductive Frame.Endless (defaults : ThinkDefaults) : Frame → Prop where
  | step {s : Step} (hread : s.Readable) (h : s.finite = false) :
    Endless defaults (.task (Task.ofStep defaults s))
  | forever (turns : Nat) (body : List Task) : Endless defaults (.turn .infinite turns body)
  | turn {n turns : Nat} {ss : List Step} (hturns : turns < n) (hread : ∀ s ∈ ss, s.Readable)
    (h : Step.finiteAll ss = false) :
    Endless defaults (.turn (.times n) turns (Task.ofSteps defaults ss))

namespace Frame

variable {settings : Settings} {defaults : ThinkDefaults} {c : Context} {failure : Option Fault}
  {f : Frame} {hs : History} {u : Upshot}

theorem endless_of_loop {ss : List Step} {count : LoopCount} (hread : (Step.loop ss count).Readable)
    (h : (Step.loop ss count).finite = false) :
    Endless defaults (.turn count 0 (Task.ofSteps defaults ss)) := by
  cases count with
  | infinite => exact .forever 0 _
  | times n =>
    cases hread with
    | loop hsteps hcount =>
      refine .turn hcount.1 hsteps ?_
      simpa [Step.finite, LoopCount.isInfinite] using h

theorem Endless.served (hf : f.Endless defaults) (h : f.Served settings c failure hs u) :
    ∃ gs d, u = .went gs d ∧ ∃ g ∈ gs, g.Endless defaults := by
  cases hf with
  | @step s hread hs =>
    cases s with
    | loop ss count =>
      cases h with
      | loop => exact ⟨_, _, rfl, _, List.mem_cons_self, endless_of_loop hread hs⟩
    | _ => cases hs
  | forever turns body =>
    cases h with
    | turn => exact ⟨_, _, rfl, _, by simp, .forever (turns + 1) body⟩
    | done _ hn => cases hn
  | @turn n turns ss hturns hread hss =>
    cases h with
    | turn =>
      obtain ⟨s, hs, hinfinite⟩ := Step.finiteAll_eq_false_iff.mp hss
      refine ⟨_, _, rfl, .task (Task.ofStep defaults s), ?_, .step (hread s hs) hinfinite⟩
      simp only [Task.ofSteps_eq_map, List.map_map, List.mem_append, List.mem_map]
      exact Or.inl ⟨s, hs, rfl⟩
    | done _ hn => simp [Run.goesOn, hturns] at hn

end Frame
namespace Run

variable {settings : Settings} {defaults : ThinkDefaults} {c d : Context} {r r' : Run} {hs : History}
  {f : Fault} {e : Option Fault}

/-- A run that cannot come to its end but by failing. -/
def Endless (defaults : ThinkDefaults) (r : Run) : Prop :=
  r.failure = none → ∃ f ∈ r.control, f.Endless defaults

theorem Endless.moves (hm : Moves settings r hs r') (hr : r.Endless defaults) : r'.Endless defaults := by
  obtain ⟨_ | ⟨f, fs⟩, c, failure⟩ := r
  · exact absurd hm not_moves_nil
  obtain ⟨u, hu, rfl⟩ := moves_cons_iff.mp hm
  cases u with
  | failed g => exact fun hnone => by cases hnone
  | went gs d =>
    intro hnone
    obtain ⟨g, hg, hendless⟩ := hr hnone
    rcases List.mem_cons.mp hg with rfl | hg
    · obtain ⟨_, _, hwent, g', hg', hendless'⟩ := hendless.served hu
      cases hwent
      exact ⟨g', List.mem_append_left _ hg', hendless'⟩
    · exact ⟨g, List.mem_append_right _ hg, hendless⟩

theorem Endless.failed (hr : r.Endless defaults) (h : Ends settings r hs d e) : e ≠ none := by
  have hend : Endless defaults ⟨[], d, e⟩ :=
    (h.shows (fun hm hq => ⟨hq.moves hm, fun _ _ => trivial⟩) hr).1
  rintro rfl
  obtain ⟨f, hf, -⟩ := hend rfl
  cases hf

theorem endless_ofScenario {flow : List Step} (hread : ∀ s ∈ flow, s.Readable)
    (h : Step.finiteAll flow = false) (name : String) (c : Context) :
    Endless defaults (ofScenario settings name (Task.ofSteps defaults flow) c) := by
  intro _
  obtain ⟨s, hs, hinfinite⟩ := Step.finiteAll_eq_false_iff.mp h
  refine ⟨.task (Task.ofStep defaults s), ?_, .step (hread s hs) hinfinite⟩
  simp only [ofScenario, Task.ofSteps_eq_map, List.map_map, List.mem_append, List.mem_map]
  exact Or.inl (Or.inr ⟨s, hs, rfl⟩)

/-- One of some steps has failed within what was shown. -/
def LeafFailed (settings : Settings) (defaults : ThinkDefaults) (leaves : List Step) (hs : History)
    (f : Fault) : Prop :=
  ∃ leaf ∈ leaves, ∃ c hs' d, Ends settings (ofTask (Task.ofStep defaults leaf) c) hs' d (some f) ∧
    hs' <:+: hs

theorem LeafFailed.mono {leaves leaves' : List Step} {hs' : History}
    (h : LeafFailed settings defaults leaves hs f) (hleaves : leaves ⊆ leaves') (hhs : hs <:+: hs') :
    LeafFailed settings defaults leaves' hs' f := by
  obtain ⟨leaf, hleaf, c, hs₁, d, hends, hinfix⟩ := h
  exact ⟨leaf, hleaves hleaf, c, hs₁, d, hends, hinfix.trans hhs⟩

theorem Turns.body_failed {count : LoopCount} {body : List Task} {turns : Nat}
    (h : Turns settings count body turns c hs d e) (he : e = some f) :
    ∃ c' hs' d', Ends settings ⟨body.map .task, c', none⟩ hs' d' (some f) ∧ hs' <:+: hs := by
  induction h with
  | done => cases he
  | broken hn hbody =>
    cases he
    exact ⟨_, _, _, hbody, List.infix_rfl⟩
  | @next _ _ _ _ hs hs' _ hn hbody hrest ih =>
    obtain ⟨c', hs₁, d', hends, hinfix⟩ := ih he
    refine ⟨c', hs₁, d', hends, hinfix.trans ?_⟩
    exact (List.suffix_cons _ _).isInfix.trans (List.suffix_append _ _).isInfix

theorem ends_rebind {outer : Option Json} {failure : Option Fault}
    (h : Ends settings ⟨[.rebind outer], c, failure⟩ hs d e) : hs = [] ∧ d = c.setVar loopVar outer ∧
      e = failure := by
  obtain ⟨_, _, _, hu, hr, rfl⟩ := ends_cons_iff.mp h
  cases hu
  obtain ⟨rfl, rfl, rfl⟩ := ends_nil_iff.mp hr
  exact ⟨rfl, rfl, rfl⟩

theorem ends_loop_failed {count : LoopCount} {body : List Task}
    (h : Ends settings ⟨[.task (.loop count body)], c, none⟩ hs d (some f)) :
    ∃ c' hs' d', Ends settings ⟨body.map .task, c', none⟩ hs' d' (some f) ∧ hs' <:+: hs := by
  obtain ⟨_, _, hs₁, hu, hr, rfl⟩ := ends_cons_iff.mp h
  cases hu
  have hloop : Ends settings (atop [.rebind (c.vars.get? loopVar)]
      ⟨[.turn count 0 body], c.setVar loopVar none, none⟩) hs₁ d (some f) := hr
  obtain ⟨hs₂, c', e', hs₃, hturns, hrebind, rfl⟩ := (ends_atop_iff _).mp hloop
  have hrest : atop [.rebind (c.vars.get? loopVar)] ⟨[], c', e'⟩ =
      ⟨[.rebind (c.vars.get? loopVar)], c', e'⟩ := by cases e' <;> rfl
  obtain ⟨-, -, he⟩ := ends_rebind (hrest ▸ hrebind)
  obtain ⟨c₁, hs', d', hbody, hinfix⟩ := (turns_of_ends hturns).body_failed he.symm
  exact ⟨c₁, hs', d', hbody, hinfix.trans (List.prefix_append _ _).isInfix⟩

mutual

theorem leafFailed_step : ∀ (s : Step) {c d : Context} {hs : History},
    Ends settings (ofTask (Task.ofStep defaults s) c) hs d (some f) →
    LeafFailed settings defaults s.leaves hs f
  | .loop ss count, c, d, hs, h => by
    obtain ⟨c', hs', d', hbody, hinfix⟩ := ends_loop_failed h
    exact (leafFailed_steps ss hbody).mono (List.Subset.refl _) hinfix
  | .think _, c, d, hs, h | .function _, c, d, hs, h | .log _, c, d, hs, h
  | .message _, c, d, hs, h | .unrecognized _, c, d, hs, h =>
    ⟨_, List.mem_cons_self, c, hs, d, h, List.infix_rfl⟩

theorem leafFailed_steps : ∀ (ss : List Step) {c d : Context} {hs : History},
    Ends settings ⟨(Task.ofSteps defaults ss).map .task, c, none⟩ hs d (some f) →
    LeafFailed settings defaults (Step.leavesAll ss) hs f
  | [], c, d, hs, h => by
    obtain ⟨-, -, he⟩ := ends_nil_iff.mp h
    cases he
  | s :: ss, c, d, hs, h => by
    have hfirst : Ends settings (atop ((Task.ofSteps defaults ss).map .task)
        (ofTask (Task.ofStep defaults s) c)) hs d (some f) := h
    obtain ⟨hs₁, c', e', hs₂, h₁, h₂, rfl⟩ := (ends_atop_iff _).mp hfirst
    cases e' with
    | none =>
      exact (leafFailed_steps ss h₂).mono (List.subset_append_right _ _) (List.suffix_append _ _).isInfix
    | some g =>
      rw [atop_of_some, filter_survives_tasks, List.append_nil] at h₂
      obtain ⟨-, -, he⟩ := ends_nil_iff.mp h₂
      cases he
      exact (leafFailed_step s h₁).mono (List.subset_append_left _ _) (List.prefix_append _ _).isInfix

end

theorem Legs.ends {legs : List Leg} (h : Legs settings c legs d) : ∀ leg ∈ legs,
    Ends settings (ofTask leg.task leg.before) leg.shown leg.after leg.failure := by
  induction h with
  | nil => simp
  | cons leg h _ ih => exact List.forall_mem_cons.mpr ⟨h, ih⟩

theorem scenario_failed {name : String} {flow : List Step}
    (h : Ends settings (ofScenario settings name (Task.ofSteps defaults flow) c) hs d (some f)) :
    d.state = .failed ∧
      (Happening.acquired ⟨settings.project, settings.topic⟩ {} (.error f) ∈ hs ∨
        LeafFailed settings defaults (Step.leavesAll flow) hs f) := by
  cases course_of_ends h with
  | unacquired => exact ⟨rfl, Or.inl (by simp [opening])⟩
  | @broken topic legs last d f hlegs hfront hok hlast =>
    refine ⟨rfl, Or.inr ?_⟩
    have hmem : last ∈ legs ++ [last] := by simp
    have htask : last.task ∈ Task.ofSteps defaults flow :=
      hfront.subset (List.mem_map_of_mem hmem)
    rw [Task.ofSteps_eq_map] at htask
    obtain ⟨s, hs, hlasttask⟩ := List.mem_map.mp htask
    have hends := hlegs.ends last hmem
    rw [hlast, ← hlasttask] at hends
    refine (leafFailed_step s hends).mono (Step.leaves_subset_leavesAll hs) ?_
    refine ⟨opening settings (.ok topic) ++ legs.flatMap Leg.shown, epitaph name f, ?_⟩
    simp

/-- A run of a flow that was read, whatever the world answers: without an endless loop it comes to its end,
since it can go on as long as it has not ended, but not for ever; with an endless loop anywhere in the flow
it does not end but with the failure of its setup or of a step that is no loop. -/
theorem flow_ends_unless_endless (settings : Settings) (defaults : ThinkDefaults) (name : String)
    (flow : List Step) (hread : ∀ s ∈ flow, ∃ v, Step.ofJson v = .ok s) (c : Context) :
    (Step.finiteAll flow = true →
      Acc (Next settings) (ofScenario settings name (Task.ofSteps defaults flow) c) ∧
      ∀ hs r, Path settings (ofScenario settings name (Task.ofSteps defaults flow) c) hs r →
        (∃ r', Next settings r' r) ∨ r.control = []) ∧
    (Step.finiteAll flow = false → ∀ hs d e,
      Ends settings (ofScenario settings name (Task.ofSteps defaults flow) c) hs d e →
      d.state = .failed ∧ ∃ f, e = some f ∧
        (Happening.acquired ⟨settings.project, settings.topic⟩ {} (.error f) ∈ hs ∨
          LeafFailed settings defaults (Step.leavesAll flow) hs f)) := by
  refine ⟨fun hfinite => ⟨acc_ofScenario hfinite name c, fun hs r _ => ?_⟩, fun hinfinite hs d e h => ?_⟩
  · by_cases hr : r.control = []
    · exact Or.inr hr
    · obtain ⟨hs', r', hm, -⟩ := exists_moves settings hr
      exact Or.inl ⟨r', hs', hm⟩
  · have hreadable : ∀ s ∈ flow, s.Readable := fun s hs => by
      obtain ⟨v, hv⟩ := hread s hs
      exact Step.readable_ofJson hv
    cases e with
    | none => exact absurd rfl ((endless_ofScenario hreadable hinfinite name c).failed h)
    | some f =>
      obtain ⟨hstate, hfailure⟩ := scenario_failed h
      exact ⟨hstate, f, rfl, hfailure⟩

/-- An endless loop within a loop of two turns is left by the failure of the step in it, which has no
template. -/
theorem endless_loop_within_counted_loop :
    (∀ s ∈ [Step.loop [.loop [.message {}] .infinite] (.times 2)], ∃ v, Step.ofJson v = .ok s) ∧
    Step.finiteAll [.loop [.loop [.message {}] .infinite] (.times 2)] = false ∧
    ∃ hs d, Ends ⟨none, "project", "topic", false⟩
        (ofScenario ⟨none, "project", "topic", false⟩ "name"
          (Task.ofSteps {} [.loop [.loop [.message {}] .infinite] (.times 2)])
          ⟨.ofRandom 0, .ofList [], 0, none, .notStarted⟩) hs d (some .missingTemplate) ∧
      d.state = .failed ∧ ∃ f, some Fault.missingTemplate = some f ∧
        (Happening.acquired ⟨"project", "topic"⟩ {} (.error f) ∈ hs ∨
          LeafFailed ⟨none, "project", "topic", false⟩ {}
            (Step.leavesAll [.loop [.loop [.message {}] .infinite] (.times 2)]) hs f) := by
  have hread : ∀ s ∈ [Step.loop [.loop [.message {}] .infinite] (.times 2)],
      ∃ v, Step.ofJson v = .ok s := by
    refine List.forall_mem_singleton.mpr ⟨.obj [("count", .num (.int 2)), ("loop", .arr
      [.obj [("loop", .arr [.obj [("message", .str "text")]])]])], ?_⟩
    exact Step.ofJson_times ⟨by decide, by decide⟩ rfl
  obtain ⟨hs, d, hends⟩ : ∃ hs d, Ends ⟨none, "project", "topic", false⟩
      (ofScenario ⟨none, "project", "topic", false⟩ "name"
        (Task.ofSteps {} [.loop [.loop [.message {}] .infinite] (.times 2)])
        ⟨.ofRandom 0, .ofList [], 0, none, .notStarted⟩) hs d (some .missingTemplate) :=
    ⟨_, _, .served (.emit .started) <| .served .enter <| .served (.note _) <|
      .served (.acquired _ ⟨"address", {}⟩) <| .served (.loop _ _) <| .served (.turn _ rfl) <|
      .served (.loop _ _) <| .served (.turn _ rfl) <| .served (.untemplated rfl) <|
      .served (.rebind _) <| .served (.rebind _) <| .served (.broken "name" rfl) <|
      ends_nil_iff.mpr ⟨rfl, rfl, rfl⟩⟩
  obtain ⟨-, hendless⟩ := flow_ends_unless_endless ⟨none, "project", "topic", false⟩ {} "name" _ hread
    ⟨.ofRandom 0, .ofList [], 0, none, .notStarted⟩
  exact ⟨hread, rfl, hs, d, hends, hendless rfl hs d _ hends⟩

end Run
end Engine
end TopicLoad
