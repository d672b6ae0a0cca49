import TopicLoad.Proofs.Unrolling

/-! Work that comes to an end whatever the world answers. Work made of parts that come to an end does so
itself; the only part that may not is a loop without a count. -/
namespace TopicLoad
namespace Engine
namespace Run

def Next (settings : Settings) (r' r : Run) : Prop := ∃ hs, Moves settings r hs r'

/-- No run that works off these frames can make moves for ever. -/
def Halts (settings : Settings) (fs : List Frame) : Prop := ∀ c, Acc (Next settings) ⟨fs, c, none⟩

variable {settings : Settings} {c : Context} {failure : Option Fault} {r : Run}
  {fs gs : List Frame} {f : Frame}

theorem acc_nil : Acc (Next settings) ⟨[], c, failure⟩ :=
  .intro _ fun _ ⟨_, hm⟩ => absurd hm not_moves_nil

theorem acc_survivors (fs : List Frame) (c : Context) (failure : Option Fault) :
    Acc (Next settings) ⟨fs.filter Frame.survives, c, failure⟩ := by
  induction fs generalizing c with
  | nil => exact acc_nil
  | cons f fs ih =>
    by_cases hf : f.survives = true
    · rw [List.filter_cons_of_pos hf]
      refine .intro _ fun r ⟨hs, hm⟩ => ?_
      obtain ⟨u, hu, rfl⟩ := moves_cons_iff.mp hm
      cases f with
      | rebind outer =>
        cases hu
        exact ih _
      | conclude name =>
        cases hu with
        | completed => exact ih _
        | broken => exact ih _
      | _ => cases hf
    · rw [List.filter_cons_of_neg hf]
      exact ih c

theorem acc_atop (hfs : Halts settings fs) (h : Acc (Next settings) r) :
    Acc (Next settings) (atop fs r) := by
  induction h with
  | intro r _ ih =>
    by_cases hr : r.control = []
    · obtain ⟨_, c, failure⟩ := r
      obtain rfl : _ = [] := hr
      cases failure with
      | none => exact hfs c
      | some g => exact acc_survivors fs c (some g)
    · refine .intro _ fun r' ⟨hs, hm⟩ => ?_
      obtain ⟨q, hm', rfl⟩ := (moves_atop_iff fs hr).mp hm
      exact ih q ⟨hs, hm'⟩

theorem Path.acc {r' : Run} {hs : History} (h : Path settings r hs r') (hr : Acc (Next settings) r) :
    Acc (Next settings) r' := by
  induction h with
  | refl => exact hr
  | step hm _ ih => exact ih (hr.inv ⟨_, hm⟩)

theorem halts_nil : Halts settings [] := fun _ => acc_nil

theorem Halts.append (hfs : Halts settings fs) (hgs : Halts settings gs) : Halts settings (fs ++ gs) :=
  fun c => acc_atop hgs (hfs c)

theorem halts_of_forall (h : ∀ f ∈ fs, Halts settings [f]) : Halts settings fs := by
  induction fs with
  | nil => exact halts_nil
  | cons f fs ih =>
    obtain ⟨hf, hfs⟩ := List.forall_mem_cons.mp h
    exact hf.append (ih hfs)

theorem halts_of_served (h : ∀ {c hs gs d}, f.Served settings c none hs (.went gs d) → Halts settings gs) :
    Halts settings [f] := by
  refine fun c => .intro _ fun r ⟨hs, hm⟩ => ?_
  obtain ⟨u, hu, rfl⟩ := moves_cons_iff.mp hm
  cases u with
  | went gs d =>
    have hgs : Acc (Next settings) ⟨gs, d, none⟩ := h hu d
    simpa [Upshot.run] using hgs
  | failed g => exact acc_nil

theorem halts_report (hf : f.report?.isSome) : Halts settings [f] := by
  obtain ⟨a, ha⟩ := Option.isSome_iff_exists.mp hf
  refine halts_of_served fun hu => ?_
  obtain ⟨-, hu⟩ := (Frame.served_report_iff ha).mp hu
  cases hu
  exact halts_nil

theorem halts_settledFrames (c : Context) (s : Settlement) : Halts settings (settledFrames c s) :=
  halts_of_forall fun f hf => halts_report (settledFrames_report s f hf)

theorem halts_surrender : Halts settings [.surrender] := halts_of_served fun hu => by
  cases hu
  exact halts_nil

theorem halts_fail (g : Fault) : Halts settings [.fail g] := halts_of_served fun hu => by cases hu

theorem halts_rebind (outer : Option Json) : Halts settings [.rebind outer] := fun c =>
  acc_survivors [.rebind outer] c none

theorem halts_conclude (name : String) : Halts settings [.conclude name] := fun c =>
  acc_survivors [.conclude name] c none

theorem halts_deeds (ds : List Deed) : Halts settings [.deeds ds] := by
  induction ds with
  | nil =>
    refine halts_of_served fun hu => ?_
    cases hu
    exact halts_nil
  | cons d ds ih =>
    refine halts_of_served fun hu => ?_
    cases hu <;> exact ih

theorem halts_await (topic : Handle) (number : Nat) (inFlight : List Nat) (kept : Option Fault) :
    Halts settings [.send topic [] number inFlight kept] := by
  induction hn : inFlight.length generalizing inFlight kept with
  | zero =>
    obtain rfl := List.length_eq_zero_iff.mp hn
    refine halts_of_served fun hu => ?_
    cases hu with
    | settled _ _ _ hmem => cases hmem
    | delivered => exact halts_nil
  | succ n ih =>
    refine halts_of_served fun hu => ?_
    cases hu with
    | delivered => exact halts_nil
    | settled _ _ _ hmem s =>
      refine (halts_settledFrames _ s).append (ih _ _ ?_)
      rw [List.length_erase_of_mem hmem]
      omega

theorem halts_send (topic : Handle) (queue : List Outgoing) (number : Nat) (inFlight : List Nat)
    (kept : Option Fault) : Halts settings [.send topic queue number inFlight kept] := by
  induction queue generalizing number inFlight kept with
  | nil => exact halts_await topic number inFlight kept
  | cons m queue ih =>
    refine halts_of_served fun hu => ?_
    cases hu with
    | sent => exact ih _ _ _
    | sentAtOnce _ _ _ _ _ _ s => exact (halts_settledFrames _ s).append (ih _ _ _)

theorem halts_render (template : Json) (attributes : Keyed String) (left : Nat)
    (ready : List (List UInt8)) : Halts settings [.render template attributes left ready] := by
  induction left generalizing ready with
  | zero =>
    refine halts_of_served fun hu => ?_
    cases hu with
    | dry => exact halts_nil
    | dispatch => exact halts_send _ _ _ _ _
  | succ left ih =>
    refine halts_of_served fun hu => ?_
    cases hu with
    | rendered => exact Halts.append (halts_report rfl) (ih _)
    | unrendered => exact Halts.append (halts_report rfl) (halts_fail _)

theorem halts_turn {body : List Task} (hbody : Halts settings (body.map .task)) (left turns : Nat) :
    Halts settings [.turn (.times (turns + left)) turns body] := by
  induction left generalizing turns with
  | zero =>
    refine halts_of_served fun hu => ?_
    cases hu with
    | turn _ hn => simp [goesOn] at hn
    | done => exact halts_nil
  | succ left ih =>
    have hnext : turns + (left + 1) = turns + 1 + left := by omega
    refine halts_of_served fun hu => ?_
    cases hu with
    | turn => exact hbody.append (halts_surrender.append (hnext ▸ ih (turns + 1)))
    | done => exact halts_nil

variable {defaults : ThinkDefaults}

mutual

theorem halts_step : ∀ s : Step, s.finite = true → Halts settings [.task (Task.ofStep defaults s)]
  | .loop ss .infinite, h => by simp [Step.finite, LoopCount.isInfinite] at h
  | .loop ss (.times n), h => by
    have hss : Step.finiteAll ss = true := by simpa [Step.finite, LoopCount.isInfinite] using h
    have hturn := halts_turn (halts_steps ss hss) n 0
    rw [Nat.zero_add] at hturn
    refine halts_of_served fun hu => ?_
    cases hu with
    | loop => exact hturn.append (halts_rebind _)
  | .think d, _ => halts_of_served fun hu => by
    cases hu
    exact halts_nil
  | .function name, _ => halts_of_served fun hu => by
    cases hu with
    | called => exact halts_deeds _
    | uncalled => exact halts_report rfl
  | .log text, _ => halts_of_served fun hu => by
    cases hu
    exact halts_surrender.append (halts_report rfl)
  | .message spec, _ => halts_of_served fun hu => by
    cases hu with
    | copyless => exact halts_nil
    | publish => exact halts_render _ _ _ _
  | .unrecognized v, _ => halts_of_served fun hu => by
    cases hu
    exact halts_nil

theorem halts_steps : ∀ ss : List Step, Step.finiteAll ss = true →
    Halts settings ((Task.ofSteps defaults ss).map .task)
  | [], _ => halts_nil
  | s :: ss, h => by
    obtain ⟨hs, hss⟩ : s.finite = true ∧ Step.finiteAll ss = true := by
      simpa [Step.finiteAll] using h
    exact (halts_step s hs).append (halts_steps ss hss)

end

theorem acc_ofScenario {flow : List Step} (h : Step.finiteAll flow = true) (name : String) (c : Context) :
    Acc (Next settings) (ofScenario settings name (Task.ofSteps defaults flow) c) := by
  have hopening : Halts settings (.emit .started :: .enter :: setup settings) := by
    refine halts_of_forall fun f hf => ?_
    simp only [setup, List.mem_cons, List.not_mem_nil, or_false] at hf
    rcases hf with rfl | rfl | rfl | rfl
    · exact halts_report rfl
    · exact halts_of_served fun hu => by
        cases hu
        exact halts_nil
    · exact halts_report rfl
    · exact halts_of_served fun hu => by
        cases hu
        exact halts_nil
  exact ((hopening.append (halts_steps flow h)).append (halts_conclude name)) c

end Run

/-- What the world does if nothing goes wrong: topics are acquired, templates are rendered, calls settle
without a failure, and there are no functions to call. -/
def Happening.GoesWell : Happening → Prop
  | .acquired _ _ (.error _) | .rendered _ _ (.error _) | .called _ _ (some _) => False
  | .published _ _ _ (some s) | .settled _ s => s.failure? = none
  | _ => True

theorem Frame.exists_served (settings : Settings) (c : Context) (failure : Option Fault) (f : Frame) :
    ∃ hs u, f.Served settings c failure hs u ∧ ∀ a ∈ hs, a.GoesWell := by
  cases f with
  | emit e => exact ⟨_, _, .emit e, List.forall_mem_singleton.mpr trivial⟩
  | note line => exact ⟨_, _, .note line, List.forall_mem_singleton.mpr trivial⟩
  | enter => exact ⟨_, _, .enter, List.forall_mem_nil _⟩
  | acquire place =>
    exact ⟨_, _, .acquired place ⟨"", {}⟩, List.forall_mem_singleton.mpr trivial⟩
  | task t =>
    cases t with
    | loop count body => exact ⟨_, _, .loop count body, List.forall_mem_nil _⟩
    | pause p => exact ⟨_, _, .pause p, List.forall_mem_singleton.mpr trivial⟩
    | call name => exact ⟨_, _, .uncalled name, List.forall_mem_singleton.mpr trivial⟩
    | mark text => exact ⟨_, _, .mark text, List.forall_mem_nil _⟩
    | skip => exact ⟨_, _, .skip, List.forall_mem_nil _⟩
    | publish spec =>
      cases hj : spec.json with
      | none => exact ⟨_, _, .untemplated hj, List.forall_mem_nil _⟩
      | some template =>
        by_cases hn : spec.copies ≤ 0
        · exact ⟨_, _, .copyless hj hn, List.forall_mem_nil _⟩
        · exact ⟨_, _, .publish hj (Int.not_le.mp hn), List.forall_mem_nil _⟩
  | turn count turns body =>
    cases hn : Run.goesOn count turns with
    | true => exact ⟨_, _, .turn body hn, List.forall_mem_nil _⟩
    | false => exact ⟨_, _, .done body hn, List.forall_mem_nil _⟩
  | surrender => exact ⟨_, _, .surrender, List.forall_mem_singleton.mpr trivial⟩
  | rebind outer => exact ⟨_, _, .rebind outer, List.forall_mem_nil _⟩
  | render template attributes left ready =>
    cases left with
    | succ left =>
      exact ⟨_, _, .rendered template attributes left ready .null, List.forall_mem_singleton.mpr trivial⟩
    | zero =>
      cases hd : settings.dryRun with
      | true => exact ⟨_, _, .dry template attributes ready hd, List.forall_mem_singleton.mpr trivial⟩
      | false =>
        cases hp : c.publisher with
        | none => exact ⟨_, _, .topicless template attributes ready hd hp, List.forall_mem_nil _⟩
        | some topic => exact ⟨_, _, .dispatch template attributes ready hd hp, List.forall_mem_nil _⟩
  | send topic queue number inFlight kept =>
    cases queue with
    | cons m queue =>
      exact ⟨_, _, .sent topic m queue number inFlight kept, List.forall_mem_singleton.mpr trivial⟩
    | nil =>
      cases inFlight with
      | cons i inFlight =>
        exact ⟨_, _, .settled topic number kept List.mem_cons_self ⟨.ok "", 0⟩,
          List.forall_mem_singleton.mpr rfl⟩
      | nil =>
        cases kept with
        | none => exact ⟨_, _, .delivered topic number, List.forall_mem_nil _⟩
        | some g => exact ⟨_, _, .undelivered topic number g, List.forall_mem_nil _⟩
  | deeds ds =>
    cases ds with
    | nil => exact ⟨_, _, .finished, List.forall_mem_nil _⟩
    | cons d ds =>
      cases d with
      | become d => exact ⟨_, _, .became d ds, List.forall_mem_nil _⟩
      | emit e => exact ⟨_, _, .emitted e ds, List.forall_mem_singleton.mpr trivial⟩
      | pause d => exact ⟨_, _, .paused d ds, List.forall_mem_singleton.mpr trivial⟩
      | inspect => exact ⟨_, _, .inspected ds, List.forall_mem_singleton.mpr trivial⟩
  | fail g => exact ⟨_, _, .fail g, List.forall_mem_nil _⟩
  | conclude name =>
    cases failure with
    | none => exact ⟨_, _, .completed name rfl, List.forall_mem_nil _⟩
    | some g => exact ⟨_, _, .broken name rfl, List.forall_mem_singleton.mpr trivial⟩

theorem Run.exists_moves (settings : Settings) {r : Run} (hr : r.control ≠ []) :
    ∃ hs r', Run.Moves settings r hs r' ∧ ∀ a ∈ hs, a.GoesWell := by
  obtain ⟨_ | ⟨f, fs⟩, c, failure⟩ := r
  · exact absurd rfl hr
  obtain ⟨hs, u, hu, hwell⟩ := f.exists_served settings c failure
  exact ⟨hs, _, moves_of_served hu, hwell⟩

end Engine
end TopicLoad
