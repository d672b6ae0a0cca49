import TopicLoad.Proofs.Company
import TopicLoad.Proofs.Course
import TopicLoad.Proofs.Fanout
import TopicLoad.Proofs.Halting

/-! How much work a flow makes. If nothing goes wrong, every run of a flow renders as many templates and
publishes as many messages as its steps and the turns of its loops call for, however the runs are
served. -/
namespace TopicLoad

namespace Step

mutual

/-- The number of messages that a step makes. -/
def workload : Step → Nat
  | .loop steps (.times n) => n * workloadAll steps
  | .message spec => if spec.json.isSome then spec.copies.toNat else 0
  | _ => 0

def workloadAll : List Step → Nat
  | [] => 0
  | s :: ss => s.workload + workloadAll ss

end

mutual

def templated : Step → Bool
  | .loop steps _ => templatedAll steps
  | .message spec => spec.json.isSome
  | _ => true

def templatedAll : List Step → Bool
  | [] => true
  | s :: ss => s.templated && templatedAll ss

end

end Step
namespace Engine

/-- Something of which neither work nor metrics come. -/
def Happening.Idle (a : Happening) : Prop := a.render? = none ∧ a.call? = none ∧ a.event? = none

/-- What is shown by work that renders `n` templates and makes `k` calls, unless it is a dry run. No
event comes from a user-supplied function. -/
structure Yields (settings : Settings) (n k : Nat) (hs : History) : Prop where
  renders : (hs.filterMap Happening.render?).length = n
  live : settings.dryRun = false → (hs.filterMap Happening.call?).length = k
  dry : settings.dryRun = true →
    hs.filterMap Happening.call? = [] ∧ hs.filterMap Happening.event? = []
  native : ∀ e, Happening.emitted .function e ∉ hs

namespace Yields

variable {settings : Settings} {n k n' k' : Nat} {hs hs' : History}

theorem idle (h : ∀ a ∈ hs, a.Idle) : Yields settings 0 0 hs := by
  have hrender : hs.filterMap Happening.render? = [] :=
    List.filterMap_eq_nil_iff.mpr fun a ha => (h a ha).1
  have hcall : hs.filterMap Happening.call? = [] :=
    List.filterMap_eq_nil_iff.mpr fun a ha => (h a ha).2.1
  have hevent : hs.filterMap Happening.event? = [] :=
    List.filterMap_eq_nil_iff.mpr fun a ha => (h a ha).2.2
  refine ⟨congrArg List.length hrender, fun _ => congrArg List.length hcall,
    fun _ => ⟨hcall, hevent⟩, fun e he => ?_⟩
  cases (h _ he).2.2

theorem append (h : Yields settings n k hs) (h' : Yields settings n' k' hs') :
    Yields settings (n + n') (k + k') (hs ++ hs') := by
  refine ⟨?_, fun hd => ?_, fun hd => ?_, fun e he => ?_⟩
  · rw [List.filterMap_append, List.length_append, h.renders, h'.renders]
  · rw [List.filterMap_append, List.length_append, h.live hd, h'.live hd]
  · rw [List.filterMap_append, List.filterMap_append, (h.dry hd).1, (h.dry hd).2, (h'.dry hd).1,
      (h'.dry hd).2]
    exact ⟨rfl, rfl⟩
  · rcases List.mem_append.mp he with he | he
    · exact h.native e he
    · exact h'.native e he

end Yields

namespace Run

variable {settings : Settings} {c d : Context} {hs : History} {e : Option Fault} {f : Frame}
  {fs gs : List Frame} {n k n' k' : Nat}

/-- Work that never fails where a topic has been acquired and nothing goes wrong, and that renders `n`
templates and makes `k` calls, unless it is a dry run. -/
def Prospers (settings : Settings) (fs : List Frame) (n k : Nat) : Prop :=
  ∀ c hs d e, c.publisher.isSome → (∀ a ∈ hs, a.GoesWell) → Ends settings ⟨fs, c, none⟩ hs d e →
    e = none ∧ d.publisher.isSome ∧ Yields settings n k hs

theorem prospers_nil : Prospers settings [] 0 0 := by
  intro c hs d e hc _ h
  obtain ⟨rfl, rfl, rfl⟩ := ends_nil_iff.mp h
  exact ⟨rfl, hc, .idle (List.forall_mem_nil _)⟩

theorem Prospers.append (hfs : Prospers settings fs n k) (hgs : Prospers settings gs n' k') :
    Prospers settings (fs ++ gs) (n + n') (k + k') := by
  intro c hs d e hc hwell h
  have hfirst : Ends settings (atop gs ⟨fs, c, none⟩) hs d e := h
  obtain ⟨hs₁, c', e', hs₂, h₁, h₂, rfl⟩ := (ends_atop_iff _).mp hfirst
  obtain ⟨hwell₁, hwell₂⟩ := List.forall_mem_append.mp hwell
  obtain ⟨rfl, hc', hyields₁⟩ := hfs _ _ _ _ hc hwell₁ h₁
  obtain ⟨he, hd, hyields₂⟩ := hgs _ _ _ _ hc' hwell₂ h₂
  exact ⟨he, hd, hyields₁.append hyields₂⟩

theorem prospers_of_served {n k : Nat} (i j i' j' : Nat) (hn : i + i' = n) (hk : j + j' = k)
    (h : ∀ {c hs u}, c.publisher.isSome → f.Served settings c none hs u → (∀ a ∈ hs, a.GoesWell) →
      ∃ gs d, u = .went gs d ∧ d.publisher.isSome ∧ Yields settings i j hs ∧
        Prospers settings gs i' j') :
    Prospers settings [f] n k := by
  intro c hs d e hc hwell h'
  obtain ⟨hs₁, u, hs₂, hu, hr, rfl⟩ := ends_cons_iff.mp h'
  obtain ⟨hwell₁, hwell₂⟩ := List.forall_mem_append.mp hwell
  obtain ⟨gs, c', rfl, hc', hyields, hgs⟩ := h hc hu hwell₁
  rw [Upshot.run, List.append_nil] at hr
  obtain ⟨he, hd, hyields'⟩ := hgs _ _ _ _ hc' hwell₂ hr
  exact ⟨he, hd, hn ▸ hk ▸ hyields.append hyields'⟩

theorem prospers_of_idle (h : ∀ {c hs u}, c.publisher.isSome → f.Served settings c none hs u →
      (∀ a ∈ hs, a.GoesWell) → ∃ gs d, u = .went gs d ∧ d.publisher.isSome ∧ (∀ a ∈ hs, a.Idle) ∧
        Prospers settings gs n k) :
    Prospers settings [f] n k :=
  prospers_of_served 0 0 n k (Nat.zero_add n) (Nat.zero_add k) fun hc hu hwell => by
    obtain ⟨gs, d, rfl, hd, hidle, hgs⟩ := h hc hu hwell
    exact ⟨gs, d, rfl, hd, .idle hidle, hgs⟩

theorem prospers_note (line : Log.Line) : Prospers settings [.note line] 0 0 :=
  prospers_of_idle fun hc hu _ => by
    cases hu
    exact ⟨[], _, rfl, hc, List.forall_mem_singleton.mpr ⟨rfl, rfl, rfl⟩, prospers_nil⟩

theorem prospers_surrender : Prospers settings [.surrender] 0 0 := prospers_of_idle fun hc hu _ => by
  cases hu
  exact ⟨[], _, rfl, hc, List.forall_mem_singleton.mpr ⟨rfl, rfl, rfl⟩, prospers_nil⟩

theorem prospers_rebind (outer : Option Json) : Prospers settings [.rebind outer] 0 0 :=
  prospers_of_idle fun hc hu _ => by
    cases hu
    exact ⟨[], _, rfl, hc, List.forall_mem_nil _, prospers_nil⟩

section

variable (hd : settings.dryRun = false)

include hd

theorem yields_live (hrenders : (hs.filterMap Happening.render?).length = n)
    (hcalls : (hs.filterMap Happening.call?).length = k)
    (hnative : ∀ ev, Happening.emitted .function ev ∉ hs) : Yields settings n k hs := by
  refine ⟨hrenders, fun _ => hcalls, fun hdry => ?_, hnative⟩
  rw [hd] at hdry
  cases hdry

theorem prospers_emit (ev : Event) : Prospers settings [.emit ev] 0 0 :=
  prospers_of_served 0 0 0 0 rfl rfl fun hc hu _ => by
    cases hu
    exact ⟨[], _, rfl, hc, yields_live hd rfl rfl (by simp), prospers_nil⟩

theorem prospers_settledFrames {s : Settlement} (hs : s.failure? = none) (c : Context) :
    Prospers settings (settledFrames c s) 0 0 := by
  rw [settledFrames]
  cases hr : s.reply with
  | ok id => exact (prospers_note _).append ((prospers_emit hd _).append (prospers_emit hd _))
  | error g => simp [Settlement.failure?, hr] at hs

theorem prospers_await (topic : Handle) (number : Nat) (inFlight : List Nat) :
    Prospers settings [.send topic [] number inFlight none] 0 0 := by
  induction hn : inFlight.length generalizing inFlight with
  | zero =>
    obtain rfl := List.length_eq_zero_iff.mp hn
    refine prospers_of_idle fun hc hu _ => ?_
    cases hu with
    | settled _ _ _ hmem => cases hmem
    | delivered => exact ⟨[], _, rfl, hc, List.forall_mem_nil _, prospers_nil⟩
  | succ n ih =>
    refine prospers_of_idle fun hc hu hwell => ?_
    cases hu with
    | delivered => cases hn
    | settled _ _ _ hmem s =>
      have hsettled : s.failure? = none := hwell _ List.mem_cons_self
      refine ⟨_, _, rfl, hc, List.forall_mem_singleton.mpr ⟨rfl, rfl, rfl⟩, ?_⟩
      rw [firstFailure_eq_or, hsettled]
      refine (prospers_settledFrames hd hsettled _).append (ih _ ?_)
      rw [List.length_erase_of_mem hmem]
      omega

theorem prospers_send (topic : Handle) (queue : List Outgoing) (number : Nat) (inFlight : List Nat) :
    Prospers settings [.send topic queue number inFlight none] 0 queue.length := by
  induction queue generalizing number inFlight with
  | nil => exact prospers_await hd topic number inFlight
  | cons m queue ih =>
    refine prospers_of_served 0 1 0 queue.length rfl (Nat.add_comm _ _) fun {c} _ _ hc hu hwell => ?_
    cases hu with
    | sent => exact ⟨_, _, rfl, hc, yields_live hd rfl rfl (by simp), ih _ _⟩
    | sentAtOnce _ _ _ _ _ _ s =>
      have hsettled : s.failure? = none := hwell _ List.mem_cons_self
      have hrest := (prospers_settledFrames hd hsettled c).append (ih (number + 1) inFlight)
      refine ⟨_, _, rfl, hc, yields_live hd rfl rfl (by simp), ?_⟩
      rw [firstFailure_eq_or, hsettled]
      rwa [Nat.zero_add, Nat.zero_add] at hrest

end

theorem prospers_render (template : Json) (attributes : Keyed String) (left : Nat)
    (ready : List (List UInt8)) :
    Prospers settings [.render template attributes left ready] left (ready.length + left) := by
  induction left generalizing ready with
  | zero =>
    cases hd : settings.dryRun with
    | true =>
      refine prospers_of_served 0 ready.length 0 0 rfl rfl fun hc hu _ => ?_
      cases hu with
      | topicless _ _ _ hd' | dispatch _ _ _ hd' => rw [hd] at hd'; cases hd'
      | dry =>
        refine ⟨[], _, rfl, hc, ⟨rfl, fun hlive => ?_, fun _ => ⟨rfl, rfl⟩, by simp⟩, prospers_nil⟩
        rw [hd] at hlive
        cases hlive
    | false =>
      refine prospers_of_idle fun hc hu _ => ?_
      cases hu with
      | dry _ _ _ hd' => rw [hd] at hd'; cases hd'
      | topicless _ _ _ _ hp => rw [hp] at hc; cases hc
      | @dispatch _ _ _ topic =>
        have hsend := prospers_send hd topic (ready.map fun data => ⟨data, attributes⟩) 0 []
        rw [List.length_map] at hsend
        exact ⟨_, _, rfl, hc, List.forall_mem_nil _, hsend⟩
  | succ left ih =>
    refine prospers_of_served 1 0 left (ready.length + (left + 1)) (Nat.add_comm _ _)
      (Nat.zero_add _) fun hc hu hwell => ?_
    cases hu with
    | unrendered => exact (hwell _ List.mem_cons_self).elim
    | rendered _ _ _ _ v =>
      refine ⟨_, _, rfl, hc, ⟨rfl, fun _ => rfl, fun _ => ⟨rfl, rfl⟩, by simp⟩, ?_⟩
      have hrest (line : Log.Line) := (prospers_note line).append (ih (ready ++ [payload v]))
      simpa [Nat.add_assoc, Nat.add_comm 1] using hrest _

theorem prospers_turn {body : List Task} (hbody : Prospers settings (body.map .task) n k)
    (left turns : Nat) :
    Prospers settings [.turn (.times (turns + left)) turns body] (left * n) (left * k) := by
  induction left generalizing turns with
  | zero =>
    rw [Nat.zero_mul, Nat.zero_mul]
    refine prospers_of_idle fun hc hu _ => ?_
    cases hu with
    | turn _ hgoes => simp [goesOn] at hgoes
    | done => exact ⟨[], _, rfl, hc, List.forall_mem_nil _, prospers_nil⟩
  | succ left ih =>
    have hnext : turns + (left + 1) = turns + 1 + left := by omega
    refine prospers_of_idle fun hc hu _ => ?_
    cases hu with
    | done _ hgoes => simp [goesOn] at hgoes
    | turn =>
      have hrest := hbody.append (prospers_surrender.append (hnext ▸ ih (turns + 1)))
      refine ⟨_, _, rfl, hc, List.forall_mem_nil _, ?_⟩
      simpa [Nat.succ_mul, Nat.add_comm] using hrest

variable {defaults : ThinkDefaults}

mutual

theorem prospers_step : ∀ s : Step, s.finite = true → s.templated = true →
    Prospers settings [.task (Task.ofStep defaults s)] s.workload s.workload
  | .loop ss .infinite, h, _ => by simp [Step.finite, LoopCount.isInfinite] at h
  | .loop ss (.times n), h, ht => by
    have hss : Step.finiteAll ss = true := by simpa [Step.finite, LoopCount.isInfinite] using h
    have hturn := prospers_turn (prospers_steps ss hss ht) n 0
    rw [Nat.zero_add] at hturn
    refine prospers_of_idle fun hc hu _ => ?_
    cases hu with
    | loop => exact ⟨_, _, rfl, hc, List.forall_mem_nil _, hturn.append (prospers_rebind _)⟩
  | .think d, _, _ => prospers_of_idle fun hc hu _ => by
    cases hu
    exact ⟨[], _, rfl, hc, List.forall_mem_singleton.mpr ⟨rfl, rfl, rfl⟩, prospers_nil⟩
  | .function name, _, _ => prospers_of_idle fun hc hu hwell => by
    cases hu with
    | called => exact (hwell _ List.mem_cons_self).elim
    | uncalled =>
      exact ⟨_, _, rfl, hc, List.forall_mem_singleton.mpr ⟨rfl, rfl, rfl⟩, prospers_note _⟩
  | .log text, _, _ => prospers_of_idle fun hc hu _ => by
    cases hu
    exact ⟨_, _, rfl, hc, List.forall_mem_nil _, prospers_surrender.append (prospers_note _)⟩
  | .message spec, _, ht => prospers_of_idle fun hc hu _ => by
    have hworkload : (Step.message spec).workload = spec.copies.toNat := if_pos ht
    rw [hworkload]
    cases hu with
    | untemplated hj => simp [Step.templated, hj] at ht
    | copyless _ hn =>
      rw [Int.toNat_of_nonpos hn]
      exact ⟨[], _, rfl, hc, List.forall_mem_nil _, prospers_nil⟩
    | @publish _ template =>
      have hrender : Prospers settings [.render template (spec.attributes.getD []) spec.copies.toNat []]
          _ _ := prospers_render _ _ _ _
      rw [List.length_nil, Nat.zero_add] at hrender
      exact ⟨_, _, rfl, hc, List.forall_mem_nil _, hrender⟩
  | .unrecognized v, _, _ => prospers_of_idle fun hc hu _ => by
    cases hu
    exact ⟨[], _, rfl, hc, List.forall_mem_nil _, prospers_nil⟩

theorem prospers_steps : ∀ ss : List Step, Step.finiteAll ss = true → Step.templatedAll ss = true →
    Prospers settings ((Task.ofSteps defaults ss).map .task) (Step.workloadAll ss)
      (Step.workloadAll ss)
  | [], _, _ => prospers_nil
  | s :: ss, h, ht => by
    obtain ⟨hs, hss⟩ : s.finite = true ∧ Step.finiteAll ss = true := by
      simpa [Step.finiteAll] using h
    obtain ⟨hts, htss⟩ : s.templated = true ∧ Step.templatedAll ss = true := by
      simpa [Step.templatedAll] using ht
    exact (prospers_step s hs hts).append (prospers_steps ss hss htss)

end

theorem scenario_prospers {flow : List Step} (hfinite : Step.finiteAll flow = true)
    (htemplated : Step.templatedAll flow = true) {name : String} (hwell : ∀ a ∈ hs, a.GoesWell)
    (h : Ends settings (ofScenario settings name (Task.ofSteps defaults flow) c) hs d e) :
    e = none ∧ d.state = .completed ∧ ∃ topic hs', hs = opening settings (.ok topic) ++ hs' ∧
      Yields settings (Step.workloadAll flow) (Step.workloadAll flow) hs' := by
  rcases ends_ofScenario h with ⟨f, rfl, -, -⟩ | ⟨topic, hs₁, d', e', hs₂, rfl, htasks, hend⟩
  · have hrefused : Happening.GoesWell
        (.acquired ⟨settings.project, settings.topic⟩ {} (.error f)) := hwell _ (by simp [opening])
    exact hrefused.elim
  · obtain ⟨hwell₁, -⟩ := List.forall_mem_append.mp (List.forall_mem_append.mp hwell).2
    obtain ⟨rfl, -, hyields⟩ := prospers_steps flow hfinite htemplated _ _ _ _ rfl hwell₁ htasks
    obtain ⟨rfl, rfl, rfl⟩ := ends_conclude_completed hend
    exact ⟨rfl, rfl, topic, hs₁ ++ [], rfl, (List.append_nil hs₁).symm ▸ hyields⟩

end Run

theorem recordAll_started {events : List Event} (h : ∀ ev ∈ events, ev = .started) (m : Metrics) :
    (m.recordAll events).counters = m.counters ∧ (m.recordAll events).histograms = m.histograms := by
  induction events generalizing m with
  | nil => exact ⟨rfl, rfl⟩
  | cons ev events ih =>
    obtain ⟨rfl, hevents⟩ := List.forall_mem_cons.mp h
    exact ih hevents (m.record .started)

theorem Reached.only_started {m : Metrics} {ms : List Member} (h : Reached m ms)
    (hevents : ∀ x ∈ ms, ∀ ev ∈ x.shown.filterMap Happening.event?, ev = .started) :
    m.counters = [] ∧ m.histograms = [] := by
  induction h with
  | nil => exact ⟨rfl, rfl⟩
  | begun _ _ _ _ _ ih => exact ih fun x hx => hevents x (List.mem_append_left _ hx)
  | @served m ms ms' x hs r _ _ _ ih =>
    obtain ⟨hms, hrest⟩ := List.forall_mem_append.mp hevents
    obtain ⟨hx, hms'⟩ := List.forall_mem_cons.mp hrest
    rw [List.filterMap_append] at hx
    obtain ⟨hshown, hnew⟩ := List.forall_mem_append.mp hx
    obtain ⟨hcounters, hhistograms⟩ :=
      ih (List.forall_mem_append.mpr ⟨hms, List.forall_mem_cons.mpr ⟨hshown, hms'⟩⟩)
    obtain ⟨hcounters', hhistograms'⟩ := recordAll_started hnew m
    exact ⟨hcounters'.trans hcounters, hhistograms'.trans hhistograms⟩
  | dropped _ _ ih =>
    obtain ⟨hms, hrest⟩ := List.forall_mem_append.mp hevents
    exact ih (List.forall_mem_append.mpr ⟨hms, List.forall_mem_cons.mpr (List.forall_mem_cons.mp hrest)⟩)

namespace Member

def Next (ms' ms : List Member) : Prop :=
  ∃ front x back hs r, ms = front ++ x :: back ∧ Run.Moves x.settings x.run hs r ∧
    ms' = front ++ { x with run := r, shown := x.shown ++ hs } :: back

theorem not_next_nil {ms : List Member} : ¬ Next ms [] := by
  rintro ⟨front, x, back, hs, r, hms, -, -⟩
  exact List.append_ne_nil_of_right_ne_nil front (List.cons_ne_nil x back) hms.symm

theorem next_cons {x : Member} {ms ms' : List Member} (h : Next ms' (x :: ms)) :
    (∃ hs r, Run.Moves x.settings x.run hs r ∧
      ms' = { x with run := r, shown := x.shown ++ hs } :: ms) ∨
    ∃ ms₁, Next ms₁ ms ∧ ms' = x :: ms₁ := by
  obtain ⟨_ | ⟨y, front⟩, z, back, hs, r, hms, hm, rfl⟩ := h
  · obtain ⟨rfl, rfl⟩ := List.cons.inj hms
    exact Or.inl ⟨hs, r, hm, rfl⟩
  · obtain ⟨rfl, rfl⟩ := List.cons.inj hms
    exact Or.inr ⟨_, ⟨front, z, back, hs, r, rfl, hm, rfl⟩, rfl⟩

/-- Runs none of which can make moves for ever cannot do so together. By induction on what the first one
can do, and for each of its states on what the others can do. -/
theorem acc_cons {settings : Settings} {q : Run} {ms : List Member}
    (hq : Acc (Run.Next settings) q) (hms : Acc Next ms) (shown : History) (dropped : Bool) :
    Acc Next (⟨settings, q, shown, dropped⟩ :: ms) := by
  induction hq generalizing ms shown with
  | intro q _ ihq =>
    induction hms with
    | intro ms hms ihms =>
      refine .intro _ fun ms' hnext => ?_
      rcases next_cons hnext with ⟨hs, r, hm, rfl⟩ | ⟨ms₁, hms₁, rfl⟩
      · exact ihq r ⟨hs, hm⟩ (.intro ms hms) (shown ++ hs)
      · exact ihms ms₁ hms₁

theorem acc_of_forall {ms : List Member} (h : ∀ x ∈ ms, Acc (Run.Next x.settings) x.run) :
    Acc Next ms := by
  induction ms with
  | nil => exact .intro _ fun _ hnext => absurd hnext not_next_nil
  | cons x ms ih =>
    obtain ⟨hx, hms⟩ := List.forall_mem_cons.mp h
    exact acc_cons hx (ih hms) x.shown x.dropped

theorem length_history {α : Type} {pick : Happening → Option α} {ms : List Member} {n : Nat}
    (h : ∀ x ∈ ms, (x.shown.filterMap pick).length = n) :
    ((history ms).filterMap pick).length = ms.length * n := by
  induction ms with
  | nil => simp [history]
  | cons x ms ih =>
    obtain ⟨hx, hms⟩ := List.forall_mem_cons.mp h
    have hrest := ih hms
    simp only [history, List.flatMap_cons, List.filterMap_append, List.length_append, List.length_cons,
      Nat.succ_mul] at hrest ⊢
    omega

theorem inFlight_eq_zero {ms : List Member} (h : ∀ x ∈ ms, Run.flying x.run.control = 0) :
    inFlight ms = 0 := by
  induction ms with
  | nil => rfl
  | cons x ms ih =>
    obtain ⟨hx, hms⟩ := List.forall_mem_cons.mp h
    rw [inFlight, hx, ih hms]

/-- A run that has ended without anything's having gone wrong. -/
structure Done (settings : Settings) (n : Nat) (x : Member) : Prop where
  ended : x.run.control = []
  failure : x.run.failure = none
  state : x.run.context.state = .completed
  shown : ∃ topic hs, x.shown = Run.opening settings (.ok topic) ++ hs ∧ Yields settings n n hs

namespace Done

variable {settings : Settings} {n : Nat} {x : Member}

theorem atRest (h : x.Done settings n) : x.run.AtRest x.settings := by
  simp [Run.AtRest, Run.act, h.ended]

theorem flying (h : x.Done settings n) : Run.flying x.run.control = 0 := by
  rw [h.ended, Run.flying_nil]

theorem renders (h : x.Done settings n) : (x.shown.filterMap Happening.render?).length = n := by
  obtain ⟨topic, hs, hshown, hyields⟩ := h.shown
  rw [hshown]
  exact hyields.renders

theorem calls (h : x.Done settings n) (hd : settings.dryRun = false) :
    (x.shown.filterMap Happening.call?).length = n := by
  obtain ⟨topic, hs, hshown, hyields⟩ := h.shown
  rw [hshown]
  exact hyields.live hd

theorem dry (h : x.Done settings n) (hd : settings.dryRun = true) :
    (x.shown.filterMap Happening.call?).length = 0 ∧
      ∀ ev ∈ x.shown.filterMap Happening.event?, ev = .started := by
  obtain ⟨topic, hs, hshown, hyields⟩ := h.shown
  obtain ⟨hcalls, hevents⟩ := hyields.dry hd
  have hevents' : x.shown.filterMap Happening.event? = [.started] := by
    rw [hshown]
    exact congrArg (Event.started :: ·) hevents
  rw [hevents', hshown]
  exact ⟨congrArg List.length hcalls, by simp⟩

theorem native (h : x.Done settings n) (ev : Event) : Happening.emitted .function ev ∉ x.shown := by
  obtain ⟨topic, hs, hshown, hyields⟩ := h.shown
  rw [hshown]
  intro hmem
  rcases List.mem_append.mp hmem with hmem | hmem
  · simp [Run.opening] at hmem
  · exact hyields.native ev hmem

end Done
end Member

theorem History.rejected_eq_zero {hs : History} (hwell : ∀ a ∈ hs, a.GoesWell) :
    History.rejected hs = 0 := by
  refine List.countP_eq_zero.mpr fun s hs' => ?_
  obtain ⟨a, ha, hsettled⟩ := List.mem_filterMap.mp hs'
  have hnone : s.2.failure? = none := by
    have hgoes := hwell a ha
    cases a with
    | published topic number m settled =>
      cases settled with
      | none => cases hsettled
      | some s =>
        cases hsettled
        exact hgoes
    | settled number s =>
      cases hsettled
      exact hgoes
    | _ => cases hsettled
  simp [hnone]

theorem Joint.done {settings : Settings} {name : String} {defaults : ThinkDefaults} {flow : List Step}
    {cs : List Context} {m : Metrics} {ms : List Member}
    (h : Joint settings name (Task.ofSteps defaults flow) cs m ms)
    (hfinite : Step.finiteAll flow = true) (htemplated : Step.templatedAll flow = true)
    (hwell : ∀ a ∈ Member.history ms, a.GoesWell) (hended : ∀ x ∈ ms, x.run.control = []) :
    ∀ x ∈ ms, x.Done settings (Step.workloadAll flow) := by
  intro x hx
  obtain ⟨c, -, hpath⟩ := exists_of_forall₂ h.paths x hx
  have hxwell : ∀ a ∈ x.shown, a.GoesWell := fun a ha => hwell a (List.mem_flatMap.mpr ⟨x, hx, ha⟩)
  have hxended := hended x hx
  obtain ⟨own, ⟨control, d, e⟩, shown, dropped⟩ := x
  obtain rfl : control = [] := hxended
  obtain ⟨rfl, hstate, hshown⟩ := Run.scenario_prospers hfinite htemplated hxwell hpath
  exact ⟨rfl, rfl, hstate, hshown⟩

theorem Joint.exists_ended {settings : Settings} {name : String} {tasks : List Task}
    {cs : List Context} {m : Metrics} {ms : List Member} (h : Joint settings name tasks cs m ms)
    (hacc : Acc Member.Next ms) (hlive : ∀ x ∈ ms, x.dropped = false)
    (hwell : ∀ a ∈ Member.history ms, a.GoesWell) :
    ∃ m' ms', Joint settings name tasks cs m' ms' ∧ (∀ x ∈ ms', x.run.control = []) ∧
      ∀ a ∈ Member.history ms', a.GoesWell := by
  induction hacc generalizing m with
  | intro ms _ ih =>
    by_cases hended : ∀ x ∈ ms, x.run.control = []
    · exact ⟨m, ms, h, hended, hwell⟩
    · simp only [not_forall] at hended
      obtain ⟨x, hx, hcontrol⟩ := hended
      obtain ⟨hs, r, hm, hnew⟩ := Run.exists_moves x.settings hcontrol
      obtain ⟨front, back, rfl⟩ := List.append_of_mem hx
      refine ih _ ⟨front, x, back, hs, r, rfl, hm, rfl⟩ (h.served (hlive x hx) hm) ?_ ?_
      · obtain ⟨hfront, hrest⟩ := List.forall_mem_append.mp hlive
        exact List.forall_mem_append.mpr
          ⟨hfront, List.forall_mem_cons.mpr (List.forall_mem_cons.mp hrest)⟩
      · simp only [Member.history, List.flatMap_append, List.flatMap_cons,
          List.forall_mem_append] at hwell ⊢
        exact ⟨hwell.1, ⟨hwell.2.1, hnew⟩, hwell.2.2⟩

/-- If nothing goes wrong, runs of a flow without endless loops that share a collector all complete, in
whatever order they are served: none can go on for ever, each can go on until it has ended, and then each
has rendered as many templates as the flow calls for and, unless it is a dry run, published as many
messages, of which the collector has recorded each one. -/
theorem flow_makes_its_workload {settings : Settings} {name : String} {defaults : ThinkDefaults}
    {flow : List Step} {cs : List Context} {m : Metrics} {ms : List Member}
    (h : Joint settings name (Task.ofSteps defaults flow) cs m ms)
    (hfinite : Step.finiteAll flow = true) (htemplated : Step.templatedAll flow = true)
    (hwell : ∀ a ∈ Member.history ms, a.GoesWell)
    (hlimit : cs.length * Step.workloadAll flow < Metrics.counterLimit) :
    Acc Member.Next ms ∧
    (∀ x ∈ ms, x.run.control ≠ [] →
      ∃ hs r, Run.Moves x.settings x.run hs r ∧ ∀ a ∈ hs, a.GoesWell) ∧
    ((∀ x ∈ ms, x.run.control = []) →
      (∀ x ∈ ms, x.run.failure = none ∧ x.run.context.state = .completed) ∧
      ((Member.history ms).filterMap Happening.render?).length =
        cs.length * Step.workloadAll flow ∧
      (settings.dryRun = false →
        ((Member.history ms).filterMap Happening.call?).length = cs.length * Step.workloadAll flow ∧
        History.published (Member.history ms) = cs.length * Step.workloadAll flow ∧
        m.counter messagesPublished = cs.length * Step.workloadAll flow ∧
        (m.samples publishLatency).length = cs.length * Step.workloadAll flow ∧
        m.counter publishErrors = 0) ∧
      (settings.dryRun = true → (Member.history ms).filterMap Happening.call? = [] ∧
        m.counters = [] ∧ m.histograms = [])) := by
  have hpaths := exists_of_forall₂ h.paths
  refine ⟨Member.acc_of_forall fun x hx => ?_, fun x _ hx => Run.exists_moves x.settings hx,
    fun hended => ?_⟩
  · obtain ⟨c, rfl, hpath⟩ := hpaths x hx
    exact hpath.acc (Run.acc_ofScenario hfinite name c)
  have hdone := h.done hfinite htemplated hwell hended
  rw [h.paths.length_eq] at hlimit ⊢
  refine ⟨fun x hx => ⟨(hdone x hx).failure, (hdone x hx).state⟩,
    Member.length_history fun x hx => (hdone x hx).renders, fun hd => ?_, fun hd => ?_⟩
  · have hbooks := h.reached.books
    -- At the end nothing is in flight and no call was refused, so the published messages are the calls.
    have hcalls := Member.length_history fun x hx => (hdone x hx).calls hd
    have hrejected := History.rejected_eq_zero hwell
    have hpublished : History.published (Member.history ms) = ms.length * Step.workloadAll flow := by
      have hsettled := calls_history hbooks
      rw [Member.inFlight_eq_zero fun x hx => (hdone x hx).flying] at hsettled
      have hsum := History.published_add_rejected (Member.history ms)
      omega
    have hnative : ∀ ev, Happening.emitted .function ev ∉ Member.history ms := fun ev hev => by
      obtain ⟨x, hx, hmem⟩ := List.mem_flatMap.mp hev
      exact (hdone x hx).native ev hmem
    have hweight (w : Entry → Nat) :
        Entry.weight w ((Member.history ms).flatMap Happening.entries) = ms.length * w .started +
          ms.length * Step.workloadAll flow *
            (w (.counter messagesPublished 1) + w (.sample publishLatency)) := by
      rw [weight_history hbooks (fun x hx => (hdone x hx).atRest) fun ev hev => absurd hev (hnative ev),
        History.weight_due, hpublished, hrejected, Nat.zero_mul, Nat.add_zero]
    have htallies := h.reached.tallies
    have hnames : messagesPublished ≠ publishErrors := by decide
    refine ⟨hcalls, hpublished, ?_, ?_, ?_⟩
    · rw [htallies.counter, hweight]
      simp [Entry.added, Nat.mod_eq_of_lt hlimit]
    · rw [htallies.samples, hweight]
      simp [Entry.sampled]
    · rw [htallies.counter, hweight]
      simp [Entry.added, hnames]
  · refine ⟨List.length_eq_zero_iff.mp ?_, h.reached.only_started fun x hx => ((hdone x hx).dry hd).2⟩
    rw [Member.length_history fun x hx => ((hdone x hx).dry hd).1, Nat.mul_zero]

/-- Two runs of a loop of two turns that holds a loop of three and a multiplier below zero. -/
theorem nested_loops_make_their_workload :
    let flow : List Step := [.loop [.message ⟨some .null, some 2, none⟩,
      .loop [.message ⟨some .null, some (-1), none⟩, .message ⟨some .null, none, none⟩] (.times 3)]
      (.times 2)]
    let c : Context := ⟨.ofRandom 0, .ofList [], 0, none, .notStarted⟩
    ∃ m ms, Joint ⟨none, "project", "topic", false⟩ "name" (Task.ofSteps {} flow) [c, c] m ms ∧
      (∀ x ∈ ms, x.run.control = [] ∧ x.run.context.state = .completed) ∧
      ((Member.history ms).filterMap Happening.render?).length = 20 ∧
      m.counter messagesPublished = 20 ∧ (m.samples publishLatency).length = 20 ∧
      m.counter publishErrors = 0 := by
  intro flow c
  have hbegun : Joint ⟨none, "project", "topic", false⟩ "name" (Task.ofSteps {} flow) [c, c] {} _ :=
    (Joint.nil.begun c).begun c
  have hlimit : [c, c].length * Step.workloadAll flow < Metrics.counterLimit := by decide
  obtain ⟨hacc, -⟩ := flow_makes_its_workload hbegun rfl rfl (by simp [Member.history]) hlimit
  obtain ⟨m, ms, h, hended, hwell⟩ := hbegun.exists_ended hacc (by simp) (by simp [Member.history])
  obtain ⟨-, -, hall⟩ := flow_makes_its_workload h rfl rfl hwell hlimit
  obtain ⟨hcompleted, hrenders, hlive, -⟩ := hall hended
  obtain ⟨-, -, hcounted, hsampled, herrors⟩ := hlive rfl
  exact ⟨m, ms, h, fun x hx => ⟨hended x hx, (hcompleted x hx).2⟩, hrenders, hcounted, hsampled, herrors⟩

end Engine
end TopicLoad
