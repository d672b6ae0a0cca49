import TopicLoad.Proofs.Company

/-! Runs do not interfere. What a run does depends on the context it was begun on, on templating and on
functions that answer the same question always alike, and on the replies to its own calls, but neither on
the moments at which these come nor on any other run. -/
namespace TopicLoad

def Event.stilled : Event → Event
  | .histogram name _ => .histogram name (.ofFloat Duration.zero.toMilliseconds)
  | e => e

namespace Engine

/-- What a run is told about its topic and its calls. -/
inductive Reply where
  | topic (reply : Except Fault Handle)
  /-- Whether and how a call settled at once. -/
  | call (settled : Option (Except Fault String))
  | settled (number : Nat) (reply : Except Fault String)

namespace Happening

def reply? : Happening → Option Reply
  | acquired _ _ reply => some (.topic reply)
  | published _ _ _ s => some (.call (s.map Settlement.reply))
  | settled n s => some (.settled n s.reply)
  | _ => none

def template? : Happening → Option (Json × Keyed Json)
  | rendered template vars _ => some (template, vars)
  | _ => none

/-- Templates are rendered and functions are called by the rules, whoever asks for it. -/
def Obeys (render : Json → Keyed Json → Except Fault Json)
    (call : String → Context → Option (List Deed)) : Happening → Prop
  | rendered template vars reply => reply = render template vars
  | called name c reply => reply = call name c
  | _ => True

end Happening

def Settlement.stilled (s : Settlement) : Settlement := ⟨s.reply, 0⟩

def Happening.stilled : Happening → Happening
  | .emitted .engine e => .emitted .engine e.stilled
  | .published topic number m s => .published topic number m (s.map Settlement.stilled)
  | .settled n s => .settled n s.stilled
  | a => a

def Frame.stilled : Frame → Frame
  | .emit e => .emit e.stilled
  | f => f

def Upshot.stilled : Upshot → Upshot
  | .went fs c => .went (fs.map Frame.stilled) c
  | .failed f => .failed f

/-- A run that reports latencies as on a clock that stands still. -/
def Run.stilled (r : Run) : Run := { r with control := r.control.map Frame.stilled }

namespace Happening

@[simp] theorem stilled_stilled (a : Happening) : a.stilled.stilled = a.stilled := by
  cases a with
  | emitted origin e => cases origin <;> cases e <;> rfl
  | published topic number m s => cases s <;> rfl
  | _ => rfl

@[simp] theorem reply?_stilled (a : Happening) : a.stilled.reply? = a.reply? := by
  cases a with
  | emitted origin e => cases origin <;> rfl
  | published topic number m s => cases s <;> rfl
  | _ => rfl

@[simp] theorem template?_stilled (a : Happening) : a.stilled.template? = a.template? := by
  cases a with
  | emitted origin e => cases origin <;> rfl
  | _ => rfl

@[simp] theorem call?_stilled (a : Happening) : a.stilled.call? = a.call? := by
  cases a with
  | emitted origin e => cases origin <;> rfl
  | _ => rfl

theorem Obeys.stilled {render : Json → Keyed Json → Except Fault Json}
    {call : String → Context → Option (List Deed)} {a : Happening} (h : a.Obeys render call) :
    a.stilled.Obeys render call := by
  cases a with
  | emitted origin e => cases origin <;> trivial
  | rendered | called => exact h
  | _ => trivial

end Happening

variable {settings : Settings} {c : Context} {failure : Option Fault} {hs hs' : History}
  {render : Json → Keyed Json → Except Fault Json} {call : String → Context → Option (List Deed)}
  {replies : List Reply}

theorem History.filterMap_stilled {α : Type} {pick : Happening → Option α}
    (hpick : ∀ a, pick a.stilled = pick a) (hs : History) :
    (hs.map Happening.stilled).filterMap pick = hs.filterMap pick := by
  rw [List.filterMap_map]
  exact congrArg (List.filterMap · hs) (funext hpick)

theorem Frame.survives_stilled (f : Frame) : f.stilled.survives = f.survives := by
  cases f <;> rfl

theorem Frame.stilled_tasks (ts : List Task) : (ts.map Frame.task).map Frame.stilled = ts.map .task := by
  simp [Frame.stilled]

namespace Run

theorem stilled_settledFrames (c : Context) (s : Settlement) :
    (settledFrames c s).map Frame.stilled = settledFrames c s.stilled := by
  have helapsed : c.elapsed 0 = Duration.zero := congrArg Duration.mk (Nat.zero_sub c.start)
  rw [settledFrames, settledFrames, Settlement.stilled]
  cases s.reply with
  | ok id => simp [Frame.stilled, Event.stilled, helapsed]
  | error g => rfl

theorem stilled_run (u : Upshot) (after : List Frame) :
    (u.run c failure after).stilled = u.stilled.run c failure (after.map Frame.stilled) := by
  cases u with
  | went fs d => simp [Upshot.run, Upshot.stilled, stilled]
  | failed g =>
    have hsurvives : Frame.survives ∘ Frame.stilled = Frame.survives := funext Frame.survives_stilled
    simp [Upshot.run, Upshot.stilled, stilled, List.filter_map, hsurvives]

@[simp] theorem stilled_ofScenario (settings : Settings) (name : String) (tasks : List Task) (c : Context) :
    (ofScenario settings name tasks c).stilled = ofScenario settings name tasks c := by
  simp [stilled, ofScenario, setup, Frame.stilled, Event.stilled]

end Run

theorem Frame.Served.stilled {f : Frame} {u : Upshot} (h : f.Served settings c failure hs u) :
    f.stilled.Served settings c failure (hs.map Happening.stilled) u.stilled := by
  cases h with
  | emit e => exact .emit e.stilled
  | turn body h =>
    rw [Upshot.stilled, List.map_append, Frame.stilled_tasks]
    exact .turn body h
  | sentAtOnce topic m queue number inFlight kept s =>
    rw [Upshot.stilled, List.map_append, Run.stilled_settledFrames]
    exact .sentAtOnce topic m queue number inFlight kept s.stilled
  | settled topic number kept hn s =>
    rw [Upshot.stilled, List.map_append, Run.stilled_settledFrames]
    exact .settled topic number kept hn s.stilled
  | _ => constructor <;> assumption

theorem Run.Path.stilled {r r' : Run} (h : Run.Path settings r hs r') :
    Run.Path settings r.stilled (hs.map Happening.stilled) r'.stilled := by
  induction h with
  | refl r => exact .refl r.stilled
  | @step r _ _ _ _ hm _ ih =>
    obtain ⟨_ | ⟨f, fs⟩, c, failure⟩ := r
    · exact absurd hm Run.not_moves_nil
    obtain ⟨u, hu, rfl⟩ := Run.moves_cons_iff.mp hm
    rw [Run.stilled_run] at ih
    rw [List.map_append]
    exact .served hu.stilled ih

theorem reply_unique {a b : Reply} (ha : [a] <+: replies) (hb : [b] <+: replies) : a = b := by
  obtain ⟨_, rfl⟩ := hb
  simpa using ha

/-- On a clock that stands still, the replies alone decide how an act is answered. -/
theorem Act.Answered.unique {ρ : Type} {origin : Origin} {a : Act ρ} {r r' : ρ}
    (h : a.Answered origin hs r) (h' : a.Answered origin hs' r')
    (hrules : ∀ b ∈ hs, b.Obeys render call ∧ b.stilled = b)
    (hrules' : ∀ b ∈ hs', b.Obeys render call ∧ b.stilled = b)
    (hsame : hs.filterMap Happening.reply? <+: replies)
    (hsame' : hs'.filterMap Happening.reply? <+: replies) : hs = hs' ∧ r = r' := by
  cases a with
  | finish => exact h.elim
  | acquire place batching next =>
    obtain ⟨reply, rfl, rfl⟩ := h
    obtain ⟨reply', rfl, rfl⟩ := h'
    cases reply_unique hsame hsame'
    exact ⟨rfl, rfl⟩
  | render template vars next =>
    obtain ⟨reply, rfl, rfl⟩ := h
    obtain ⟨reply', rfl, rfl⟩ := h'
    obtain rfl : reply = render template vars := (hrules _ List.mem_cons_self).1
    obtain rfl : reply' = render template vars := (hrules' _ List.mem_cons_self).1
    exact ⟨rfl, rfl⟩
  | publish topic number message next =>
    obtain ⟨s, rfl, rfl⟩ := h
    obtain ⟨s', rfl, rfl⟩ := h'
    -- A settlement is its reply and the time it took, and on this clock it took none.
    have hstill := (hrules _ List.mem_cons_self).2
    have hstill' := (hrules' _ List.mem_cons_self).2
    simp only [Happening.stilled, Happening.published.injEq, true_and] at hstill hstill'
    have hreply := reply_unique hsame hsame'
    simp only [Reply.call.injEq] at hreply
    have hstilled := congrArg (Option.map fun reply => (⟨reply, 0⟩ : Settlement)) hreply
    rw [Option.map_map, Option.map_map] at hstilled
    obtain rfl : s = s' := hstill.symm.trans (hstilled.trans hstill')
    exact ⟨rfl, rfl⟩
  | await inFlight next =>
    obtain ⟨n, s, -, rfl, rfl⟩ := h
    obtain ⟨n', s', -, rfl, rfl⟩ := h'
    have hstill := (hrules _ List.mem_cons_self).2
    have hstill' := (hrules' _ List.mem_cons_self).2
    simp only [Happening.stilled, Happening.settled.injEq, true_and] at hstill hstill'
    have hreply := reply_unique hsame hsame'
    simp only [Reply.settled.injEq] at hreply
    obtain ⟨rfl, hreply⟩ := hreply
    have hstilled := congrArg (fun reply => (⟨reply, 0⟩ : Settlement)) hreply
    obtain rfl : s = s' := hstill.symm.trans (hstilled.trans hstill')
    exact ⟨rfl, rfl⟩
  | call name c next =>
    obtain ⟨reply, rfl, rfl⟩ := h
    obtain ⟨reply', rfl, rfl⟩ := h'
    obtain rfl : reply = call name c := (hrules _ List.mem_cons_self).1
    obtain rfl : reply' = call name c := (hrules' _ List.mem_cons_self).1
    exact ⟨rfl, rfl⟩
  | _ =>
    obtain ⟨rfl, rfl⟩ := h
    obtain ⟨rfl, rfl⟩ := h'
    exact ⟨rfl, rfl⟩

theorem Run.Path.comparable {r r₁ r₂ : Run} (h : Run.Path settings r hs r₁)
    (h' : Run.Path settings r hs' r₂)
    (hrules : ∀ a ∈ hs, a.Obeys render call ∧ a.stilled = a)
    (hrules' : ∀ a ∈ hs', a.Obeys render call ∧ a.stilled = a)
    (hsame : hs.filterMap Happening.reply? <+: replies)
    (hsame' : hs'.filterMap Happening.reply? <+: replies) :
    (∃ rest, hs' = hs ++ rest ∧ Run.Path settings r₁ rest r₂) ∨
      ∃ rest, hs = hs' ++ rest ∧ Run.Path settings r₂ rest r₁ := by
  induction h generalizing hs' replies with
  | refl => exact Or.inl ⟨hs', rfl, h'⟩
  | @step r q r₁ h₁ t hm hp ih =>
    cases h' with
    | refl => exact Or.inr ⟨h₁ ++ t, rfl, .step hm hp⟩
    | @step _ q' _ h₁' t' hm' hp' =>
      obtain ⟨hfirst, hlater⟩ := List.forall_mem_append.mp hrules
      obtain ⟨hfirst', hlater'⟩ := List.forall_mem_append.mp hrules'
      rw [List.filterMap_append] at hsame hsame'
      obtain ⟨rfl, rfl⟩ := Act.Answered.unique hm hm' hfirst hfirst'
        ((List.prefix_append _ _).trans hsame) ((List.prefix_append _ _).trans hsame')
      obtain ⟨left, rfl⟩ := (List.prefix_append _ _).trans hsame
      rw [List.prefix_append_right_inj] at hsame hsame'
      rcases ih hp' hlater hlater' hsame hsame' with ⟨rest, rfl, hrest⟩ | ⟨rest, rfl, hrest⟩
      · exact Or.inl ⟨rest, (List.append_assoc ..).symm, hrest⟩
      · exact Or.inr ⟨rest, (List.append_assoc ..).symm, hrest⟩

namespace Member

variable {x y : Member} {rest : History}

/-- Two runs that do the same as far as both have come, and have come to the same if both have ended. -/
structure Alike (x y : Member) : Prop where
  templates : x.shown.filterMap Happening.template? <+: y.shown.filterMap Happening.template? ∨
    y.shown.filterMap Happening.template? <+: x.shown.filterMap Happening.template?
  calls : x.shown.filterMap Happening.call? <+: y.shown.filterMap Happening.call? ∨
    y.shown.filterMap Happening.call? <+: x.shown.filterMap Happening.call?
  outcome : x.run.control = [] → y.run.control = [] →
    x.run.context = y.run.context ∧ x.run.failure = y.run.failure ∧
      x.shown.filterMap Happening.template? = y.shown.filterMap Happening.template? ∧
      x.shown.filterMap Happening.call? = y.shown.filterMap Happening.call?

theorem Alike.symm (h : Alike x y) : Alike y x := by
  refine ⟨h.templates.symm, h.calls.symm, fun hy hx => ?_⟩
  obtain ⟨hcontext, hfailure, htemplates, hcalls⟩ := h.outcome hx hy
  exact ⟨hcontext.symm, hfailure.symm, htemplates.symm, hcalls.symm⟩

theorem alike_of_path
    (hshown : y.shown.map Happening.stilled = x.shown.map Happening.stilled ++ rest)
    (h : Run.Path settings x.run.stilled rest y.run.stilled) : Alike x y := by
  have hpick {α : Type} {pick : Happening → Option α} (hp : ∀ a, pick a.stilled = pick a) :
      y.shown.filterMap pick = x.shown.filterMap pick ++ rest.filterMap pick := by
    rw [← History.filterMap_stilled hp y.shown, hshown, List.filterMap_append,
      History.filterMap_stilled hp]
  have htemplates := hpick Happening.template?_stilled
  have hcalls := hpick Happening.call?_stilled
  refine ⟨Or.inl ⟨_, htemplates.symm⟩, Or.inl ⟨_, hcalls.symm⟩, fun hx hy => ?_⟩
  have hended : x.run.stilled = ⟨[], x.run.context, x.run.failure⟩ := by simp [Run.stilled, hx]
  rw [hended, Run.path_nil_iff] at h
  obtain ⟨rfl, hrun⟩ := h
  simp only [Run.stilled, Run.mk.injEq] at hrun
  obtain ⟨-, hcontext, hfailure⟩ := hrun
  rw [htemplates, hcalls]
  exact ⟨hcontext.symm, hfailure.symm, (List.append_nil _).symm, (List.append_nil _).symm⟩

end Member

/-- Whatever other runs do meanwhile, each run goes as it could go alone, and it goes alike wherever it
is begun on the same context and told the same about its topic and its calls. -/
theorem runs_do_not_interfere {name : String} {tasks : List Task}
    (render : Json → Keyed Json → Except Fault Json) (call : String → Context → Option (List Deed))
    {cs : List Context} {m : Metrics} {ms : List Member} {x : Member}
    (h : Joint settings name tasks cs m ms) (hx : (c, x) ∈ cs.zip ms)
    (hrules : ∀ a ∈ x.shown, a.Obeys render call) :
    (∃ m', Joint settings name tasks [c] m' [x]) ∧
    ∀ {cs' : List Context} {m' : Metrics} {ms' : List Member} {y : Member} (replies : List Reply),
      Joint settings name tasks cs' m' ms' → (c, y) ∈ cs'.zip ms' →
      (∀ a ∈ y.shown, a.Obeys render call) →
      x.shown.filterMap Happening.reply? <+: replies →
      y.shown.filterMap Happening.reply? <+: replies → x.Alike y := by
  refine ⟨(List.forall₂_iff_zip.mp h.alone).2 hx, ?_⟩
  intro cs' m' ms' y replies h' hy hrules' hsame hsame'
  obtain ⟨-, hpath⟩ := (List.forall₂_iff_zip.mp h.paths).2 hx
  obtain ⟨-, hpath'⟩ := (List.forall₂_iff_zip.mp h'.paths).2 hy
  have hstill := hpath.stilled
  have hstill' := hpath'.stilled
  rw [Run.stilled_ofScenario] at hstill hstill'
  have hobeys {hs : History} (hhs : ∀ a ∈ hs, a.Obeys render call) :
      ∀ a ∈ hs.map Happening.stilled, a.Obeys render call ∧ a.stilled = a := by
    rintro _ hmem
    obtain ⟨a, ha, rfl⟩ := List.mem_map.mp hmem
    exact ⟨(hhs a ha).stilled, a.stilled_stilled⟩
  rw [← History.filterMap_stilled Happening.reply?_stilled] at hsame hsame'
  rcases hstill.comparable hstill' (hobeys hrules) (hobeys hrules') hsame hsame' with
    ⟨rest, hshown, hrest⟩ | ⟨rest, hshown, hrest⟩
  · exact Member.alike_of_path hshown hrest
  · exact (Member.alike_of_path hshown hrest).symm

/-- A run's call is in flight while another run is refused its topic and fails; the run ends as it does
alone, where its call takes longer. -/
theorem refusal_leaves_other_run_alone :
    ∃ settings name tasks c c' m x z m' y, Joint settings name tasks [c, c'] m [x, z] ∧
      Joint settings name tasks [c] m' [y] ∧ z.run.failure = some .noPublisher ∧
      x.run.control = [] ∧ x.run.failure = none ∧ x.shown ≠ y.shown ∧ x.Alike y := by
  let settings : Settings := ⟨none, "project", "topic", false⟩
  let tasks : List Task := [.publish ⟨some .null, none, none⟩]
  let c : Context := ⟨.ofRandom 0, .ofList [], 0, none, .notStarted⟩
  let c' : Context := ⟨.ofRandom 1, .ofList [("key", .null)], 0, none, .notStarted⟩
  have hcall : Run.Path settings (Run.ofScenario settings "name" tasks c) _
      ⟨[.send ⟨"address", {}⟩ [] 1 [0] none, .conclude "name"], _, none⟩ :=
    .served (.emit .started) <| .served .enter <| .served (.note _) <|
    .served (.acquired _ ⟨"address", {}⟩) <| .served (.publish rfl (by decide)) <|
    .served (.rendered _ _ 0 _ .null) <| .served (.note _) <| .served (.dispatch _ _ _ rfl rfl) <|
    .served (.sent _ _ _ _ _ _) <| .refl _
  have hsettle (d : Context) (time : Instant) : Run.Path settings
      ⟨[.send ⟨"address", {}⟩ [] 1 [0] none, .conclude "name"], d, none⟩ _ ⟨[], _, none⟩ :=
    .served (.settled _ 1 none (List.mem_singleton.mpr rfl) ⟨.ok "id", time⟩) <| .served (.note _) <|
    .served (.emit _) <| .served (.emit _) <| .served (.delivered _ _) <|
    .served (.completed _ rfl) <| .refl _
  have hrefused : Run.Path settings (Run.ofScenario settings "name" tasks c') _ ⟨[], _, some _⟩ :=
    .served (.emit .started) <| .served .enter <| .served (.note _) <|
    .served (.unacquired _ .noPublisher) <| .served (.broken _ rfl) <| .refl _
  have hbegun : Joint settings "name" tasks [c] {} ([] ++ (⟨settings, _, [], false⟩ : Member) :: []) :=
    Joint.nil.begun c
  have hcalled := hbegun.follow rfl hcall
  have hrefusal : Joint settings "name" tasks [c, c'] _ ([] ++ _ :: [_]) :=
    (hcalled.begun c').follow rfl hrefused
  have hended := hrefusal.follow rfl (hsettle _ 5)
  have halone := hcalled.follow rfl (hsettle _ 9)
  obtain ⟨-, halike⟩ := runs_do_not_interfere (fun _ _ => .ok .null) (fun _ _ => none) hended
    List.mem_cons_self (by simp [Happening.Obeys])
  have hxy := halike [.topic (.ok ⟨"address", {}⟩), .call none, .settled 0 (.ok "id")]
    halone List.mem_cons_self (by simp [Happening.Obeys]) ⟨[], rfl⟩ ⟨[], rfl⟩
  refine ⟨_, _, _, _, _, _, _, _, _, _, hended, halone, rfl, rfl, rfl, ?_, hxy⟩
  simp

end Engine
end TopicLoad
