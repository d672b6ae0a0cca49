import Mathlib.Tactic.TFAE
import TopicLoad.Proofs.Rehearsal

/-! A dry run agrees with a live run. Which topic it acquires makes no difference to a dry run, so that
there is only one way for it to go, and every live run goes beside it. -/
namespace TopicLoad
namespace Engine

variable {settings : Settings} {c : Context} {failure : Option Fault} {hs hs' : History}
  {render : Json → Keyed Json → Except Fault Json} {call : Functions} {past : List Inquiry}

/-! ## On another topic -/

/-- What happens, with a topic in the place of whichever is acquired. -/
def Happening.on (topic : Handle) : Happening → Happening
  | .acquired place batching (.ok _) => .acquired place batching (.ok topic)
  | .inspected c => .inspected (c.on topic)
  | .called name c reply => .called name (c.on topic) (reply.map (List.map (Deed.on topic)))
  | a => a

def Frame.on (topic : Handle) : Frame → Frame
  | .deeds ds => .deeds (ds.map (Deed.on topic))
  | f => f

def Upshot.on (topic : Handle) : Upshot → Upshot
  | .went fs c => .went (fs.map (Frame.on topic)) (c.on topic)
  | .failed f => .failed f

def Run.on (topic : Handle) (r : Run) : Run :=
  { r with control := r.control.map (Frame.on topic), context := r.context.on topic }

variable (topic : Handle)

theorem Happening.shared_on (a : Happening) : (a.on topic).shared = a.shared := by
  cases a with
  | acquired place batching reply => cases reply <;> rfl
  | _ => rfl

theorem Happening.inquiry?_on (a : Happening) :
    (a.on topic).inquiry? = a.inquiry?.map (Inquiry.on topic) := by
  cases a with
  | acquired place batching reply => cases reply <;> rfl
  | _ => rfl

theorem Happening.Smooth.on {a : Happening} (h : a.Smooth render (call past)) (hcall : Untouched call) :
    (a.on topic).Smooth render (call (past.map (Inquiry.on topic))) := by
  obtain ⟨hobeys, hgranted⟩ := h
  cases a with
  | acquired place batching reply =>
    cases reply with
    | ok => exact ⟨trivial, trivial⟩
    | error => exact hgranted.elim
  | called name c reply =>
    obtain rfl : reply = call past name c := hobeys
    exact ⟨(hcall past name c topic).symm, trivial⟩
  | _ => exact ⟨hobeys, hgranted⟩

namespace History

def on (topic : Handle) (hs : History) : History := hs.map (Happening.on topic)

@[simp] theorem on_append (hs hs' : History) : on topic (hs ++ hs') = on topic hs ++ on topic hs' :=
  List.map_append

theorem shared_on (hs : History) : shared (on topic hs) = on topic (shared hs) := by
  have hsame : Happening.shared ∘ Happening.on topic = Happening.shared :=
    funext (Happening.shared_on topic)
  rw [shared, on, List.filter_map, hsame]
  rfl

theorem inquiries_on (hs : History) :
    inquiries (on topic hs) = (inquiries hs).map (Inquiry.on topic) := by
  rw [inquiries, on, List.filterMap_map, inquiries, List.map_filterMap]
  exact congrArg (List.filterMap · hs) (funext (Happening.inquiry?_on topic))

theorem Smooth.on (h : Smooth render call past hs) (hcall : Untouched call) :
    Smooth render call (past.map (Inquiry.on topic)) (on topic hs) := by
  induction hs generalizing past with
  | nil => trivial
  | cons a hs ih =>
    refine ⟨Happening.Smooth.on topic h.1 hcall, ?_⟩
    have hlater := ih h.2
    rw [List.map_append] at hlater
    rw [Happening.inquiry?_on, Option.toList_map]
    exact hlater

end History

theorem Frame.survives_on (f : Frame) : (f.on topic).survives = f.survives := by
  cases f <;> rfl

theorem Frame.on_tasks (ts : List Task) : (ts.map Frame.task).map (Frame.on topic) = ts.map .task := by
  simp [Frame.on]

theorem Frame.on_settledFrames (c : Context) (s : Settlement) :
    (Run.settledFrames c s).map (Frame.on topic) = Run.settledFrames (c.on topic) s := by
  rw [Run.settledFrames, Run.settledFrames]
  cases s.reply <;> rfl

theorem Frame.Served.on {f : Frame} {u : Upshot} (hd : settings.dryRun = true)
    (h : f.Served settings c failure hs u) :
    (f.on topic).Served settings (c.on topic) failure (hs.on topic) (u.on topic) := by
  cases h with
  | acquired place => exact .acquired place topic
  | turn body h =>
    rw [Upshot.on, List.map_append, Frame.on_tasks]
    exact .turn body h
  | topicless _ _ _ h | dispatch _ _ _ h => rw [hd] at h; cases h
  | sentAtOnce handle m queue number inFlight kept s =>
    rw [Upshot.on, List.map_append, Frame.on_settledFrames]
    exact .sentAtOnce handle m queue number inFlight kept s
  | settled handle number kept hn s =>
    rw [Upshot.on, List.map_append, Frame.on_settledFrames]
    exact .settled handle number kept hn s
  | _ => constructor <;> assumption

namespace Run

variable {r r' q q' : Run} {ps ps' : List (List UInt8 × Nat)}

theorem on_run (u : Upshot) (after : List Frame) : (u.run c failure after).on topic =
    (u.on topic).run (c.on topic) failure (after.map (Frame.on topic)) := by
  cases u with
  | went fs d => simp [Upshot.run, Upshot.on, Run.on]
  | failed g =>
    have hsurvives : Frame.survives ∘ Frame.on topic = Frame.survives :=
      funext (Frame.survives_on topic)
    simp [Upshot.run, Upshot.on, Run.on, List.filter_map, hsurvives]

theorem Moves.on (h : Moves settings.dry r hs r') :
    Moves settings.dry (r.on topic) (hs.on topic) (r'.on topic) := by
  obtain ⟨_ | ⟨f, fs⟩, c, failure⟩ := r
  · exact absurd h not_moves_nil
  obtain ⟨u, hu, rfl⟩ := moves_cons_iff.mp h
  rw [on_run]
  exact moves_of_served (hu.on topic rfl)

theorem parcels_on (r : Run) : (r.on topic).parcels = r.parcels := by
  have hready : (r.on topic).ready? = r.ready? := by
    obtain ⟨_ | ⟨f, fs⟩, c, failure⟩ := r
    · rfl
    cases f with
    | render template attributes left ready => cases left <;> rfl
    | _ => rfl
  rw [parcels, parcels, hready]

theorem Prepares.on (h : Prepares settings.dry q hs ps q') :
    Prepares settings.dry (q.on topic) (hs.on topic) ps (q'.on topic) := by
  induction h with
  | refl q => exact .refl (q.on topic)
  | @step q _ _ _ _ _ hm _ ih =>
    rw [History.on_append, ← parcels_on topic q]
    exact .step (hm.on topic) ih

end Run

/-! ## There is only one dry run -/

/-- What happens in a dry run on a topic: no reply makes a difference, and neither does the clock. -/
structure Happening.Certain (topic : Handle) (a : Happening) : Prop where
  stilled : a.stilled = a
  reply : a.reply? = none ∨ a.reply? = some (.topic (.ok topic))

theorem Happening.Quiet.certain {a : Happening} (hquiet : a.Quiet) (hgranted : a.Granted) :
    (a.on topic).Certain topic := by
  constructor
  · cases a with
    | emitted origin e =>
      cases origin with
      | engine =>
        obtain rfl : e = .started := hquiet
        rfl
      | function => rfl
    | acquired _ _ reply => cases reply <;> rfl
    | published | settled => exact hquiet.elim
    | _ => rfl
  · cases a with
    | acquired _ _ reply =>
      cases reply with
      | ok => exact .inr rfl
      | error => exact hgranted.elim
    | published | settled => exact hquiet.elim
    | _ => exact .inl rfl

theorem Act.Answered.length_le {ρ : Type} {origin : Origin} {a : Act ρ} {r : ρ}
    (h : a.Answered origin hs r) : hs.length ≤ 1 := by
  cases a with
  | finish => exact h.elim
  | silent =>
    obtain ⟨rfl, -⟩ := h
    exact Nat.zero_le 1
  | acquire | render | publish | call =>
    obtain ⟨_, rfl, -⟩ := h
    exact Nat.le_refl 1
  | await =>
    obtain ⟨_, _, _, rfl, -⟩ := h
    exact Nat.le_refl 1
  | _ =>
    obtain ⟨rfl, -⟩ := h
    exact Nat.le_refl 1

namespace Run

variable {topic : Handle} {r r' q q' : Run} {ps ps' : List (List UInt8 × Nat)}

theorem Moves.obeys (h : Moves settings r hs r') (hsmooth : hs.Smooth render call past) :
    ∀ a ∈ hs, a.Obeys render (call past) := by
  have hlength := Act.Answered.length_le h
  match hs with
  | [] => exact List.forall_mem_nil _
  | [a] => exact List.forall_mem_singleton.mpr hsmooth.1.1

theorem Moves.reply_prefix (h : Moves settings r hs r') (ha : ∀ a ∈ hs, a.Certain topic) :
    hs.filterMap Happening.reply? <+: [.topic (.ok topic)] := by
  have hlength := Act.Answered.length_le h
  cases hs with
  | nil => exact List.nil_prefix
  | cons a hs =>
    obtain rfl : hs = [] := List.length_eq_zero_iff.mp (by simpa using hlength)
    obtain hreply | hreply := (ha a List.mem_cons_self).reply
    · simp [hreply]
    · simp [hreply]

theorem Moves.unique (h : Moves settings r hs q) (h' : Moves settings r hs' q')
    (hsmooth : hs.Smooth render call past) (hsmooth' : hs'.Smooth render call past)
    (ha : ∀ a ∈ hs, a.Certain topic) (ha' : ∀ a ∈ hs', a.Certain topic) : hs = hs' ∧ q = q' :=
  Act.Answered.unique h h' (fun a hmem => ⟨h.obeys hsmooth a hmem, (ha a hmem).stilled⟩)
    (fun a hmem => ⟨h'.obeys hsmooth' a hmem, (ha' a hmem).stilled⟩) (h.reply_prefix ha)
    (h'.reply_prefix ha')

theorem Prepares.unique (h : Prepares settings r hs ps q) (h' : Prepares settings r hs' ps' q')
    (hq : q.control = []) (hq' : q'.control = [])
    (hsmooth : hs.Smooth render call past) (hsmooth' : hs'.Smooth render call past)
    (ha : ∀ a ∈ hs, a.Certain topic) (ha' : ∀ a ∈ hs', a.Certain topic) :
    hs = hs' ∧ ps = ps' ∧ q = q' := by
  induction h generalizing hs' ps' past with
  | refl q =>
    cases h' with
    | refl => exact ⟨rfl, rfl, rfl⟩
    | step hm _ => exact absurd hq hm.control_ne_nil
  | step hm _ ih =>
    cases h' with
    | refl => exact absurd hq' hm.control_ne_nil
    | step hm' h' =>
      obtain ⟨hfirst, hlater⟩ := List.forall_mem_append.mp ha
      obtain ⟨hfirst', hlater'⟩ := List.forall_mem_append.mp ha'
      obtain ⟨hsmooth₁, hsmooth₂⟩ := History.smooth_append.mp hsmooth
      obtain ⟨hsmooth₁', hsmooth₂'⟩ := History.smooth_append.mp hsmooth'
      obtain ⟨rfl, rfl⟩ := hm.unique hm' hsmooth₁ hsmooth₁' hfirst hfirst'
      obtain ⟨rfl, rfl, rfl⟩ := ih h' hq hsmooth₂ hsmooth₂' hlater hlater'
      exact ⟨rfl, rfl, rfl⟩

theorem certain_on (hsmooth : hs.Smooth render call past) (hquiet : ∀ a ∈ hs, a.Quiet) :
    ∀ a ∈ hs.on topic, a.Certain topic := by
  intro _ hmem
  obtain ⟨a, ha, rfl⟩ := List.mem_map.mp hmem
  exact (hquiet a ha).certain topic (hsmooth.granted a ha)

/-- If a dry run can come to its end, so does every dry run that begins like it, on whatever topic. By
induction on the one that ends. -/
theorem Prepares.acc {asked : List Inquiry} (h : Prepares settings.dry q hs ps q')
    (hq' : q'.control = []) (hsmooth : hs.Smooth render call asked) (ha : ∀ a ∈ hs, a.Certain topic)
    (hcall : Untouched call) (hr : InStep past r) (hon : r.on topic = q)
    (hasked : past.map (Inquiry.on topic) = asked) :
    Acc (SmoothNext settings.dry render call) (past, r) := by
  induction h generalizing r past asked with
  | refl q =>
    refine .intro _ fun (past', r') ⟨hs, hm, _⟩ => ?_
    have hended : r.control.map (Frame.on topic) = [] := (congrArg Run.control hon).trans hq'
    exact absurd (List.map_eq_nil_iff.mp hended) hm.control_ne_nil
  | @step _ _ _ hs₁ _ _ hm _ ih =>
    obtain ⟨hfirst, hlater⟩ := List.forall_mem_append.mp ha
    obtain ⟨hsmooth₁, hsmooth₂⟩ := History.smooth_append.mp hsmooth
    -- Moved to the one topic, the next move is the first of the run that ends: there is only one.
    refine .intro _ fun (past', r') ⟨hs, hm', hsmooth', hpast⟩ => ?_
    obtain rfl : past' = past ++ hs.inquiries := hpast
    obtain ⟨hr', hquiet⟩ := hr.moves hcall hm' hsmooth'
    have hm'' := hm'.on topic
    have hsmooth'' := hsmooth'.on topic hcall
    rw [hon] at hm''
    rw [hasked] at hsmooth''
    obtain ⟨rfl, hon'⟩ := hm''.unique hm hsmooth'' hsmooth₁ (certain_on hsmooth' hquiet) hfirst
    refine ih hq' hsmooth₂ hlater hr' hon' ?_
    rw [List.map_append, hasked, History.inquiries_on]

/-! ## Agreement -/

/-- A run can come to its end with nothing refused, given the calls of functions before it. -/
def CanEnd (settings : Settings) (render : Json → Keyed Json → Except Fault Json) (call : Functions)
    (x : List Inquiry × Run) : Prop :=
  ∃ hs d e, Ends settings x.2 hs d e ∧ hs.Smooth render call x.1

/-- A dry run that showed `hs` and prepared `ps` agrees with a live run that showed `hs'`. In one order
they have rendered the same templates, for the same variables and to the same ends, and called the same
functions, which saw the same contexts and did the same, but for the topic; and what the one has prepared
the other has sent. -/
structure Agrees (hs : History) (ps : List (List UInt8 × Nat)) (hs' : History) : Prop where
  shared (topic : Handle) : hs'.shared.on topic = hs.shared.on topic
  parcels : hs'.filterMap Happening.parcel? = ps

variable {d d' : Context} {e e' : Option Fault}

theorem Prepares.served {f : Frame} {after : List Frame} {u : Upshot}
    (h : f.Served settings c failure hs u) (h' : Prepares settings (u.run c failure after) hs' ps r) :
    Prepares settings ⟨f :: after, c, failure⟩ (hs ++ hs') (parcels ⟨f :: after, c, failure⟩ ++ ps) r :=
  .step (moves_of_served h) h'

theorem Prepares.path (h : Prepares settings r hs ps q) : Path settings r hs q := by
  induction h with
  | refl r => exact .refl r
  | step hm _ ih => exact .step hm ih

theorem Path.prepares (h : Path settings r hs q) : ∃ ps, Prepares settings r hs ps q := by
  induction h with
  | refl r => exact ⟨[], .refl r⟩
  | step hm _ ih =>
    obtain ⟨ps, hp⟩ := ih
    exact ⟨_, .step hm hp⟩

theorem canEnd_of_acc {x : List Inquiry × Run} (h : Acc (SmoothNext settings render call) x) :
    CanEnd settings render call x := by
  induction h with
  | intro x _ ih =>
    obtain ⟨past, r⟩ := x
    by_cases hr : r.control = []
    · obtain ⟨control, c, failure⟩ := r
      obtain rfl : control = [] := hr
      exact ⟨[], c, failure, .refl _, trivial⟩
    · obtain ⟨hs, r', hm, hsmooth⟩ := exists_smooth_moves settings render call past r hr
      obtain ⟨hs', d, e, hends, hsmooth'⟩ := ih (past ++ hs.inquiries, r') ⟨hs, hm, hsmooth, rfl⟩
      exact ⟨hs ++ hs', d, e, .step hm hends, History.smooth_append.mpr ⟨hsmooth, hsmooth'⟩⟩

theorem InStep.rehearsed (hr : InStep past r) (hcall : Untouched call)
    (h : Ends settings.live r hs d e) (hsmooth : hs.Smooth render call past) :
    ∃ hs' ps, Prepares settings.dry r hs' ps ⟨[], d, e⟩ ∧ hs'.Smooth render call past ∧
      hs.shared = hs'.shared ∧ hs.filterMap Happening.parcel? = ps := by
  obtain ⟨hs', ps, q, left, n, hp, hsmooth', htrails, hshared, hparcels⟩ :=
    (Trails.level hr).rehearsed hcall h hsmooth
  obtain ⟨rfl, rfl⟩ := htrails.ended rfl
  rw [List.append_nil, List.nil_append] at hparcels
  exact ⟨hs', ps, hp, hsmooth', hshared.symm, hparcels⟩

theorem InStep.ends_tfae (hr : InStep past r) (hcall : Untouched call) :
    [ CanEnd settings.dry render call (past, r), CanEnd settings.live render call (past, r),
      Acc (SmoothNext settings.dry render call) (past, r),
      Acc (SmoothNext settings.live render call) (past, r) ].TFAE := by
  tfae_have 1 → 3
  | ⟨hs, d, e, hends, hsmooth⟩ => by
    obtain ⟨ps, hp⟩ := Path.prepares hends
    let topic : Handle := ⟨"", {}⟩
    exact (hp.on topic).acc rfl (hsmooth.on topic hcall)
      (certain_on hsmooth (hp.quiet hr hcall hsmooth)) hcall hr rfl rfl
  tfae_have 3 → 4 := (Trails.level hr).acc_live hcall
  tfae_have 4 → 3 := (Trails.level hr).acc_dry hcall
  tfae_have 4 → 2 := canEnd_of_acc
  tfae_have 2 → 1
  | ⟨hs, d, e, hends, hsmooth⟩ => by
    obtain ⟨hs', ps, hp, hsmooth', -⟩ := hr.rehearsed hcall hends hsmooth
    exact ⟨hs', d, e, hp.path, hsmooth'⟩
  tfae_finish

theorem InStep.agree (hr : InStep past r) (hcall : Untouched call)
    (h : Prepares settings.dry r hs ps ⟨[], d, e⟩) (h' : Ends settings.live r hs' d' e')
    (hsmooth : hs.Smooth render call past) (hsmooth' : hs'.Smooth render call past) :
    e = e' ∧ d.state = d'.state ∧ d.vars = d'.vars ∧ Agrees hs ps hs' := by
  obtain ⟨hs₁, ps₁, h₁, hsmooth₁, hshared, hparcels⟩ := hr.rehearsed hcall h' hsmooth'
  -- The dry run beside the live run and the given one are the same on one topic.
  have hsame (topic : Handle) := (h.on topic).unique (h₁.on topic) rfl rfl (hsmooth.on topic hcall)
    (hsmooth₁.on topic hcall) (certain_on hsmooth (h.quiet hr hcall hsmooth))
    (certain_on hsmooth₁ (h₁.quiet hr hcall hsmooth₁))
  obtain ⟨-, rfl, hended⟩ := hsame ⟨"", {}⟩
  have hfailure : e = e' := congrArg Run.failure hended
  have hstate : d.state = d'.state := congrArg (fun q => q.context.state) hended
  have hvars : d.vars = d'.vars := congrArg (fun q => q.context.vars) hended
  refine ⟨hfailure, hstate, hvars, fun topic => ?_, hparcels⟩
  rw [hshared, ← History.shared_on, ← (hsame topic).1, History.shared_on]

/-- A dry run of a scenario agrees with a live run of it if the client refuses nothing and functions leave
the topic alone, whatever they remember of the calls before. Both end or neither does, and they end alike.
Whatever a dry run has done, a live run can do, which sends what the dry run has prepared; and a live run
can always get to where a dry run has come, by sending what that has prepared. The dry run itself makes no
calls and reports nothing but its start. -/
theorem dry_run_agrees_with_live_run (settings : Settings) (name : String) (tasks : List Task)
    (c : Context) (render : Json → Keyed Json → Except Fault Json) (call : Functions)
    (hcall : Untouched call) :
    [ CanEnd settings.dry render call ([], ofScenario settings.dry name tasks c),
      CanEnd settings.live render call ([], ofScenario settings.live name tasks c),
      Acc (SmoothNext settings.dry render call) ([], ofScenario settings.dry name tasks c),
      Acc (SmoothNext settings.live render call) ([], ofScenario settings.live name tasks c) ].TFAE ∧
    (∀ hs ps d e hs' d' e',
      Prepares settings.dry (ofScenario settings.dry name tasks c) hs ps ⟨[], d, e⟩ →
      Ends settings.live (ofScenario settings.live name tasks c) hs' d' e' →
      hs.Smooth render call [] → hs'.Smooth render call [] →
      e = e' ∧ d.state = d'.state ∧ d.vars = d'.vars ∧ Agrees hs ps hs') ∧
    (∀ hs ps q, Prepares settings.dry (ofScenario settings.dry name tasks c) hs ps q →
      hs.Smooth render call [] →
      hs.filterMap Happening.call? = [] ∧ (∀ ev, .emitted .engine ev ∈ hs → ev = .started) ∧
      ∃ hs', Path settings.live (ofScenario settings.live name tasks c) hs' q ∧
        hs'.Smooth render call [] ∧ Agrees hs ps hs') ∧
    ∀ hs' r, Path settings.live (ofScenario settings.live name tasks c) hs' r →
      hs'.Smooth render call [] →
      ∃ rest q hs ps, Path settings.live r rest q ∧ History.Smooth render call [] (hs' ++ rest) ∧
        rest.shared = [] ∧ Prepares settings.dry (ofScenario settings.dry name tasks c) hs ps q ∧
        hs.Smooth render call [] ∧ Agrees hs ps (hs' ++ rest) := by
  have hr : InStep [] (ofScenario settings name tasks c) := inStep_ofScenario settings name tasks c
  refine ⟨hr.ends_tfae hcall, ?_, ?_, ?_⟩
  · intro hs ps d e hs' d' e' h h' hsmooth hsmooth'
    exact hr.agree hcall h h' hsmooth hsmooth'
  · intro hs ps q h hsmooth
    have hquiet := h.quiet hr hcall hsmooth
    obtain ⟨hs', hpath, hsmooth', hshared, hparcels⟩ := h.live hr hcall hsmooth
    refine ⟨List.filterMap_eq_nil_iff.mpr fun a ha => (hquiet a ha).call, fun ev hev => hquiet _ hev, ?_⟩
    exact ⟨hs', hpath, hsmooth', fun topic => by rw [hshared], hparcels⟩
  · intro hs' r h hsmooth
    obtain ⟨hs, ps, q, left, n, hp, hsmooth', htrails, hshared, hparcels⟩ :=
      (Trails.level hr).rehearsed hcall h hsmooth
    obtain ⟨rest, hrest, hsmooth₁, hshared₁, rfl⟩ := htrails.finish settings.live render call
    refine ⟨rest, q, hs, ps, hrest, History.smooth_append.mpr ⟨hsmooth, hsmooth₁⟩, hshared₁, hp, hsmooth',
      fun topic => ?_, ?_⟩
    · rw [History.shared_append, hshared₁, List.append_nil, hshared]
    · rw [List.filterMap_append, hparcels, List.nil_append]

/-- A function that counts its calls is called twice, and two copies of a message with the count follow, of
which one settles at once and the other later. The runs agree though their topics differ. -/
theorem two_copies_rehearsed :
    ∃ settings tasks c render call hs ps hs' d d', Untouched call ∧
      Prepares (Settings.dry settings) (ofScenario settings.dry "name" tasks c) hs ps ⟨[], d, none⟩ ∧
      Ends settings.live (ofScenario settings.live "name" tasks c) hs' d' none ∧
      d.publisher ≠ d'.publisher ∧ d.vars = d'.vars ∧
      ps = [(payload (.ofNat 1), 0), (payload (.ofNat 1), 1)] ∧ Agrees hs ps hs' ∧
      Acc (SmoothNext settings.live render call) ([], ofScenario settings.live "name" tasks c) := by
  let settings : Settings := ⟨none, "project", "topic", false⟩
  let tasks : List Task :=
    [.call "count", .call "count", .publish ⟨some (.str "template"), some 2, none⟩]
  let c : Context := ⟨.ofRandom 0, .ofList [], 0, none, .notStarted⟩
  let render : Json → Keyed Json → Except Fault Json :=
    fun _ vars => .ok ((Keyed.get? vars "count").getD .null)
  let call : Functions := fun past name c => some [.become (c.setVar name (some (.ofNat past.length)))]
  let counted (topic : Handle) (n : Nat) : Context :=
    ({ c with publisher := some topic, state := .running } : Context).setVar "count" (some (.ofNat n))
  have hcount (topic : Handle) (n : Nat) :
      Keyed.get? (counted topic n).vars.bindings "count" = some (.ofNat n) :=
    Context.get?_setVar_self _ "count" (some (.ofNat n))
  have hcall : Untouched call := by
    intro past name c topic
    simp only [call, List.length_map]
    rfl
  obtain ⟨hs, ps, d, hdry, hsmooth, hps, hd⟩ : ∃ hs ps d,
      Prepares settings.dry (ofScenario settings.dry "name" tasks c) hs ps ⟨[], d, none⟩ ∧
      hs.Smooth render call [] ∧ ps = [(payload (.ofNat 1), 0), (payload (.ofNat 1), 1)] ∧
      d.publisher = some ⟨"one", {}⟩ := by
    let topic : Handle := ⟨"one", {}⟩
    refine ⟨_, _, _, .served (.emit .started) <| .served .enter <| .served (.note _) <|
      .served (.acquired _ topic) <| .served (.called "count" [.become (counted topic 0)]) <|
      .served (.became _ _) <| .served .finished <|
      .served (.called "count" [.become (counted topic 1)]) <|
      .served (.became _ _) <| .served .finished <| .served (.publish rfl (by decide)) <|
      .served (.rendered _ _ 1 _ (.ofNat 1)) <| .served (.note _) <|
      .served (.rendered _ _ 0 _ (.ofNat 1)) <| .served (.note _) <|
      .served (.dry _ _ _ rfl) <| .served (.completed _ rfl) <| .refl _, ?_, rfl, rfl⟩
    simp [History.Smooth, Happening.Smooth, Happening.Obeys, Happening.Granted, Happening.inquiry?, render,
      call, hcount]
    simp [counted]
  obtain ⟨hs', d', hlive, hsmooth', hd'⟩ : ∃ hs' d',
      Ends settings.live (ofScenario settings.live "name" tasks c) hs' d' none ∧
      hs'.Smooth render call [] ∧ d'.publisher = some ⟨"two", {}⟩ := by
    let topic : Handle := ⟨"two", {}⟩
    refine ⟨_, _, .served (.emit .started) <| .served .enter <| .served (.note _) <|
      .served (.acquired _ topic) <| .served (.called "count" [.become (counted topic 0)]) <|
      .served (.became _ _) <| .served .finished <|
      .served (.called "count" [.become (counted topic 1)]) <|
      .served (.became _ _) <| .served .finished <| .served (.publish rfl (by decide)) <|
      .served (.rendered _ _ 1 _ (.ofNat 1)) <| .served (.note _) <|
      .served (.rendered _ _ 0 _ (.ofNat 1)) <| .served (.note _) <| .served (.dispatch _ _ _ rfl rfl) <|
      .served (.sentAtOnce _ _ _ _ _ _ ⟨.ok "first", 3⟩) <| .served (.note _) <| .served (.emit _) <|
      .served (.emit _) <| .served (.sent _ _ _ _ _ _) <|
      .served (.settled _ _ _ (List.mem_singleton.mpr rfl) ⟨.ok "second", 9⟩) <|
      .served (.note _) <| .served (.emit _) <| .served (.emit _) <| .served (.delivered _ _) <|
      .served (.completed _ rfl) <| ends_nil_iff.mpr ⟨rfl, rfl, rfl⟩, ?_, rfl⟩
    simp [History.Smooth, Happening.Smooth, Happening.Obeys, Happening.Granted, Happening.inquiry?,
      Settlement.failure?, render, call, hcount]
    simp [counted]
  obtain ⟨htfae, hagree, -⟩ := dry_run_agrees_with_live_run settings "name" tasks c render call hcall
  obtain ⟨-, -, hvars, hagrees⟩ := hagree hs ps d none hs' d' none hdry hlive hsmooth hsmooth'
  have hend : CanEnd settings.dry render call ([], ofScenario settings.dry "name" tasks c) :=
    ⟨hs, d, none, hdry.path, hsmooth⟩
  have hdiffer : d.publisher ≠ d'.publisher := by simp [hd, hd']
  exact ⟨settings, tasks, c, render, call, hs, ps, hs', d, d', hcall, hdry, hlive, hdiffer, hvars, hps,
    hagrees, (htfae.out 0 3).mp hend⟩

end Run
end Engine
end TopicLoad
