import TopicLoad.Proofs.Fanout
import TopicLoad.Proofs.Halting
import TopicLoad.Proofs.Solitude

/-! A live run beside a dry run of the same work. The two go in step except where messages are ready:
there the dry run notes how many there are, and the live run sends them and waits for the calls, which
shows nothing else and comes to an end. -/
namespace TopicLoad
namespace Engine

namespace Settings

def dry (s : Settings) : Settings := { s with dryRun := true }

def live (s : Settings) : Settings := { s with dryRun := false }

end Settings

def Context.on (topic : Handle) (c : Context) : Context := { c with publisher := some topic }

def Deed.on (topic : Handle) : Deed → Deed
  | .become c => .become (c.on topic)
  | d => d

theorem Context.on_eq_self {c : Context} {topic : Handle} (h : c.publisher = some topic) :
    c.on topic = c := by
  rw [Context.on, ← h]

structure Inquiry where
  name : String
  context : Context

def Inquiry.on (topic : Handle) (x : Inquiry) : Inquiry := { x with context := x.context.on topic }

theorem Inquiry.map_on_eq_self {past : List Inquiry} {topic : Handle}
    (h : ∀ x ∈ past, x.context.publisher = some topic) : past.map (Inquiry.on topic) = past := by
  refine (List.map_congr_left fun x hx => ?_).trans (List.map_id past)
  rw [Inquiry.on, Context.on_eq_self (h x hx)]
  rfl

/-- What functions do on a call, given the calls that were made before it. -/
abbrev Functions := List Inquiry → String → Context → Option (List Deed)

/-- The functions neither look at the topics of contexts, be it of this call or of one before, nor change
the topic. -/
def Untouched (call : Functions) : Prop := ∀ past name c topic,
  call (past.map (Inquiry.on topic)) name (c.on topic) =
    (call past name c).map (List.map (Deed.on topic))

namespace Happening

/-- What both modes do alike: neither notes nor calls of the client, nor what the engine reports. -/
def shared : Happening → Bool
  | emitted .engine _ | noted _ | published .. | settled .. => false
  | _ => true

def inquiry? : Happening → Option Inquiry
  | called name c _ => some ⟨name, c⟩
  | _ => none

/-- The payload of a call that was made, and the number of the call within its step. -/
def parcel? : Happening → Option (List UInt8 × Nat)
  | published _ number m _ => some (m.data, number)
  | _ => none

/-- No topic is refused and no call fails. -/
def Granted : Happening → Prop
  | acquired _ _ (.error _) => False
  | published _ _ _ (some s) | settled _ s => s.failure? = none
  | _ => True

/-- Templates are rendered and functions are called by the rules, and the client refuses nothing. -/
def Smooth (render : Json → Keyed Json → Except Fault Json)
    (call : String → Context → Option (List Deed)) (a : Happening) : Prop :=
  a.Obeys render call ∧ a.Granted

theorem shared_of_inquiry {a : Happening} {x : Inquiry} (h : a.inquiry? = some x) : a.shared := by
  cases a <;> first | rfl | cases h

theorem GoesWell.granted {a : Happening} (h : a.GoesWell) : a.Granted := by
  cases a with
  | acquired _ _ reply =>
    cases reply with
    | ok => trivial
    | error => exact h.elim
  | published _ _ _ s =>
    cases s with
    | none => trivial
    | some s => exact h
  | settled => exact h
  | _ => trivial

/-- No message is sent, and the engine itself reports nothing but the start. -/
def Quiet : Happening → Prop
  | emitted .engine e => e = .started
  | published _ _ _ _ | settled _ _ => False
  | _ => True

theorem Quiet.parcel {a : Happening} (h : a.Quiet) : a.parcel? = none := by
  cases a with
  | published => exact h.elim
  | _ => rfl

theorem Quiet.call {a : Happening} (h : a.Quiet) : a.call? = none := by
  cases a with
  | published => exact h.elim
  | _ => rfl

end Happening

variable {settings : Settings} {topic : Handle} {c : Context} {failure : Option Fault}
  {hs hs' : History} {render : Json → Keyed Json → Except Fault Json} {call : Functions}
  {past : List Inquiry}

namespace History

def inquiries (hs : History) : List Inquiry := hs.filterMap Happening.inquiry?

def shared (hs : History) : History := hs.filter Happening.shared

/-- Each thing goes smoothly, given the calls of functions before it. -/
def Smooth (render : Json → Keyed Json → Except Fault Json) (call : Functions) :
    List Inquiry → History → Prop
  | _, [] => True
  | past, a :: hs => a.Smooth render (call past) ∧ Smooth render call (past ++ a.inquiry?.toList) hs

@[simp] theorem inquiries_nil : inquiries [] = [] := rfl

@[simp] theorem inquiries_append (hs hs' : History) :
    inquiries (hs ++ hs') = inquiries hs ++ inquiries hs' := List.filterMap_append

theorem inquiries_cons (a : Happening) (hs : History) :
    inquiries (a :: hs) = a.inquiry?.toList ++ inquiries hs := by
  rw [inquiries, List.filterMap_cons]
  cases a.inquiry? <;> rfl

@[simp] theorem shared_append (hs hs' : History) : shared (hs ++ hs') = shared hs ++ shared hs' :=
  List.filter_append hs hs'

theorem inquiries_shared (hs : History) : inquiries (shared hs) = inquiries hs := by
  rw [inquiries, shared, List.filterMap_filter]
  refine List.filterMap_congr fun a _ => ?_
  cases hx : a.inquiry? with
  | none => split <;> rfl
  | some x => rw [if_pos (Happening.shared_of_inquiry hx)]

theorem inquiries_eq_of_shared (h : shared hs = shared hs') : inquiries hs = inquiries hs' := by
  rw [← inquiries_shared, h, inquiries_shared]

theorem inquiries_eq_nil (h : shared hs = []) : inquiries hs = [] := by
  rw [← inquiries_shared, h, inquiries_nil]

theorem smooth_append : Smooth render call past (hs ++ hs') ↔
    Smooth render call past hs ∧ Smooth render call (past ++ inquiries hs) hs' := by
  induction hs generalizing past with
  | nil => simp [Smooth]
  | cons a hs ih => rw [List.cons_append, Smooth, Smooth, ih, inquiries_cons, List.append_assoc, and_assoc]

theorem Smooth.granted (h : Smooth render call past hs) : ∀ a ∈ hs, a.Granted := by
  induction hs generalizing past with
  | nil => exact List.forall_mem_nil _
  | cons a hs ih => exact List.forall_mem_cons.mpr ⟨h.1.2, ih h.2⟩

theorem parcels_of_quiet (h : ∀ a ∈ hs, a.Quiet) : hs.filterMap Happening.parcel? = [] :=
  List.filterMap_eq_nil_iff.mpr fun a ha => (h a ha).parcel

end History

namespace Frame

def Early : Frame → Prop
  | .emit e => e = .started
  | .enter | .note _ => True
  | _ => False

/-- A frame that is served alike in both modes when there is a topic, but for the moment when messages
are ready: it neither sends nor acquires a topic, and what functions do leaves the topic alone. -/
def Later (topic : Handle) : Frame → Prop
  | .emit _ | .acquire _ | .send .. => False
  | .deeds ds => ds.map (Deed.on topic) = ds
  | _ => True

variable {f : Frame} {u : Upshot}

theorem Early.served (hf : f.Early) (h : f.Served settings c failure hs u) :
    (∃ d, u = .went [] d) ∧ hs.inquiries = [] ∧ ∀ a ∈ hs, a.Quiet := by
  cases h with
  | emit e => exact ⟨⟨c, rfl⟩, rfl, List.forall_mem_singleton.mpr hf⟩
  | enter => exact ⟨⟨_, rfl⟩, rfl, List.forall_mem_nil _⟩
  | note => exact ⟨⟨c, rfl⟩, rfl, List.forall_mem_singleton.mpr trivial⟩
  | _ => exact hf.elim

theorem Served.inquiries (h : f.Served settings c failure hs u) : ∀ x ∈ hs.inquiries, x.context = c := by
  cases h with
  | called | uncalled => exact List.forall_mem_singleton.mpr rfl
  | _ => exact List.forall_mem_nil _

theorem Later.quiet (hf : f.Later topic) (hd : settings.dryRun = true)
    (h : f.Served settings c failure hs u) : ∀ a ∈ hs, a.Quiet := by
  cases h with
  | emit | acquired | unacquired | sent | sentAtOnce | settled => exact hf.elim
  | topicless _ _ _ h | dispatch _ _ _ h => rw [hd] at h; cases h
  | _ => first | exact List.forall_mem_singleton.mpr trivial | exact List.forall_mem_nil _

theorem later_tasks (topic : Handle) (ts : List Task) : ∀ f ∈ ts.map Frame.task, f.Later topic := by
  intro f hf
  obtain ⟨t, -, rfl⟩ := List.mem_map.mp hf
  trivial

theorem Later.served {fs : List Frame} {d : Context} (hf : f.Later topic)
    (hd : settings.dryRun = true) (hpast : ∀ x ∈ past, x.context.publisher = some topic)
    (hp : c.publisher = some topic) (hcall : Untouched call)
    (h : f.Served settings c failure hs (.went fs d)) (hsmooth : hs.Smooth render call past) :
    (∀ g ∈ fs, g.Later topic) ∧ d.publisher = some topic := by
  cases h with
  | emit | acquired | sent | sentAtOnce | settled | delivered => exact hf.elim
  | dispatch _ _ _ h => rw [hd] at h; cases h
  | called name ds =>
    have hds : some ds = call past name c := hsmooth.1.1
    have hkept := hcall past name c topic
    rw [Inquiry.map_on_eq_self hpast, Context.on_eq_self hp, ← hds] at hkept
    exact ⟨List.forall_mem_singleton.mpr (Option.some.inj hkept).symm, hp⟩
  | turn body =>
    refine ⟨List.forall_mem_append.mpr ⟨later_tasks topic body, ?_⟩, hp⟩
    simp [Later]
  | became d ds =>
    obtain ⟨hbecame, hds⟩ := List.cons.inj hf
    have hd' : d.on topic = d := Deed.become.inj hbecame
    exact ⟨List.forall_mem_singleton.mpr hds, hd' ▸ rfl⟩
  | emitted | paused | inspected =>
    exact ⟨List.forall_mem_singleton.mpr (List.cons.inj hf).2, hp⟩
  | _ => simp [Later, Context.setVar, hp]

end Frame

namespace Run

variable {r r' q q' : Run}

/-- Nothing but what both modes do alike is left to do: the topic is still to be acquired, or there is
one, with which all functions were called. -/
inductive InStep : List Inquiry → Run → Prop where
  | early {fs gs : List Frame} (place : Destination) (c : Context) (hfs : ∀ f ∈ fs, f.Early)
    (hgs : ∀ topic, ∀ g ∈ gs, g.Later topic) : InStep [] ⟨fs ++ .acquire place :: gs, c, none⟩
  | later {past : List Inquiry} {r : Run} {topic : Handle}
    (hpast : ∀ x ∈ past, x.context.publisher = some topic) (hr : ∀ f ∈ r.control, f.Later topic)
    (hp : r.context.publisher = some topic) : InStep past r

theorem inStep_ofScenario (settings : Settings) (name : String) (tasks : List Task) (c : Context) :
    InStep [] (ofScenario settings name tasks c) := by
  have hearly : ∀ f ∈ [Frame.emit .started, .enter, .note (Log.debug
      s!"Initializing Pub/Sub publisher for {settings.project}/{settings.topic}")], f.Early := by
    simp [Frame.Early]
  refine .early ⟨settings.project, settings.topic⟩ c hearly fun topic => ?_
  exact List.forall_mem_append.mpr
    ⟨Frame.later_tasks topic tasks, List.forall_mem_singleton.mpr trivial⟩

def ready? (r : Run) : Option (List (List UInt8)) :=
  match r.control with
  | .render _ _ 0 ready :: _ => some ready
  | _ => none

def parcels (r : Run) : List (List UInt8 × Nat) := (r.ready?.getD []).zipIdx

/-- A path of a run, and the payloads that became ready on it, each with its number within its step. -/
inductive Prepares (settings : Settings) :
    Run → History → List (List UInt8 × Nat) → Run → Prop where
  | refl (r : Run) : Prepares settings r [] [] r
  | step {r r' r'' : Run} {hs hs' : History} {ps : List (List UInt8 × Nat)}
    (h : Moves settings r hs r') (hp : Prepares settings r' hs' ps r'') :
    Prepares settings r (hs ++ hs') (r.parcels ++ ps) r''

/-- A run goes on to another while nothing is refused, each with the calls of functions before it. -/
def SmoothNext (settings : Settings) (render : Json → Keyed Json → Except Fault Json)
    (call : Functions) (x' x : List Inquiry × Run) : Prop :=
  ∃ hs, Moves settings x.2 hs x'.2 ∧ hs.Smooth render call x.1 ∧ x'.1 = x.1 ++ hs.inquiries

theorem exists_smooth_moves (settings : Settings) (render : Json → Keyed Json → Except Fault Json)
    (call : Functions) (past : List Inquiry) (r : Run) (hr : r.control ≠ []) :
    ∃ hs r', Moves settings r hs r' ∧ hs.Smooth render call past := by
  obtain ⟨hs, r', hm, hwell⟩ := exists_moves settings hr
  have hthese (hobeys : ∀ a ∈ hs, a.Obeys render (call past)) (hlength : hs.length ≤ 1) :
      ∃ hs r', Moves settings r hs r' ∧ hs.Smooth render call past := by
    refine ⟨hs, r', hm, ?_⟩
    match hs with
    | [] => trivial
    | [a] => exact ⟨⟨hobeys a List.mem_cons_self, (hwell a List.mem_cons_self).granted⟩, trivial⟩
  rw [Moves] at hm
  cases hact : r.act settings with
  | finish =>
    rw [hact] at hm
    exact hm.elim
  | render template vars next =>
    refine ⟨[.rendered template vars (render template vars)], next (render template vars), ?_,
      ⟨rfl, trivial⟩, trivial⟩
    rw [Moves, hact]
    exact ⟨render template vars, rfl, rfl⟩
  | call name c next =>
    refine ⟨[.called name c (call past name c)], next (call past name c), ?_, ⟨rfl, trivial⟩, trivial⟩
    rw [Moves, hact]
    exact ⟨call past name c, rfl, rfl⟩
  | silent =>
    rw [hact] at hm
    obtain ⟨rfl, -⟩ := hm
    exact hthese (List.forall_mem_nil _) (Nat.zero_le 1)
  | acquire | publish =>
    rw [hact] at hm
    obtain ⟨reply, rfl, -⟩ := hm
    exact hthese (List.forall_mem_singleton.mpr trivial) (Nat.le_refl 1)
  | await =>
    rw [hact] at hm
    obtain ⟨n, s, -, rfl, -⟩ := hm
    exact hthese (List.forall_mem_singleton.mpr trivial) (Nat.le_refl 1)
  | _ =>
    rw [hact] at hm
    obtain ⟨rfl, -⟩ := hm
    exact hthese (List.forall_mem_singleton.mpr trivial) (Nat.le_refl 1)

theorem InStep.moves (h : InStep past r) (hcall : Untouched call) (hm : Moves settings.dry r hs r')
    (hsmooth : hs.Smooth render call past) :
    InStep (past ++ hs.inquiries) r' ∧ ∀ a ∈ hs, a.Quiet := by
  cases h with
  | @early fs gs place c hfs hgs =>
    cases fs with
    | nil =>
      obtain ⟨u, hu, rfl⟩ := moves_cons_iff.mp hm
      -- From here on there is a topic.
      cases hu with
      | acquired _ topic =>
        exact ⟨.later (List.forall_mem_nil _) (hgs topic) rfl, List.forall_mem_singleton.mpr trivial⟩
      | unacquired => exact (hsmooth.granted _ List.mem_cons_self).elim
    | cons f fs =>
      obtain ⟨hf, hfs⟩ := List.forall_mem_cons.mp hfs
      obtain ⟨u, hu, rfl⟩ := moves_cons_iff.mp hm
      obtain ⟨⟨d, rfl⟩, hnone, hquiet⟩ := hf.served hu
      rw [hnone]
      exact ⟨.early place d hfs hgs, hquiet⟩
  | @later past r topic hpast hr hp =>
    obtain ⟨_ | ⟨f, fs⟩, c, failure⟩ := r
    · exact absurd hm not_moves_nil
    obtain ⟨hf, hfs⟩ := List.forall_mem_cons.mp hr
    obtain ⟨u, hu, rfl⟩ := moves_cons_iff.mp hm
    have hpast' : ∀ x ∈ past ++ hs.inquiries, x.context.publisher = some topic :=
      List.forall_mem_append.mpr ⟨hpast, fun x hx => hu.inquiries x hx ▸ hp⟩
    refine ⟨?_, hf.quiet rfl hu⟩
    cases u with
    | went gs d =>
      obtain ⟨hgs, hd⟩ := hf.served rfl hpast hp hcall hu hsmooth
      exact .later hpast' (List.forall_mem_append.mpr ⟨hgs, hfs⟩) hd
    | failed g => exact .later hpast' (fun f hf => hfs f (List.mem_filter.mp hf).1) hp

theorem ready?_eq_some_iff {ready : List (List UInt8)} : r.ready? = some ready ↔
    ∃ template attributes after, r.control = .render template attributes 0 ready :: after := by
  obtain ⟨fs, c, failure⟩ := r
  simp only [ready?]
  constructor
  · intro h
    split at h
    · cases h
      exact ⟨_, _, _, rfl⟩
    · cases h
  · rintro ⟨_, _, _, rfl⟩
    rfl

theorem InStep.publisher (h : InStep past r) {ready : List (List UInt8)} (hready : r.ready? = some ready) :
    ∃ topic, r.context.publisher = some topic := by
  cases h with
  | @early fs gs place c hfs =>
    obtain ⟨template, attributes, after, hcontrol⟩ := ready?_eq_some_iff.mp hready
    cases fs with
    | nil => cases hcontrol
    | cons f fs =>
      obtain rfl : f = .render template attributes 0 ready := (List.cons.inj hcontrol).1
      exact (hfs _ List.mem_cons_self).elim
  | @later _ _ topic _ _ hp => exact ⟨topic, hp⟩

theorem act_live (h : r.ready? = none) : r.act settings.live = r.act settings.dry := by
  obtain ⟨_ | ⟨f, fs⟩, c, failure⟩ := r
  · rfl
  cases f with
  | render template attributes left ready =>
    cases left with
    | zero => cases h
    | succ left => rfl
  | send topic queue number inFlight kept => cases queue <;> cases inFlight <;> rfl
  | deeds ds => cases ds <;> rfl
  | _ => rfl

theorem moves_live_iff (h : r.ready? = none) :
    Moves settings.live r hs r' ↔ Moves settings.dry r hs r' := by
  rw [Moves, Moves, act_live h]

/-! ## Sending

While a live run sends, the dry run beside it waits where the live run will have come when all calls
have settled. -/

def unsent (queue : List Outgoing) (number : Nat) : List (List UInt8 × Nat) :=
  (queue.zipIdx number).map fun m => (m.1.data, m.2)

theorem unsent_dispatch (ready : List (List UInt8)) (attributes : Keyed String) :
    unsent (ready.map fun data => ⟨data, attributes⟩) 0 = ready.zipIdx := by
  simp [unsent, List.zipIdx_map, Function.comp_def]

/-- How many moves it takes at most until all calls have settled: a call that settles is reported in
three frames. -/
def effort (fs : List Frame) (queue : List Outgoing) (inFlight : List Nat) : Nat :=
  fs.length + 6 * queue.length + 5 * inFlight.length + 1

/-- `Trails past r q ps n`: the live run `r` is where the dry run `q` is, or it has to send `ps` and to
wait until it gets there, in at most `n` moves. -/
inductive Trails (past : List Inquiry) : Run → Run → List (List UInt8 × Nat) → Nat → Prop where
  | level {q : Run} (h : InStep past q) : Trails past q q [] 0
  | sending {q : Run} (h : InStep past q) {fs : List Frame} (hfs : ∀ f ∈ fs, f.report?.isSome)
    (topic : Handle) (queue : List Outgoing) (number : Nat) (inFlight : List Nat) :
    Trails past (q.goOn (fs ++ .send topic queue number inFlight none :: q.control)) q
      (unsent queue number) (effort fs queue inFlight)

theorem length_settledFrames_le (c : Context) (s : Settlement) : (settledFrames c s).length ≤ 3 := by
  rw [settledFrames]
  split <;> simp

theorem firstFailure_none {s : Settlement} (h : s.failure? = none) : firstFailure none s = none := by
  rw [firstFailure_eq_or, h, Option.or_none]

theorem run_settled (c : Context) (failure : Option Fault) (s : Settlement) (f : Frame)
    (after : List Frame) :
    (Upshot.went (settledFrames c s ++ [f]) c).run c failure after =
      ⟨settledFrames c s ++ f :: after, c, failure⟩ := by
  simp [Upshot.run]

/-- Each move of a run that sends shows a call or nothing that counts, and gets it closer to the dry run
beside it. -/
theorem sending_moves (h : InStep past q) {fs : List Frame} (hfs : ∀ f ∈ fs, f.report?.isSome)
    {queue : List Outgoing} {number : Nat} {inFlight : List Nat}
    (hm : Moves settings (q.goOn (fs ++ .send topic queue number inFlight none :: q.control)) hs r')
    (hgranted : ∀ a ∈ hs, a.Granted) :
    ∃ ps n, n < effort fs queue inFlight ∧ Trails past r' q ps n ∧ hs.shared = [] ∧
      hs.filterMap Happening.parcel? ++ ps = unsent queue number := by
  -- Reports go first, then what is queued, and then the calls in flight.
  cases fs with
  | cons f fs =>
    obtain ⟨hf, hfs⟩ := List.forall_mem_cons.mp hfs
    obtain ⟨a, ha⟩ := Option.isSome_iff_exists.mp hf
    obtain ⟨u, hu, rfl⟩ := moves_cons_iff.mp hm
    obtain ⟨rfl, rfl⟩ := (Frame.served_report_iff ha).mp hu
    refine ⟨_, _, ?_, .sending h hfs topic queue number inFlight, ?_, ?_⟩
    · simp only [effort, List.length_cons]
      omega
    · cases f <;> cases ha <;> rfl
    · cases f <;> cases ha <;> rfl
  | nil =>
    obtain ⟨u, hu, rfl⟩ := moves_cons_iff.mp hm
    cases hu with
    | sent _ m queue =>
      refine ⟨_, _, ?_, .sending h hfs topic queue (number + 1) (inFlight ++ [number]), rfl, rfl⟩
      simp only [effort, List.length_cons, List.length_append, List.length_nil]
      omega
    | sentAtOnce _ m queue _ _ _ s =>
      have hs : s.failure? = none := hgranted _ List.mem_cons_self
      have hlength := length_settledFrames_le q.context s
      have htrails := Trails.sending h (settledFrames_report (c := q.context) s) topic queue (number + 1)
        inFlight
      rw [Run.goOn, ← run_settled, ← firstFailure_none hs] at htrails
      refine ⟨_, _, ?_, htrails, rfl, rfl⟩
      simp only [effort, List.length_cons, List.length_nil]
      omega
    | @settled _ _ _ _ n hmem s =>
      have hs : s.failure? = none := hgranted _ List.mem_cons_self
      have hlength := length_settledFrames_le q.context s
      have herase := List.length_erase_of_mem hmem
      have hpositive := List.length_pos_of_mem hmem
      have htrails := Trails.sending h (settledFrames_report (c := q.context) s) topic [] number
        (inFlight.erase n)
      rw [Run.goOn, ← run_settled, ← firstFailure_none hs] at htrails
      refine ⟨_, _, ?_, htrails, rfl, rfl⟩
      simp only [effort, List.length_nil]
      omega
    | delivered =>
      exact ⟨[], 0, Nat.succ_pos _, .level h, rfl, rfl⟩

/-! ## The two modes side by side -/

theorem InStep.moves_live (h : InStep past q) (hcall : Untouched call)
    (hm : Moves settings.dry q hs q') (hsmooth : hs.Smooth render call past) :
    ∃ hs' r' n, Moves settings.live q hs' r' ∧ hs'.Smooth render call past ∧
      Trails (past ++ hs.inquiries) r' q' q.parcels n ∧ hs'.shared = hs.shared ∧
      hs'.filterMap Happening.parcel? = [] := by
  obtain ⟨hq', hquiet⟩ := h.moves hcall hm hsmooth
  cases hready : q.ready? with
  | none =>
    have hparcels : q.parcels = [] := by simp [parcels, hready]
    rw [hparcels]
    exact ⟨hs, q', 0, (moves_live_iff hready).mpr hm, hsmooth, .level hq', rfl,
      History.parcels_of_quiet hquiet⟩
  | some ready =>
    have hparcels : q.parcels = ready.zipIdx := by simp [parcels, hready]
    obtain ⟨template, attributes, after, hcontrol⟩ := ready?_eq_some_iff.mp hready
    obtain ⟨control, c, failure⟩ := q
    obtain rfl : control = _ := hcontrol
    obtain ⟨topic, hp⟩ := h.publisher hready
    obtain ⟨u, hu, rfl⟩ := moves_cons_iff.mp hm
    cases hu with
    | topicless _ _ _ hd | dispatch _ _ _ hd => cases hd
    | dry =>
      have htrails := Trails.sending hq' (List.forall_mem_nil _) topic
        (ready.map fun data => ⟨data, attributes⟩) 0 []
      rw [unsent_dispatch, ← hparcels] at htrails
      exact ⟨[], _, _, moves_of_served (.dispatch template attributes ready rfl hp), trivial, htrails,
        rfl, rfl⟩

theorem Trails.moves {ps : List (List UInt8 × Nat)} {n : Nat} (h : Trails past r q ps n)
    (hcall : Untouched call) (hm : Moves settings.live r hs r') (hsmooth : hs.Smooth render call past) :
    (∃ ps' n', n' < n ∧ Trails past r' q ps' n' ∧ hs.shared = [] ∧
      hs.filterMap Happening.parcel? ++ ps' = ps) ∨
    ∃ hs' q' n', Moves settings.dry q hs' q' ∧ hs'.Smooth render call past ∧
      Trails (past ++ hs.inquiries) r' q' q.parcels n' ∧ hs'.shared = hs.shared ∧
      hs.filterMap Happening.parcel? = [] ∧ ps = [] := by
  cases h with
  | sending h hfs topic queue number inFlight => exact .inl (sending_moves h hfs hm hsmooth.granted)
  | level h =>
    refine .inr ?_
    cases hready : r.ready? with
    | none =>
      have hdry := (moves_live_iff hready).mp hm
      obtain ⟨hr', hquiet⟩ := h.moves hcall hdry hsmooth
      have hparcels : r.parcels = [] := by simp [parcels, hready]
      rw [hparcels]
      exact ⟨hs, r', 0, hdry, hsmooth, .level hr', rfl, History.parcels_of_quiet hquiet, rfl⟩
    | some ready =>
      have hparcels : r.parcels = ready.zipIdx := by simp [parcels, hready]
      obtain ⟨template, attributes, after, hcontrol⟩ := ready?_eq_some_iff.mp hready
      obtain ⟨control, c, failure⟩ := r
      obtain rfl : control = _ := hcontrol
      have hdry : Moves settings.dry ⟨.render template attributes 0 ready :: after, c, failure⟩ _ _ :=
        moves_of_served (.dry template attributes ready rfl)
      have hnoted : History.Smooth render call past [.noted (Log.debug
          s!"Dry run: prepared {ready.length} message(s), nothing sent")] := ⟨⟨trivial, trivial⟩, trivial⟩
      obtain ⟨hq', -⟩ := h.moves hcall hdry hnoted
      obtain ⟨u, hu, rfl⟩ := moves_cons_iff.mp hm
      cases hu with
      | dry _ _ _ hd => cases hd
      | topicless _ _ _ _ hp =>
        obtain ⟨topic, htopic⟩ := h.publisher hready
        rw [hp] at htopic
        cases htopic
      | @dispatch _ _ _ topic =>
        have htrails := Trails.sending hq' (List.forall_mem_nil _) topic
          (ready.map fun data => ⟨data, attributes⟩) 0 []
        rw [unsent_dispatch, ← hparcels] at htrails
        exact ⟨_, _, _, hdry, hnoted, htrails, rfl, rfl, rfl⟩

theorem Trails.finish (settings : Settings) (render : Json → Keyed Json → Except Fault Json)
    (call : Functions) {ps : List (List UInt8 × Nat)} {n : Nat} (h : Trails past r q ps n) :
    ∃ hs, Path settings r hs q ∧ hs.Smooth render call past ∧ hs.shared = [] ∧
      hs.filterMap Happening.parcel? = ps := by
  induction n using Nat.strongRecOn generalizing r ps with
  | ind n ih =>
    cases h with
    | level h => exact ⟨[], .refl _, trivial, rfl, rfl⟩
    | @sending q h fs hfs topic queue number inFlight =>
      obtain ⟨hs, r', hm, hsmooth⟩ :=
        exists_smooth_moves settings render call past
          (q.goOn (fs ++ .send topic queue number inFlight none :: q.control)) (by simp [goOn])
      obtain ⟨ps, n, hn, htrails, hshared, hparcels⟩ := sending_moves h hfs hm hsmooth.granted
      obtain ⟨hs', hpath, hsmooth', hshared', rfl⟩ := ih n hn htrails
      have hnone : hs.inquiries = [] := History.inquiries_eq_nil hshared
      refine ⟨hs ++ hs', .step hm hpath, ?_, ?_, ?_⟩
      · rw [History.smooth_append, hnone, List.append_nil]
        exact ⟨hsmooth, hsmooth'⟩
      · rw [History.shared_append, hshared, hshared', List.append_nil]
      · rw [List.filterMap_append, hparcels]

theorem Prepares.quiet {ps : List (List UInt8 × Nat)} (h : Prepares settings.dry q hs ps q')
    (hq : InStep past q) (hcall : Untouched call) (hsmooth : hs.Smooth render call past) :
    ∀ a ∈ hs, a.Quiet := by
  induction h generalizing past with
  | refl => exact List.forall_mem_nil _
  | step hm _ ih =>
    obtain ⟨hfirst, hlater⟩ := History.smooth_append.mp hsmooth
    obtain ⟨hq', hquiet⟩ := hq.moves hcall hm hfirst
    exact List.forall_mem_append.mpr ⟨hquiet, ih hq' hlater⟩

theorem Prepares.live {ps : List (List UInt8 × Nat)} (h : Prepares settings.dry q hs ps q')
    (hq : InStep past q) (hcall : Untouched call) (hsmooth : hs.Smooth render call past) :
    ∃ hs', Path settings.live q hs' q' ∧ hs'.Smooth render call past ∧ hs'.shared = hs.shared ∧
      hs'.filterMap Happening.parcel? = ps := by
  induction h generalizing past with
  | refl q => exact ⟨[], .refl q, trivial, rfl, rfl⟩
  | @step q q₁ q₂ hs₁ hs₂ ps hm _ ih =>
    obtain ⟨hfirst, hlater⟩ := History.smooth_append.mp hsmooth
    obtain ⟨hq₁, -⟩ := hq.moves hcall hm hfirst
    obtain ⟨hs₂', hpath₂, hsmooth₂, hshared₂, hparcels₂⟩ := ih hq₁ hlater
    obtain ⟨hs', r, n, hm', hsmooth', htrails, hshared', hparcels'⟩ := hq.moves_live hcall hm hfirst
    obtain ⟨hs'', hpath, hsmooth'', hshared'', hparcels''⟩ := htrails.finish settings.live render call
    have hsame : hs'.inquiries = hs₁.inquiries := History.inquiries_eq_of_shared hshared'
    have hnone : hs''.inquiries = [] := History.inquiries_eq_nil hshared''
    refine ⟨hs' ++ (hs'' ++ hs₂'), .step hm' (hpath.trans hpath₂), ?_, ?_, ?_⟩
    · rw [History.smooth_append, History.smooth_append, hsame, hnone, List.append_nil]
      exact ⟨hsmooth', hsmooth'', hsmooth₂⟩
    · simp only [History.shared_append, hshared', hshared'', hshared₂, List.nil_append]
    · simp only [List.filterMap_append, hparcels', hparcels'', hparcels₂, List.nil_append]

/-- Beside a live run there is a dry run, which has prepared what the live run has sent and has still to
send. -/
theorem Trails.rehearsed {ps : List (List UInt8 × Nat)} {n : Nat} (h : Trails past r q ps n)
    (hcall : Untouched call) (hp : Path settings.live r hs r') (hsmooth : hs.Smooth render call past) :
    ∃ hs' ps' q' left n', Prepares settings.dry q hs' ps' q' ∧ hs'.Smooth render call past ∧
      Trails (past ++ hs.inquiries) r' q' left n' ∧ hs'.shared = hs.shared ∧
      hs.filterMap Happening.parcel? ++ left = ps ++ ps' := by
  induction hp generalizing q ps n past with
  | refl r => exact ⟨[], [], q, ps, n, .refl q, trivial, by simpa using h, rfl, by simp⟩
  | @step r r₁ r₂ hs₁ hs₂ hm _ ih =>
    obtain ⟨hfirst, hlater⟩ := History.smooth_append.mp hsmooth
    rw [History.inquiries_append, ← List.append_assoc]
    -- The live run moves alone while it sends, and with the dry run otherwise.
    obtain ⟨ps₁, n₁, -, htrails, hshared, hparcels⟩ |
      ⟨hs₁', q₁, n₁, hm', hsmooth', htrails, hshared, hparcels, rfl⟩ := h.moves hcall hm hfirst
    · have hnone : hs₁.inquiries = [] := History.inquiries_eq_nil hshared
      rw [hnone, List.append_nil] at hlater ⊢
      obtain ⟨hs', ps', q', left, n', hpath, hsmooth₂, htrails₂, hshared₂, hparcels₂⟩ :=
        ih htrails hlater
      refine ⟨hs', ps', q', left, n', hpath, hsmooth₂, htrails₂, ?_, ?_⟩
      · rw [History.shared_append, hshared, List.nil_append, hshared₂]
      · rw [List.filterMap_append, List.append_assoc, hparcels₂, ← List.append_assoc, hparcels]
    · have hsame : hs₁'.inquiries = hs₁.inquiries := History.inquiries_eq_of_shared hshared
      obtain ⟨hs', ps', q', left, n', hpath, hsmooth₂, htrails₂, hshared₂, hparcels₂⟩ :=
        ih htrails hlater
      refine ⟨hs₁' ++ hs', q.parcels ++ ps', q', left, n', .step hm' hpath, ?_, htrails₂, ?_, ?_⟩
      · rw [History.smooth_append, hsame]
        exact ⟨hsmooth', hsmooth₂⟩
      · rw [History.shared_append, History.shared_append, hshared, hshared₂]
      · rw [List.filterMap_append, hparcels, List.nil_append, List.nil_append, hparcels₂]

theorem Trails.ended {ps : List (List UInt8 × Nat)} {n : Nat} (h : Trails past r q ps n)
    (hr : r.control = []) : q = r ∧ ps = [] := by
  cases h with
  | level => exact ⟨rfl, rfl⟩
  | sending => simp [goOn] at hr

/-- A live run cannot go on for ever if the dry run beside it cannot. By induction on the dry run, and
then on how far behind the live run is. -/
theorem Trails.acc_live {ps : List (List UInt8 × Nat)} {n : Nat} {x : List Inquiry × Run}
    (h : Trails x.1 r x.2 ps n) (hcall : Untouched call)
    (hacc : Acc (SmoothNext settings.dry render call) x) :
    Acc (SmoothNext settings.live render call) (x.1, r) := by
  induction hacc generalizing r ps n with
  | intro x _ ih =>
    -- A move of the live run alone gets it closer; any other is a move of the dry run as well.
    induction n using Nat.strongRecOn generalizing r ps with
    | ind n ihn =>
      refine .intro _ fun (past, r') ⟨hs, hm, hsmooth, hpast⟩ => ?_
      obtain rfl : past = x.1 ++ hs.inquiries := hpast
      obtain ⟨ps', n', hn, htrails, hshared, -⟩ | ⟨hs', q', n', hm', hsmooth', htrails, hshared, -⟩ :=
        h.moves hcall hm hsmooth
      · have hnone : hs.inquiries = [] := History.inquiries_eq_nil hshared
        rw [hnone, List.append_nil]
        exact ihn n' hn htrails
      · have hsame : hs'.inquiries = hs.inquiries := History.inquiries_eq_of_shared hshared
        exact ih (x.1 ++ hs.inquiries, q') ⟨hs', hm', hsmooth', hsame ▸ rfl⟩ htrails

theorem Trails.acc_dry {ps : List (List UInt8 × Nat)} {n : Nat} {x : List Inquiry × Run}
    (h : Trails x.1 x.2 q ps n) (hcall : Untouched call)
    (hacc : Acc (SmoothNext settings.live render call) x) :
    Acc (SmoothNext settings.dry render call) (x.1, q) := by
  induction hacc generalizing q ps n with
  | intro x _ ih =>
    obtain ⟨past, r⟩ := x
    cases h with
    | level h =>
      refine .intro _ fun (past', q') ⟨hs, hm, hsmooth, hpast⟩ => ?_
      obtain rfl : past' = past ++ hs.inquiries := hpast
      obtain ⟨hs', r', n', hm', hsmooth', htrails, hshared, -⟩ := h.moves_live hcall hm hsmooth
      have hsame : hs'.inquiries = hs.inquiries := History.inquiries_eq_of_shared hshared
      exact ih (past ++ hs.inquiries, r') ⟨hs', hm', hsmooth', hsame ▸ rfl⟩ htrails
    | @sending q h fs hfs topic queue number inFlight =>
      obtain ⟨hs, r', hm, hsmooth⟩ :=
        exists_smooth_moves settings.live render call past
          (q.goOn (fs ++ .send topic queue number inFlight none :: q.control)) (by simp [goOn])
      obtain ⟨ps', n', -, htrails, hshared, -⟩ := sending_moves h hfs hm hsmooth.granted
      have hnone : hs.inquiries = [] := History.inquiries_eq_nil hshared
      exact ih (past, r') ⟨hs, hm, hsmooth, by simp [hnone]⟩ htrails

end Run
end Engine
end TopicLoad
