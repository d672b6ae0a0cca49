import TopicLoad.Proofs.Serving

/-! The books of one run. A run owes an entry for its start and entries for every call that settles, and
pays them by emitting events; what it owes and has not paid lies at the front of its work. Calls that
were made and did not settle are in flight. -/
namespace TopicLoad

/-- An event without what was measured. -/
inductive Entry where
  | started
  | counter (name : String) (value : Nat)
  | sample (name : String)
deriving DecidableEq, Repr

def Event.entry : Event → Entry
  | .started => .started
  | .counter name value => .counter name value
  | .histogram name _ => .sample name

namespace Entry

def weight (w : Entry → Nat) : List Entry → Nat
  | [] => 0
  | e :: es => w e + weight w es

variable (w : Entry → Nat)

@[simp] theorem weight_nil : weight w [] = 0 := rfl

@[simp] theorem weight_cons (e : Entry) (es : List Entry) :
    weight w (e :: es) = w e + weight w es := rfl

@[simp] theorem weight_append (es es' : List Entry) :
    weight w (es ++ es') = weight w es + weight w es' := by
  induction es with
  | nil => simp
  | cons e es ih =>
    rw [List.cons_append, weight_cons, weight_cons, ih]
    omega

end Entry
namespace Engine

def Settlement.due (s : Settlement) : List Entry :=
  match s.reply with
  | .ok _ => [.counter messagesPublished 1, .sample publishLatency]
  | .error _ => [.counter publishErrors 1]

namespace Happening

def due (a : Happening) : List Entry :=
  match a.settlement? with
  | some s => s.2.due
  | none => []

def made : Happening → List Entry
  | emitted .engine e => [e.entry]
  | _ => []

end Happening
namespace Frame

def pending : Frame → List Entry
  | .emit e => [e.entry]
  | _ => []

def flying : Frame → Nat
  | .send _ _ _ inFlight _ => inFlight.length
  | _ => 0

/-- A frame that owes nothing. -/
def Quiet (f : Frame) : Prop := f.pending = [] ∧ f.flying = 0

end Frame
namespace Run

variable {settings : Settings} {c : Context} {failure : Option Fault} {f : Frame} {fs gs : List Frame}
  {hs : History} {u : Upshot}

def pending (fs : List Frame) : List Entry := fs.flatMap Frame.pending

def flying : List Frame → Nat
  | [] => 0
  | f :: fs => f.flying + flying fs

@[simp] theorem pending_nil : pending [] = [] := rfl

@[simp] theorem pending_cons (f : Frame) (fs : List Frame) :
    pending (f :: fs) = f.pending ++ pending fs := rfl

@[simp] theorem pending_append (fs gs : List Frame) : pending (fs ++ gs) = pending fs ++ pending gs :=
  List.flatMap_append

@[simp] theorem flying_nil : flying [] = 0 := rfl

@[simp] theorem flying_cons (f : Frame) (fs : List Frame) :
    flying (f :: fs) = f.flying + flying fs := rfl

@[simp] theorem flying_append (fs gs : List Frame) : flying (fs ++ gs) = flying fs + flying gs := by
  induction fs with
  | nil => simp
  | cons f fs ih =>
    rw [List.cons_append, flying_cons, flying_cons, ih]
    omega

theorem pending_of_quiet (h : ∀ f ∈ fs, f.Quiet) : pending fs = [] :=
  List.flatMap_eq_nil_iff.mpr fun f hf => (h f hf).1

theorem flying_of_quiet (h : ∀ f ∈ fs, f.Quiet) : flying fs = 0 := by
  induction fs with
  | nil => rfl
  | cons f fs ih =>
    obtain ⟨hf, hfs⟩ := List.forall_mem_cons.mp h
    rw [flying_cons, hf.2, ih hfs]

/-- Reports come first; behind the first frame that is none nothing is owed. -/
def Tidy : List Frame → Prop
  | [] => True
  | f :: fs => f.report?.isSome ∧ Tidy fs ∨ ∀ g ∈ fs, g.Quiet

theorem tidy_of_quiet (h : ∀ f ∈ fs, f.Quiet) : Tidy fs := by
  cases fs with
  | nil => trivial
  | cons f fs => exact Or.inr (List.forall_mem_cons.mp h).2

theorem Tidy.append (h : Tidy fs) (hg : ∀ g ∈ gs, g.Quiet) : Tidy (fs ++ gs) := by
  induction fs with
  | nil => exact tidy_of_quiet hg
  | cons f fs ih =>
    rcases h with ⟨hf, hfs⟩ | hfs
    · exact Or.inl ⟨hf, ih hfs⟩
    · exact Or.inr (List.forall_mem_append.mpr ⟨hfs, hg⟩)

theorem tidy_reports_append (hf : ∀ f ∈ fs, f.report?.isSome) (h : Tidy gs) : Tidy (fs ++ gs) := by
  induction fs with
  | nil => exact h
  | cons f fs ih =>
    obtain ⟨hf, hfs⟩ := List.forall_mem_cons.mp hf
    exact Or.inl ⟨hf, ih hfs⟩

theorem quiet_tasks {ts : List Task} : ∀ f ∈ ts.map Frame.task, f.Quiet := by
  intro f hf
  obtain ⟨t, -, rfl⟩ := List.mem_map.mp hf
  exact ⟨rfl, rfl⟩

theorem pending_settledFrames (s : Settlement) : pending (settledFrames c s) = s.due := by
  rw [settledFrames, Settlement.due]
  cases s.reply <;> rfl

theorem flying_settledFrames (s : Settlement) : flying (settledFrames c s) = 0 := by
  rw [settledFrames]
  cases s.reply <;> rfl

end Run
namespace Frame

open Run

variable {settings : Settings} {c d : Context} {failure : Option Fault} {f : Frame} {fs : List Frame}
  {hs : History}

/-- Serving a frame that goes well pays what is owed, and owes what falls due. -/
theorem Served.balanced (h : f.Served settings c failure hs (.went fs d)) (w : Entry → Nat) :
    Entry.weight w f.pending + Entry.weight w (hs.flatMap Happening.due) =
      Entry.weight w (hs.flatMap Happening.made) + Entry.weight w (Run.pending fs) := by
  cases h with
  | turn body =>
    simp [pending_of_quiet quiet_tasks, Frame.pending]
  | sentAtOnce topic m queue number inFlight kept s =>
    simp [pending_settledFrames, Frame.pending, Happening.due, Happening.made, Happening.settlement?]
  | settled topic number kept hn s =>
    simp [pending_settledFrames, Frame.pending, Happening.due, Happening.made, Happening.settlement?]
  | _ => simp [Frame.pending, Happening.due, Happening.made, Happening.settlement?]

theorem Served.flies (h : f.Served settings c failure hs (.went fs d)) :
    f.flying + (hs.filterMap Happening.call?).length =
      (hs.filterMap Happening.settlement?).length + Run.flying fs := by
  cases h with
  | turn body =>
    rw [flying_append, flying_of_quiet quiet_tasks]
    rfl
  | sent topic m queue number inFlight kept =>
    simp [List.filterMap_cons, Frame.flying, Happening.call?, Happening.settlement?]
  | sentAtOnce topic m queue number inFlight kept s =>
    rw [flying_append, flying_settledFrames, Nat.zero_add, Nat.add_comm]
    rfl
  | @settled topic number inFlight kept n hn s =>
    have hpos : 0 < inFlight.length := List.length_pos_of_mem hn
    have hlength : 0 + inFlight.length = 1 + ((inFlight.erase n).length + 0) := by
      rw [List.length_erase_of_mem hn]
      omega
    rw [flying_append, flying_settledFrames, Nat.zero_add, Nat.add_comm]
    exact hlength
  | _ => rfl

theorem Served.tidy (h : f.Served settings c failure hs (.went fs d)) : Tidy fs := by
  cases h with
  | turn body =>
    refine tidy_of_quiet (List.forall_mem_append.mpr ⟨quiet_tasks, ?_⟩)
    simp [Quiet, Frame.pending, Frame.flying]
  | sentAtOnce | settled => exact tidy_reports_append (settledFrames_report _) (Or.inr (by simp))
  | _ => simp [Tidy, Quiet, Frame.pending, Frame.flying]

theorem Served.quiet {g : Fault} (h : f.Served settings c failure hs (.failed g)) :
    f.Quiet ∧ f.report? = none ∧ hs.flatMap Happening.due = [] ∧ hs.flatMap Happening.made = [] ∧
      hs.filterMap Happening.call? = [] ∧ hs.filterMap Happening.settlement? = [] := by
  cases h <;> exact ⟨⟨rfl, rfl⟩, rfl, rfl, rfl, rfl, rfl⟩

end Frame
namespace Run

variable {settings : Settings} {r r' : Run} {hs hs' : History}

/-- The books of a run that has shown a history: its start and all that has fallen due has been entered
or is still owed, and the calls that did not settle are in flight. -/
structure Books (r : Run) (hs : History) : Prop where
  tidy : Tidy r.control
  balanced : ∀ w : Entry → Nat, w .started + Entry.weight w (hs.flatMap Happening.due) =
    Entry.weight w (hs.flatMap Happening.made) + Entry.weight w (pending r.control)
  flies : (hs.filterMap Happening.call?).length =
    (hs.filterMap Happening.settlement?).length + flying r.control

theorem books_ofScenario (settings : Settings) (name : String) (tasks : List Task) (c : Context) :
    Books (ofScenario settings name tasks c) [] := by
  have hrest : ∀ f ∈ Frame.enter :: setup settings ++ tasks.map Frame.task ++ [Frame.conclude name],
      f.Quiet := by
    refine List.forall_mem_append.mpr ⟨List.forall_mem_append.mpr ⟨?_, quiet_tasks⟩, ?_⟩
    · simp [setup, Frame.Quiet, Frame.pending, Frame.flying]
    · simp [Frame.Quiet, Frame.pending, Frame.flying]
  have hpending : pending (ofScenario settings name tasks c).control = [.started] :=
    congrArg (Entry.started :: ·) (pending_of_quiet hrest)
  have hflying : flying (ofScenario settings name tasks c).control = 0 := by
    have hcons := flying_cons (.emit .started)
      (.enter :: setup settings ++ tasks.map Frame.task ++ [.conclude name])
    rw [flying_of_quiet hrest] at hcons
    exact hcons
  refine ⟨Or.inl ⟨rfl, tidy_of_quiet hrest⟩, fun w => ?_, ?_⟩
  · rw [hpending]
    simp
  · rw [hflying]
    rfl

theorem Books.moves (hb : Books r hs) (hm : Moves settings r hs' r') : Books r' (hs ++ hs') := by
  obtain ⟨htidy, hbalanced, hflies⟩ := hb
  obtain ⟨_ | ⟨f, fs⟩, c, failure⟩ := r
  · exact absurd hm not_moves_nil
  obtain ⟨u, hu, rfl⟩ := moves_cons_iff.mp hm
  cases u with
  | went gs d =>
    have htidy' : Tidy (gs ++ fs) := by
      rcases htidy with ⟨hf, hfs⟩ | hfs
      · obtain ⟨a, ha⟩ := Option.isSome_iff_exists.mp hf
        obtain ⟨-, hgs⟩ := (Frame.served_report_iff ha).mp hu
        cases hgs
        exact hfs
      · exact hu.tidy.append hfs
    refine ⟨htidy', fun w => ?_, ?_⟩
    · have hold := hbalanced w
      have hnew := hu.balanced w
      simp only [Upshot.run, List.flatMap_append, pending_cons, pending_append, Entry.weight_append]
        at hold ⊢
      omega
    · have hnew := hu.flies
      simp only [Upshot.run, List.filterMap_append, List.length_append, flying_cons, flying_append]
        at hflies ⊢
      omega
  | failed g =>
    -- A failure drops frames, but it comes from no report, so nothing that is dropped owes anything.
    obtain ⟨⟨hpending, hflying⟩, hreport, hdue, hmade, hcalls, hsettlements⟩ := hu.quiet
    have hfs : ∀ f ∈ fs, f.Quiet := by
      rcases htidy with ⟨hf, -⟩ | hfs
      · rw [hreport] at hf
        cases hf
      · exact hfs
    have hfs' : ∀ f ∈ fs.filter Frame.survives, f.Quiet := fun f hf => hfs f (List.mem_filter.mp hf).1
    refine ⟨tidy_of_quiet hfs', fun w => ?_, ?_⟩
    · have hold := hbalanced w
      rw [pending_cons, hpending, pending_of_quiet hfs] at hold
      rw [Upshot.run, List.flatMap_append, List.flatMap_append, hdue, hmade, pending_of_quiet hfs',
        List.append_nil, List.append_nil]
      exact hold
    · rw [flying_cons, hflying, flying_of_quiet hfs] at hflies
      rw [Upshot.run, List.filterMap_append, List.filterMap_append, hcalls, hsettlements,
        flying_of_quiet hfs', List.append_nil, List.append_nil]
      exact hflies

/-- A run that is not about to report anything. -/
def AtRest (settings : Settings) (r : Run) : Prop :=
  match r.act settings with
  | .emit _ _ | .note _ _ => False
  | _ => True

theorem Books.pending_atRest (hb : Books r hs) (hr : r.AtRest settings) : pending r.control = [] := by
  obtain ⟨_ | ⟨f, fs⟩, c, failure⟩ := r
  · rfl
  have hreport : f.report? = none := by
    cases f with
    | emit e => exact hr.elim
    | note line => exact hr.elim
    | _ => rfl
  have hfs : ∀ g ∈ fs, g.Quiet := by
    rcases hb.tidy with ⟨hf, -⟩ | hfs
    · rw [hreport] at hf
      cases hf
    · exact hfs
  rw [pending_cons, pending_of_quiet hfs, List.append_nil]
  cases f with
  | emit e => cases hreport
  | _ => rfl

end Run
end Engine
end TopicLoad
