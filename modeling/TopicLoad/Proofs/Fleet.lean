import TopicLoad.Proofs.Ledger

/-! Runs that share one collector. Runs are begun at any time, served in any order and may be given up
where they rest; between reports the collector holds exactly what all of them have entered. -/
namespace TopicLoad

namespace Entry

def starts : Entry → Nat
  | .started => 1
  | _ => 0

def added (name : String) : Entry → Nat
  | .counter k n => if k = name then n else 0
  | _ => 0

def sampled (name : String) : Entry → Nat
  | .sample k => if k = name then 1 else 0
  | _ => 0

end Entry

/-- A collector that has recorded certain entries, in whatever order. -/
structure Metrics.Tallies (m : Metrics) (es : List Entry) : Prop where
  started : m.started = Entry.weight Entry.starts es % counterLimit
  counter : ∀ name, m.counter name = Entry.weight (Entry.added name) es % counterLimit
  samples : ∀ name, (m.samples name).length = Entry.weight (Entry.sampled name) es

namespace Metrics.Tallies

variable {m : Metrics} {es es' : List Entry}

theorem empty : Tallies {} [] := ⟨rfl, fun _ => rfl, fun _ => rfl⟩

theorem congr (h : m.Tallies es) (hes : ∀ w, Entry.weight w es = Entry.weight w es') : m.Tallies es' :=
  ⟨hes _ ▸ h.started, fun name => hes _ ▸ h.counter name, fun name => hes _ ▸ h.samples name⟩

theorem record (h : m.Tallies es) (e : Event) : (m.record e).Tallies (es ++ [e.entry]) := by
  refine ⟨?_, fun name => ?_, fun name => ?_⟩
  · have hold := h.started
    rw [started_record, Entry.weight_append]
    cases e <;> simp [hold, Event.entry, Entry.starts]
  · have hold := h.counter name
    rw [counter_record, Entry.weight_append]
    cases e with
    | counter k n =>
      by_cases hk : k = name
      · simp [hk, hold, Event.entry, Entry.added]
      · simp [hk, hold, Event.entry, Entry.added]
    | _ => simpa [Event.entry, Entry.added] using hold
  · have hold := h.samples name
    rw [samples_record, Entry.weight_append]
    cases e with
    | histogram k s =>
      by_cases hk : k = name
      · simp [hk, hold, Event.entry, Entry.sampled]
      · simp [hk, hold, Event.entry, Entry.sampled]
    | _ => simpa [Event.entry, Entry.sampled] using hold

theorem recordAll (h : m.Tallies es) (events : List Event) :
    (m.recordAll events).Tallies (es ++ events.map Event.entry) := by
  induction events generalizing m es with
  | nil => exact (List.append_nil es).symm ▸ h
  | cons e events ih =>
    have hrest := ih (h.record e)
    rw [List.append_assoc] at hrest
    exact hrest

end Metrics.Tallies
namespace Engine

/-- A run among others: what it has shown, and whether it has been given up. -/
structure Member where
  settings : Settings
  run : Run
  shown : History := []
  dropped : Bool := false

/-- What a collector and the runs that share it can come to. -/
inductive Reached : Metrics → List Member → Prop where
  | nil : Reached {} []
  | begun {m : Metrics} {ms : List Member} (h : Reached m ms) (settings : Settings) (name : String)
    (tasks : List Task) (c : Context) :
    Reached m (ms ++ [{ settings, run := Run.ofScenario settings name tasks c }])
  | served {m : Metrics} {ms ms' : List Member} {x : Member} {hs : History} {r : Run}
    (h : Reached m (ms ++ x :: ms')) (hlive : x.dropped = false)
    (hm : Run.Moves x.settings x.run hs r) :
    Reached (m.recordAll (hs.filterMap Happening.event?))
      (ms ++ { x with run := r, shown := x.shown ++ hs } :: ms')
  | dropped {m : Metrics} {ms ms' : List Member} {x : Member} (h : Reached m (ms ++ x :: ms'))
    (hrest : x.run.AtRest x.settings) : Reached m (ms ++ { x with dropped := true } :: ms')

namespace Member

def history (ms : List Member) : History := ms.flatMap Member.shown

/-- How many calls are in flight, or were when their run was given up. -/
def inFlight : List Member → Nat
  | [] => 0
  | x :: ms => Run.flying x.run.control + inFlight ms

end Member
namespace Happening

def entries (a : Happening) : List Entry := (a.event?.map Event.entry).toList

end Happening
namespace History

def published (hs : History) : Nat :=
  (hs.filterMap Happening.settlement?).countP fun s => s.2.failure?.isNone

def rejected (hs : History) : Nat :=
  (hs.filterMap Happening.settlement?).countP fun s => s.2.failure?.isSome

theorem published_add_rejected (hs : History) :
    published hs + rejected hs = (hs.filterMap Happening.settlement?).length := by
  have hsome : (fun s : Nat × Settlement => s.2.failure?.isSome) =
      fun s => decide ¬ s.2.failure?.isNone = true := by
    funext s
    cases s.2.failure? <;> rfl
  rw [published, rejected, hsome]
  exact (List.length_eq_countP_add_countP _).symm

theorem entries_eq (hs : History) :
    (hs.filterMap Happening.event?).map Event.entry = hs.flatMap Happening.entries := by
  induction hs with
  | nil => rfl
  | cons a hs ih => cases ha : a.event? <;> simp [Happening.entries, ha, ih]

theorem weight_due (w : Entry → Nat) (hs : History) : Entry.weight w (hs.flatMap Happening.due) =
    published hs * (w (.counter messagesPublished 1) + w (.sample publishLatency)) +
      rejected hs * w (.counter publishErrors 1) := by
  induction hs with
  | nil => simp [published, rejected]
  | cons a hs ih =>
    rw [List.flatMap_cons, Entry.weight_append, ih]
    cases ha : a.settlement? with
    | none => simp [Happening.due, ha, published, rejected]
    | some s =>
      cases hr : s.2.reply with
      | ok id =>
        simp [Happening.due, ha, published, rejected, Settlement.due, Settlement.failure?, hr,
          Nat.add_mul]
        omega
      | error f =>
        simp [Happening.due, ha, published, rejected, Settlement.due, Settlement.failure?, hr,
          Nat.add_mul]
        omega

theorem weight_entries {w : Entry → Nat} {hs : History}
    (hw : ∀ e, Happening.emitted .function e ∈ hs → w e.entry = 0) :
    Entry.weight w (hs.flatMap Happening.entries) = Entry.weight w (hs.flatMap Happening.made) := by
  induction hs with
  | nil => rfl
  | cons a hs ih =>
    have hrest := ih fun e he => hw e (List.mem_cons_of_mem _ he)
    rw [List.flatMap_cons, List.flatMap_cons, Entry.weight_append, Entry.weight_append, hrest]
    cases a with
    | emitted origin e =>
      cases origin with
      | engine => rfl
      | function =>
        have he := hw e List.mem_cons_self
        simp [Happening.entries, Happening.event?, Happening.made, he]
    | _ => rfl

end History

namespace Reached

variable {m : Metrics} {ms ms' : List Member} {x : Member}

/-- What holds of every run that is begun, and is kept by every move and by giving up, holds of all. -/
theorem forall_mem {P : Member → Prop}
    (hbegun : ∀ settings name tasks c, P { settings, run := Run.ofScenario settings name tasks c })
    (hserved : ∀ {x : Member} {hs : History} {r : Run}, x.dropped = false →
      Run.Moves x.settings x.run hs r → P x → P { x with run := r, shown := x.shown ++ hs })
    (hdropped : ∀ {x : Member}, x.run.AtRest x.settings → P x → P { x with dropped := true })
    (h : Reached m ms) : ∀ x ∈ ms, P x := by
  induction h with
  | nil => simp
  | begun h settings name tasks c ih =>
    exact List.forall_mem_append.mpr
      ⟨ih, List.forall_mem_singleton.mpr (hbegun settings name tasks c)⟩
  | served h hlive hm ih =>
    obtain ⟨hms, hx⟩ := List.forall_mem_append.mp ih
    obtain ⟨hx, hms'⟩ := List.forall_mem_cons.mp hx
    exact List.forall_mem_append.mpr ⟨hms, List.forall_mem_cons.mpr ⟨hserved hlive hm hx, hms'⟩⟩
  | dropped h hrest ih =>
    obtain ⟨hms, hx⟩ := List.forall_mem_append.mp ih
    obtain ⟨hx, hms'⟩ := List.forall_mem_cons.mp hx
    exact List.forall_mem_append.mpr ⟨hms, List.forall_mem_cons.mpr ⟨hdropped hrest hx, hms'⟩⟩

theorem books (h : Reached m ms) : ∀ x ∈ ms, Run.Books x.run x.shown :=
  h.forall_mem Run.books_ofScenario (fun _ hm hx => hx.moves hm) fun _ hx => hx

theorem atRest_of_dropped (h : Reached m ms) :
    ∀ x ∈ ms, x.dropped = true → x.run.AtRest x.settings := by
  refine h.forall_mem (fun _ _ _ _ hd => Bool.noConfusion hd) (fun {x} _ _ hlive _ _ hd => ?_)
    fun hrest _ _ => hrest
  have hd' : x.dropped = true := hd
  rw [hlive] at hd'
  cases hd'

theorem follow {hs : History} {r : Run} (h : Reached m (ms ++ x :: ms')) (hlive : x.dropped = false)
    (hp : Run.Path x.settings x.run hs r) :
    Reached (m.recordAll (hs.filterMap Happening.event?))
      (ms ++ { x with run := r, shown := x.shown ++ hs } :: ms') := by
  obtain ⟨settings, q, shown, dropped⟩ := x
  change Run.Path settings q hs r at hp
  induction hp generalizing m shown with
  | refl q => simpa [Metrics.recordAll] using h
  | step hm _ ih =>
    have hrest := ih _ (h.served hlive hm) hlive
    simpa [Metrics.recordAll, List.foldl_append] using hrest

theorem tallies (h : Reached m ms) :
    m.Tallies ((Member.history ms).flatMap Happening.entries) := by
  induction h with
  | nil => exact .empty
  | begun h settings name tasks c ih => simpa [Member.history] using ih
  | @served m ms ms' x hs r h hlive hm ih =>
    refine (ih.recordAll (hs.filterMap Happening.event?)).congr fun w => ?_
    simp only [History.entries_eq, Member.history, List.flatMap_append, List.flatMap_cons,
      Entry.weight_append]
    omega
  | dropped h hrest ih => simpa [Member.history] using ih

end Reached

/-- An event of a name that the engine has no use for. -/
def Foreign : Event → Prop
  | .started => False
  | .counter name _ | .histogram name _ =>
    name ≠ messagesPublished ∧ name ≠ publishErrors ∧ name ≠ publishLatency

theorem Foreign.starts {e : Event} (he : Foreign e) : e.entry.starts = 0 := by
  cases e with
  | started => exact he.elim
  | _ => rfl

theorem Foreign.added {e : Event} (he : Foreign e) {name : String}
    (hname : name = messagesPublished ∨ name = publishErrors) : e.entry.added name = 0 := by
  cases e with
  | counter k n =>
    obtain ⟨hk, hk', -⟩ := he
    rcases hname with rfl | rfl
    · exact if_neg hk
    · exact if_neg hk'
  | _ => rfl

theorem Foreign.sampled {e : Event} (he : Foreign e) : e.entry.sampled publishLatency = 0 := by
  cases e with
  | histogram k s => exact if_neg he.2.2
  | _ => rfl

/-- At rest, the entries of runs weigh as much as what has fallen due in them and their starts. -/
theorem weight_history {ms : List Member} {w : Entry → Nat}
    (hbooks : ∀ x ∈ ms, Run.Books x.run x.shown) (hrest : ∀ x ∈ ms, x.run.AtRest x.settings)
    (hw : ∀ e, Happening.emitted .function e ∈ Member.history ms → w e.entry = 0) :
    Entry.weight w ((Member.history ms).flatMap Happening.entries) =
      ms.length * w .started + Entry.weight w ((Member.history ms).flatMap Happening.due) := by
  rw [History.weight_entries hw]
  clear hw
  induction ms with
  | nil => simp [Member.history]
  | cons x ms ih =>
    obtain ⟨hx, hms⟩ := List.forall_mem_cons.mp hbooks
    obtain ⟨hxrest, hmsrest⟩ := List.forall_mem_cons.mp hrest
    have hone := hx.balanced w
    rw [hx.pending_atRest hxrest, Entry.weight_nil] at hone
    have hothers := ih hms hmsrest
    simp only [Member.history, List.flatMap_cons, List.flatMap_append, Entry.weight_append,
      List.length_cons, Nat.add_mul] at hothers ⊢
    omega

theorem calls_history {ms : List Member} (hbooks : ∀ x ∈ ms, Run.Books x.run x.shown) :
    ((Member.history ms).filterMap Happening.call?).length =
      ((Member.history ms).filterMap Happening.settlement?).length + Member.inFlight ms := by
  induction ms with
  | nil => rfl
  | cons x ms ih =>
    obtain ⟨hx, hms⟩ := List.forall_mem_cons.mp hbooks
    have hone := hx.flies
    have hothers := ih hms
    simp only [Member.history, Member.inFlight, List.flatMap_cons, List.filterMap_append,
      List.length_append] at hothers ⊢
    omega

/-- Whenever no run is in the middle of reporting, the collector is in accord with all that has
happened: it has counted every start, every published message with its latency, and every failed call;
all other calls are in flight or were when their run was given up. -/
theorem collector_in_accord {m : Metrics} {ms : List Member} (h : Reached m ms)
    (hrest : ∀ x ∈ ms, x.dropped = false → x.run.AtRest x.settings)
    (hforeign : ∀ e, Happening.emitted .function e ∈ Member.history ms → Foreign e)
    (hpublished : History.published (Member.history ms) < Metrics.counterLimit)
    (hrejected : History.rejected (Member.history ms) < Metrics.counterLimit) :
    m.started = ms.length % Metrics.counterLimit ∧
    m.counter messagesPublished = History.published (Member.history ms) ∧
    m.counter publishErrors = History.rejected (Member.history ms) ∧
    (m.samples publishLatency).length = m.counter messagesPublished ∧
    m.counter messagesPublished + m.counter publishErrors + Member.inFlight ms =
      ((Member.history ms).filterMap Happening.call?).length := by
  have hbooks := h.books
  have hall : ∀ x ∈ ms, x.run.AtRest x.settings := by
    intro x hx
    cases hd : x.dropped with
    | true => exact h.atRest_of_dropped x hx hd
    | false => exact hrest x hx hd
  -- No run has anything left to report, so what is recorded weighs what is due; and functions add none of it.
  have hweight {w : Entry → Nat} (hw : ∀ e, Foreign e → w e.entry = 0) :
      Entry.weight w ((Member.history ms).flatMap Happening.entries) = ms.length * w .started +
        (History.published (Member.history ms) *
          (w (.counter messagesPublished 1) + w (.sample publishLatency)) +
        History.rejected (Member.history ms) * w (.counter publishErrors 1)) := by
    rw [weight_history hbooks hall fun e he => hw e (hforeign e he), History.weight_due]
  have htallies := h.tallies
  have hnames : messagesPublished ≠ publishErrors := by decide
  have hstarted : m.started = ms.length % Metrics.counterLimit := by
    rw [htallies.started, hweight fun e he => he.starts]
    simp [Entry.starts]
  have hcounted : m.counter messagesPublished = History.published (Member.history ms) := by
    rw [htallies.counter, hweight fun e he => he.added (Or.inl rfl)]
    simp [Entry.added, hnames.symm, Nat.mod_eq_of_lt hpublished]
  have hcounted' : m.counter publishErrors = History.rejected (Member.history ms) := by
    rw [htallies.counter, hweight fun e he => he.added (Or.inr rfl)]
    simp [Entry.added, hnames, Nat.mod_eq_of_lt hrejected]
  have hsampled : (m.samples publishLatency).length = History.published (Member.history ms) := by
    rw [htallies.samples, hweight fun e he => he.sampled]
    simp [Entry.sampled]
  refine ⟨hstarted, hcounted, hcounted', hsampled.trans hcounted.symm, ?_⟩
  rw [hcounted, hcounted', History.published_add_rejected, calls_history hbooks]

/-- A run is given up while one of its two calls is in flight. -/
theorem collector_in_accord_with_lost_call :
    ∃ m ms, Reached m ms ∧ (∀ x ∈ ms, x.dropped = false → x.run.AtRest x.settings) ∧
      m.started = 1 ∧ m.counter messagesPublished = 1 ∧ m.counter publishErrors = 0 ∧
      (m.samples publishLatency).length = 1 ∧ Member.inFlight ms = 1 ∧
      ((Member.history ms).filterMap Happening.call?).length = 2 := by
  have hpath : Run.Path ⟨none, "project", "topic", false⟩
      (Run.ofScenario ⟨none, "project", "topic", false⟩ "name" [.publish ⟨some .null, some 2, none⟩]
        ⟨.ofRandom 0, .ofList [], 0, none, .notStarted⟩) _
      ⟨[.send ⟨"address", {}⟩ [] 2 [0] none, .conclude "name"], _, none⟩ :=
    .served (.emit .started) <| .served .enter <| .served (.note _) <|
    .served (.acquired _ ⟨"address", {}⟩) <| .served (.publish rfl (by decide)) <|
    .served (.rendered _ _ 1 _ .null) <| .served (.note _) <|
    .served (.rendered _ _ 0 _ .null) <| .served (.note _) <|
    .served (.dispatch _ _ _ rfl rfl) <| .served (.sent _ _ _ _ _ _) <|
    .served (.sentAtOnce _ _ _ _ _ _ ⟨.ok "id", 5⟩) <|
    .served (.note _) <| .served (.emit _) <| .served (.emit _) <| .refl _
  have hbegun : Reached {} ([] ++ (⟨⟨none, "project", "topic", false⟩, _, [], false⟩ : Member) :: []) :=
    Reached.nil.begun ⟨none, "project", "topic", false⟩ "name" [.publish ⟨some .null, some 2, none⟩]
      ⟨.ofRandom 0, .ofList [], 0, none, .notStarted⟩
  have hreached := (hbegun.follow rfl hpath).dropped trivial
  obtain ⟨hstarted, hcounted, hfailed, hsampled, -⟩ := collector_in_accord hreached (by simp)
    (by simp [Member.history]) (by decide) (by decide)
  exact ⟨_, _, hreached, by simp, hstarted.trans (by decide), hcounted, hfailed, hsampled.trans hcounted, rfl, rfl⟩

end Engine
end TopicLoad
