import TopicLoad.Proofs.Alone
import TopicLoad.Proofs.Fanout
import TopicLoad.Proofs.Reporting

/-! Calls that are in flight at once. They settle in the order of their delays and, where these are equal,
in the order in which they were made; so that all of them together take as long as the longest. -/
namespace TopicLoad
namespace Engine

/-- The flight that ends first stands before none that ends earlier and behind none that does not end
later. -/
theorem Lane.earliest_spec {fs : List Flight} (h : fs ≠ []) : ∃ front f back,
    fs = front ++ f :: back ∧ earliest fs = some f ∧
      (∀ g ∈ front, f.due < g.due) ∧ ∀ g ∈ back, f.due ≤ g.due := by
  induction fs with
  | nil => exact absurd rfl h
  | cons f fs ih =>
    by_cases hfs : fs = []
    · subst hfs
      exact ⟨[], f, [], rfl, rfl, by simp, by simp⟩
    · obtain ⟨front, g, back, rfl, hg, hfront, hback⟩ := ih hfs
      by_cases hlt : g.due < f.due
      · exact ⟨f :: front, g, back, rfl, by simp [earliest, hg, hlt],
          List.forall_mem_cons.mpr ⟨hlt, hfront⟩, hback⟩
      · have hle : f.due ≤ g.due := Nat.le_of_not_lt hlt
        refine ⟨[], f, front ++ g :: back, rfl, by simp [earliest, hg, hlt], by simp, ?_⟩
        refine List.forall_mem_append.mpr ⟨fun x hx => ?_, List.forall_mem_cons.mpr ⟨hle, fun x hx => ?_⟩⟩
        · exact Nat.le_trans hle (Nat.le_of_lt (hfront x hx))
        · exact Nat.le_trans hle (hback x hx)

/-- A publish call of a step, by its number there: how many milliseconds it takes, and how it ends. -/
structure Call where
  number : Nat
  delay : Nat
  reply : Except Fault String

namespace Call

def flight (start : Nat) (a : Call) : Flight := ⟨a.number, start + a.delay, a.reply⟩

def settlement (start : Nat) (a : Call) : Settlement := ⟨a.reply, Lane.instant (start + a.delay)⟩

/-- The call with the smaller delay comes first, and of calls with equal delays the one with the smaller
number. -/
def Before (a b : Call) : Prop := a.delay < b.delay ∨ a.delay = b.delay ∧ a.number < b.number

def longest (calls : List Call) : Nat := (calls.map delay).foldr max 0

@[simp] theorem longest_nil : longest [] = 0 := rfl

@[simp] theorem longest_cons (a : Call) (calls : List Call) :
    longest (a :: calls) = max a.delay (longest calls) := rfl

theorem longest_perm {calls calls' : List Call} (h : calls.Perm calls') : longest calls = longest calls' :=
  (h.map delay).foldr_eq 0

end Call

/-- Calls from a certain one on, with the numbers they have in their step. -/
def World.calls (w : World) (first number n : Nat) : List Call :=
  (List.range n).map fun i => ⟨number + i, (w.call (first + i)).1, (w.call (first + i)).2⟩

theorem World.calls_succ (w : World) (first number n : Nat) : w.calls first number (n + 1) =
    ⟨number, (w.call first).1, (w.call first).2⟩ :: w.calls (first + 1) (number + 1) n := by
  simp [calls, List.range_succ_eq_map, Nat.add_assoc, Nat.add_comm 1]

@[simp] theorem World.length_calls (w : World) (first number n : Nat) :
    (w.calls first number n).length = n := by
  simp [calls]

theorem World.le_number {w : World} {first number n : Nat} {a : Call} (h : a ∈ w.calls first number n) :
    number ≤ a.number := by
  obtain ⟨i, -, rfl⟩ := List.mem_map.mp h
  exact Nat.le_add_right number i

def Moment.emit (k : Moment) (es : List Event) : Moment :=
  { k with tally := { k.tally with events := k.tally.events ++ es } }

namespace Run

variable {w : World} {settings : Settings} {c d : Context} {hs : History} {k m : Moment}
  {e kept : Option Fault} {topic : Handle} {queue : List Outgoing} {number start : Nat}
  {inFlight : List Nat} {calls order : List Call}

/-- Calls that have all settled, in the order in which they did. -/
structure Landed (w : World) (start : Nat) (k : Moment) (hs : History) (m : Moment) (calls order : List Call) :
    Prop where
  lived : w.Lived k hs m
  flights : m.flights = []
  perm : order.Perm calls
  ordered : order.Pairwise Call.Before
  settlements : hs.filterMap Happening.settlement? = order.map fun a => (a.number, a.settlement start)
  now : m.now = max k.now (start + Call.longest calls)

theorem lived_settling (k : Moment) (s : Settlement) :
    w.Lived k (settling c s) (k.emit (accounting c s)) := by
  rw [settling, settledFrames, accounting]
  cases s.reply with
  | ok id => simp [Frame.report?, World.lived_cons_iff, World.Lives, Moment.emit]
  | error f => simp [Frame.report?, World.lived_cons_iff, World.Lives, Moment.emit]

theorem Landed.settled {x : Happening} {k₁ : Moment} {a : Call} {left : List Call}
    (h : Landed w start (k₁.emit (accounting c (a.settlement start))) hs m left order)
    (hlives : w.Lives k x k₁) (hx : x.settlement? = some (a.number, a.settlement start))
    (hnow : k₁.now = max k.now (start + a.delay)) (hperm : calls.Perm (a :: left))
    (hbefore : ∀ b ∈ left, a.Before b) :
    Landed w start k (x :: (settling c (a.settlement start) ++ hs)) m calls (a :: order) where
  lived := ⟨k₁, hlives, (lived_settling k₁ _).append h.lived⟩
  flights := h.flights
  perm := (h.perm.cons a).trans hperm.symm
  ordered := List.pairwise_cons.mpr ⟨fun b hb => hbefore b (h.perm.subset hb), h.ordered⟩
  settlements := by
    rw [filterMap_settling _ (fun _ => rfl) (fun _ _ => rfl), hx, h.settlements]
    rfl
  now := by
    have hemit : (k₁.emit (accounting c (a.settlement start))).now = k₁.now := rfl
    rw [h.now, hemit, hnow, Call.longest_perm hperm, Call.longest_cons]
    omega

/-- What is left of calls in flight when the one has settled that is due first. -/
theorem exists_earliest (start : Nat) (hne : calls ≠ [])
    (hascend : calls.Pairwise fun a b => a.number < b.number) :
    ∃ a left, calls.Perm (a :: left) ∧
      Lane.earliest (calls.map (Call.flight start)) = some (a.flight start) ∧
      (calls.map (Call.flight start)).filter (fun g => g.number ≠ a.number) =
        left.map (Call.flight start) ∧
      (calls.map Call.number).erase a.number = left.map Call.number ∧
      left.Pairwise (fun a b => a.number < b.number) ∧ ∀ b ∈ left, a.Before b := by
  obtain ⟨front', f, back', hcalls, hf, hfront, hback⟩ :=
    @Lane.earliest_spec (calls.map (Call.flight start)) (by simpa using hne)
  obtain ⟨front, rest, rfl, rfl, hrest⟩ := List.map_eq_append_iff.mp hcalls
  obtain ⟨a, back, rfl, rfl, rfl⟩ := List.map_eq_cons_iff.mp hrest
  obtain ⟨hascendFront, hascendBack, hacross⟩ := List.pairwise_append.mp hascend
  obtain ⟨hbackNumber, hascendBack⟩ := List.pairwise_cons.mp hascendBack
  have hfrontNumber : ∀ b ∈ front, b.number < a.number := fun b hb => hacross b hb a List.mem_cons_self
  refine ⟨a, front ++ back, List.perm_middle, hf, ?_, ?_, ?_, ?_⟩
  · have hkept : ∀ b ∈ front ++ back, b.number ≠ a.number := by
      refine List.forall_mem_append.mpr ⟨fun b hb => ?_, fun b hb => ?_⟩
      · exact Nat.ne_of_lt (hfrontNumber b hb)
      · exact Nat.ne_of_gt (hbackNumber b hb)
    have hfilter : (front ++ a :: back).filter (fun b => b.number ≠ a.number) = front ++ back := by
      obtain ⟨hf, hb⟩ := List.forall_mem_append.mp hkept
      rw [List.filter_append, List.filter_cons_of_neg (by simp), List.filter_eq_self.mpr (by simpa using hf),
        List.filter_eq_self.mpr (by simpa using hb)]
    rw [List.filter_map, ← hfilter]
    rfl
  · have hnot : a.number ∉ front.map Call.number := by
      simp only [List.mem_map, not_exists, not_and]
      exact fun b hb => Nat.ne_of_lt (hfrontNumber b hb)
    rw [List.map_append, List.map_cons, List.erase_append_right _ hnot, List.erase_cons_head,
      ← List.map_append]
  · refine List.pairwise_append.mpr ⟨hascendFront, hascendBack, fun b hb b' hb' => ?_⟩
    exact hacross b hb b' (List.mem_cons_of_mem a hb')
  · refine List.forall_mem_append.mpr ⟨fun b hb => ?_, fun b hb => ?_⟩
    · have hlt := hfront _ (List.mem_map_of_mem hb)
      simp only [Call.flight] at hlt
      exact Or.inl (by omega)
    · have hle := hback _ (List.mem_map_of_mem hb)
      have hnumber := hbackNumber b hb
      simp only [Call.flight] at hle
      unfold Call.Before
      omega

theorem exists_landed_await (hflights : k.flights = calls.map (Call.flight start))
    (hinFlight : inFlight = calls.map Call.number) (hascend : calls.Pairwise fun a b => a.number < b.number)
    (hstart : start ≤ k.now) (hdue : ∀ a ∈ calls, k.now ≤ start + a.delay) :
    ∃ hs e m order, Ends settings ⟨[.send topic [] number inFlight kept], c, none⟩ hs c e ∧
      Landed w start k hs m calls order := by
  -- By induction on how many calls are in flight: the one due first settles, and the others are left.
  induction hn : calls.length generalizing calls inFlight kept k with
  | zero =>
    obtain rfl := List.length_eq_zero_iff.mp hn
    have hlanded : Landed w start k [] k [] [] :=
      ⟨rfl, hflights, .rfl, .nil, rfl, by simp [hstart]⟩
    subst hinFlight
    cases kept with
    | none => exact ⟨_, _, k, [], .served (.delivered topic number) ends_done, hlanded⟩
    | some f => exact ⟨_, _, k, [], .served (.undelivered topic number f) ends_done, hlanded⟩
  | succ n ih =>
    have hne : calls ≠ [] := fun hnil => by simp [hnil] at hn
    obtain ⟨a, left, hperm, hearliest, hfilter, herase, hascend', hbefore⟩ :=
      exists_earliest start hne hascend
    have hmem : a ∈ calls := hperm.symm.subset List.mem_cons_self
    have hadue := hdue a hmem
    let s : Settlement := a.settlement start
    let k₁ : Moment := { k with now := start + a.delay, flights := left.map (Call.flight start) }
    have hsettled : w.Lives k (.settled a.number s) k₁ := by
      have hnow : max k.now (a.flight start).due = start + a.delay := Nat.max_eq_right hadue
      have hleft : k.flights.filter (fun g => g.number ≠ (a.flight start).number) =
          left.map (Call.flight start) := hflights ▸ hfilter
      refine ⟨a.flight start, hflights ▸ hearliest, rfl, ?_, ?_⟩
      · rw [hnow]
        rfl
      · rw [hnow, hleft]
    have hlength : left.length = n := by
      have hcons := hperm.length_eq
      simp only [List.length_cons] at hcons
      omega
    have hrest : ∃ hs e m order, Ends settings
        ⟨[.send topic [] number (inFlight.erase a.number) (firstFailure kept s)], c, none⟩ hs c e ∧
        Landed w start (k₁.emit (accounting c s)) hs m left order := by
      refine ih rfl (hinFlight ▸ herase) hascend' (Nat.le_add_right _ _) (fun b hb => ?_) hlength
      have hle : a.delay ≤ b.delay := by
        rcases hbefore b hb with hlt | ⟨heq, -⟩ <;> omega
      exact Nat.add_le_add_left hle start
    obtain ⟨hs, e, m, order, hends, hlanded⟩ := hrest
    have hinMem : a.number ∈ inFlight := hinFlight ▸ List.mem_map_of_mem hmem
    have hnow : k₁.now = max k.now (start + a.delay) := (Nat.max_eq_right hadue).symm
    exact ⟨_, e, m, a :: order, .served (.settled topic number kept hinMem s) (ends_settling s hends),
      hlanded.settled hsettled rfl hnow hperm hbefore⟩

/-- Handing a queue over takes no time; calls without a delay settle meanwhile, and the others afterwards.
By induction on the queue. -/
theorem exists_landed_send (hflights : k.flights = calls.map (Call.flight k.now))
    (hinFlight : inFlight = calls.map Call.number) (hascend : calls.Pairwise fun a b => a.number < b.number)
    (hbelow : ∀ a ∈ calls, a.number < number) (hpos : ∀ a ∈ calls, 0 < a.delay) :
    ∃ hs e m order, Ends settings ⟨[.send topic queue number inFlight kept], c, none⟩ hs c e ∧
      Landed w k.now k hs m (calls ++ w.calls k.tally.calls number queue.length) order := by
  induction queue generalizing number inFlight kept k calls with
  | nil =>
    have hnone : calls ++ w.calls k.tally.calls number 0 = calls := List.append_nil calls
    rw [List.length_nil, hnone]
    exact exists_landed_await hflights hinFlight hascend (Nat.le_refl _) fun a _ => Nat.le_add_right _ _
  | cons message queue ih =>
    let a : Call := ⟨number, (w.call k.tally.calls).1, (w.call k.tally.calls).2⟩
    rw [List.length_cons, World.calls_succ]
    by_cases hzero : (w.call k.tally.calls).1 = 0
    · let s : Settlement := a.settlement k.now
      let k₁ : Moment := { k with tally := { k.tally with calls := k.tally.calls + 1 } }
      have hpublished : w.Lives k (.published topic number message (some s)) k₁ := by
        refine ⟨hzero, ?_, rfl⟩
        simp only [s, a, Call.settlement, hzero, Nat.add_zero]
      have hrest : ∃ hs e m order, Ends settings
          ⟨[.send topic queue (number + 1) inFlight (firstFailure kept s)], c, none⟩ hs c e ∧
          Landed w k.now (k₁.emit (accounting c s)) hs m
            (calls ++ w.calls (k.tally.calls + 1) (number + 1) queue.length) order :=
        @ih (k₁.emit (accounting c s)) _ _ _ _ hflights hinFlight hascend
          (fun b hb => Nat.lt_succ_of_lt (hbelow b hb)) hpos
      obtain ⟨hs, e, m, order, hends, hlanded⟩ := hrest
      -- A call without a delay settles before those in flight, which have one, and before those to come.
      have hfirst : ∀ b ∈ calls ++ w.calls (k.tally.calls + 1) (number + 1) queue.length, a.Before b := by
        refine List.forall_mem_append.mpr ⟨fun b hb => ?_, fun b hb => ?_⟩
        · have hlt := hpos b hb
          exact Or.inl (by simp only [a]; omega)
        · have hnumber := World.le_number hb
          simp only [Call.Before, a]
          omega
      have hnow : k₁.now = max k.now (k.now + a.delay) := by simp [k₁, a, hzero]
      exact ⟨_, e, m, a :: order, .served (.sentAtOnce topic message queue number inFlight kept s)
        (ends_settling s hends), hlanded.settled hpublished rfl hnow List.perm_middle hfirst⟩
    · let k₁ : Moment := { k with
        flights := k.flights ++ [a.flight k.now]
        tally := { k.tally with calls := k.tally.calls + 1 } }
      have hpublished : w.Lives k (.published topic number message none) k₁ :=
        ⟨Nat.pos_of_ne_zero hzero, rfl⟩
      have hrest : ∃ hs e m order, Ends settings
          ⟨[.send topic queue (number + 1) (inFlight ++ [number]) kept], c, none⟩ hs c e ∧
          Landed w k.now k₁ hs m
            (calls ++ [a] ++ w.calls (k.tally.calls + 1) (number + 1) queue.length) order := by
        refine @ih k₁ _ _ _ _ ?_ ?_ ?_ ?_ ?_
        · simp [k₁, hflights]
        · simp [hinFlight, a]
        · refine List.pairwise_append.mpr ⟨hascend, List.pairwise_singleton _ _, ?_⟩
          exact fun b hb b' hb' => List.mem_singleton.mp hb' ▸ hbelow b hb
        · refine List.forall_mem_append.mpr ⟨fun b hb => Nat.lt_succ_of_lt (hbelow b hb), ?_⟩
          exact List.forall_mem_singleton.mpr (Nat.lt_succ_self number)
        · exact List.forall_mem_append.mpr
            ⟨hpos, List.forall_mem_singleton.mpr (Nat.pos_of_ne_zero hzero)⟩
      obtain ⟨hs, e, m, order, hends, hlanded⟩ := hrest
      rw [List.append_assoc] at hlanded
      exact ⟨_, e, m, order, .served (.sent topic message queue number inFlight kept) hends,
        ⟨k₁, hpublished, hlanded.lived⟩, hlanded.flights, hlanded.perm, hlanded.ordered,
        hlanded.settlements, hlanded.now⟩

/-- What takes no time, makes no call and emits no event. -/
structure Passing (w : World) (k : Moment) (hs : History) (m : Moment) : Prop where
  lived : w.Lived k hs m
  now : m.now = k.now
  flights : m.flights = k.flights
  calls : hs.filterMap Happening.call? = []
  settlements : hs.filterMap Happening.settlement? = []
  events : hs.filterMap Happening.event? = []

theorem Passing.append {hs' : History} {m' : Moment} (h : Passing w k hs m) (h' : Passing w m hs' m') :
    Passing w k (hs ++ hs') m' where
  lived := h.lived.append h'.lived
  now := h'.now.trans h.now
  flights := h'.flights.trans h.flights
  calls := by rw [List.filterMap_append, h.calls, h'.calls, List.append_nil]
  settlements := by rw [List.filterMap_append, h.settlements, h'.settlements, List.append_nil]
  events := by rw [List.filterMap_append, h.events, h'.events, List.append_nil]

theorem Passing.nil (w : World) (k : Moment) : Passing w k [] k := ⟨rfl, rfl, rfl, rfl, rfl, rfl⟩

theorem Passing.noted (w : World) (k : Moment) (line : Log.Line) : Passing w k [.noted line] k :=
  ⟨by simp [World.Lives], rfl, rfl, rfl, rfl, rfl⟩

theorem exists_rendering (template : Json) (attributes : Keyed String) (left : Nat)
    (ready : List (List UInt8)) : ∃ hs m, Passing w k hs m ∧
      ((∃ g, Ends settings ⟨[.render template attributes left ready], c, none⟩ hs c (some g) ∧
          .error g ∈ hs.filterMap Happening.render?) ∨
        ∃ ready', ready'.length = ready.length + left ∧
          (∀ r ∈ hs.filterMap Happening.render?, ∃ v, r = .ok v) ∧
          ∀ hs' e, Ends settings ⟨[.render template attributes 0 ready'], c, none⟩ hs' c e →
            Ends settings ⟨[.render template attributes left ready], c, none⟩ (hs ++ hs') c e) := by
  induction left generalizing k ready with
  | zero => exact ⟨[], k, .nil w k, Or.inr ⟨ready, rfl, by simp, fun _ _ h => h⟩⟩
  | succ left ih =>
    let k₁ : Moment := { k with tally := { k.tally with templates := k.tally.templates + 1 } }
    have hrendered (reply : Except Fault Json)
        (hreply : w.template k.tally.templates template c.vars.bindings = reply) :
        Passing w k [.rendered template c.vars.bindings reply] k₁ :=
      ⟨World.lived_singleton_iff.mpr ⟨hreply.symm, rfl⟩, rfl, rfl, rfl, rfl, rfl⟩
    cases hreply : w.template k.tally.templates template c.vars.bindings with
    | error g =>
      exact ⟨_, _, (hrendered _ hreply).append (.noted w k₁ _), Or.inl ⟨g,
        .served (.unrendered template attributes left ready g)
          (.served (.note _) (.served (.fail g) ends_done)),
        List.mem_cons_self⟩⟩
    | ok v =>
      obtain ⟨hs, m, hpassing, hrest⟩ := @ih k₁ (ready ++ [payload v])
      let line := Log.debug s!"Publishing message to topic ({settings.topic}): {v.text}"
      have hserved {hs : History} {e : Option Fault}
          (h : Ends settings ⟨[.render template attributes left (ready ++ [payload v])], c, none⟩ hs c e) :
          Ends settings ⟨[.render template attributes (left + 1) ready], c, none⟩
            ([.rendered template c.vars.bindings (.ok v)] ++ [.noted line] ++ hs) c e := by
        rw [List.append_assoc]
        exact .served (.rendered template attributes left ready v) (.served (.note line) h)
      refine ⟨_, m, ((hrendered _ hreply).append (.noted w k₁ line)).append hpassing, ?_⟩
      rcases hrest with ⟨g, hends, hmem⟩ | ⟨ready', hlength, hok, hends⟩
      · exact Or.inl ⟨g, hserved hends, List.mem_cons_of_mem _ hmem⟩
      · refine Or.inr ⟨ready', ?_, List.forall_mem_cons.mpr ⟨⟨v, rfl⟩, hok⟩, fun hs' e h => ?_⟩
        · simp only [List.length_append, List.length_singleton] at hlength
          omega
        · rw [List.append_assoc]
          exact hserved (hends hs' e h)

/-- A message step sends: it has a template and a topic, it is no dry run, and its renderings succeed. -/
structure Sends (settings : Settings) (spec : MessageSpec) (c : Context) (hs : History) : Prop where
  templated : spec.json.isSome = true
  live : settings.dryRun = false
  topic : c.publisher.isSome = true
  rendered : ∀ r ∈ hs.filterMap Happening.render?, ∃ v, r = .ok v

/-- A message step in time. It makes a call for each of its copies, or none; all are made when it begins,
they settle in order, and it ends when the last one has. What is reported of each call is reported when it
settles, and the step fails with the failure that comes first. -/
structure Overlaps (w : World) (settings : Settings) (spec : MessageSpec) (c : Context) (k : Moment)
    (hs : History) (m : Moment) (e : Option Fault) (calls order : List Call) : Prop where
  made : calls = w.calls k.tally.calls 0 (hs.filterMap Happening.call?).length
  copies : Sends settings spec c hs → calls.length = spec.copies.toNat
  none : ¬ Sends settings spec c hs → calls = []
  perm : order.Perm calls
  ordered : order.Pairwise Call.Before
  settlements : hs.filterMap Happening.settlement? = order.map fun a => (a.number, a.settlement k.now)
  events : hs.filterMap Happening.event? = order.flatMap fun a => accounting c (a.settlement k.now)
  failure : calls ≠ [] → e = order.findSome? fun a => (a.settlement k.now).failure?
  now : m.now = k.now + Call.longest calls

theorem Passing.overlaps {spec : MessageSpec} (h : Passing w k hs m)
    (hsends : Sends settings spec c hs → spec.copies.toNat = 0) (e : Option Fault) :
    Overlaps w settings spec c k hs m e [] [] where
  made := by rw [h.calls]; rfl
  copies hs := (hsends hs).symm
  none _ := rfl
  perm := .rfl
  ordered := .nil
  settlements := h.settlements
  events := h.events
  failure hne := absurd rfl hne
  now := h.now

theorem Landed.overlaps {spec : MessageSpec} {hs' : History} {m' : Moment} (hpassing : Passing w k hs m)
    (hlanded : Landed w m.now m hs' m' (w.calls m.tally.calls 0 queue.length) order)
    (hsent : Sent topic c queue 0 [] none hs' d e) (hsends : Sends settings spec c (hs ++ hs'))
    (hqueue : queue.length = spec.copies.toNat) :
    Overlaps w settings spec c k (hs ++ hs') m' e (w.calls k.tally.calls 0 queue.length) order := by
  have htally : m.tally.calls = k.tally.calls := by
    rw [hpassing.lived.tally.2, hpassing.calls]
    rfl
  have hcalls : ((hs ++ hs').filterMap Happening.call?).length = queue.length := by
    rw [List.filterMap_append, hpassing.calls, hsent.calls]
    simp
  have hsettlements : hs'.filterMap Happening.settlement? =
      order.map fun a => (a.number, a.settlement k.now) := hpassing.now ▸ hlanded.settlements
  exact {
    made := by rw [hcalls]
    copies := fun _ => by rw [World.length_calls, hqueue]
    none := fun hnot => absurd hsends hnot
    perm := htally ▸ hlanded.perm
    ordered := hlanded.ordered
    settlements := by rw [List.filterMap_append, hpassing.settlements, hsettlements, List.nil_append]
    events := by
      rw [List.filterMap_append, hpassing.events, hsent.events, hsettlements, List.flatMap_map]
      rfl
    failure := fun _ => by
      rw [hsent.failure, hsettlements, List.findSome?_map]
      rfl
    now := by
      rw [hlanded.now, hpassing.now, htally]
      exact Nat.max_eq_right (Nat.le_add_right _ _) }

theorem exists_dispatched {spec : MessageSpec} {hs : History} (template : Json)
    (hj : spec.json = some template) (hflights : k.flights = []) (hpassing : Passing w k hs m)
    (hok : ∀ r ∈ hs.filterMap Happening.render?, ∃ v, r = .ok v) (attributes : Keyed String)
    {ready : List (List UInt8)} (hready : ready.length = spec.copies.toNat) :
    ∃ hs' e m' calls order, Ends settings ⟨[.render template attributes 0 ready], c, none⟩ hs' c e ∧
      w.Lived k (hs ++ hs') m' ∧ m'.flights = [] ∧
      Overlaps w settings spec c k (hs ++ hs') m' e calls order := by
  cases hd : settings.dryRun with
  | true =>
    have hall := hpassing.append (.noted w m
      (Log.debug s!"Dry run: prepared {ready.length} message(s), nothing sent"))
    refine ⟨_, _, m, [], [], .served (.dry template attributes ready hd) ends_done, hall.lived,
      hall.flights.trans hflights, hall.overlaps (fun h => ?_) _⟩
    have hlive := h.live
    simp [hd] at hlive
  | false =>
    cases hp : c.publisher with
    | none =>
      have hall := hpassing.append (.nil w m)
      refine ⟨_, _, m, [], [], .served (.topicless template attributes ready hd hp) ends_done, hall.lived,
        hall.flights.trans hflights, hall.overlaps (fun h => ?_) _⟩
      have htopic := h.topic
      simp [hp] at htopic
    | some topic =>
      let queue : List Outgoing := ready.map fun data => ⟨data, attributes⟩
      obtain ⟨hs', e, m', order, hends, hlanded⟩ := @exists_landed_send w settings c m none topic queue 0
        [] [] (hpassing.flights.trans hflights) rfl .nil (by simp) (by simp)
      have hsent := ends_send hends
      have hrenders : ∀ r ∈ (hs ++ hs').filterMap Happening.render?, ∃ v, r = .ok v := by
        rw [List.filterMap_append, hsent.renders, List.append_nil]
        exact hok
      have hsends : Sends settings spec c (hs ++ hs') :=
        ⟨by rw [hj]; rfl, hd, by rw [hp]; rfl, hrenders⟩
      exact ⟨hs', e, m', _, order, .served (.dispatch template attributes ready hd hp) hends,
        hpassing.lived.append hlanded.lived, hlanded.flights,
        hlanded.overlaps hpassing hsent hsends (by simp [queue, hready])⟩

theorem exists_overlapping (spec : MessageSpec) (hflights : k.flights = []) :
    ∃ hs e m calls order, Ends settings (ofTask (.publish spec) c) hs c e ∧ w.Lived k hs m ∧
      m.flights = [] ∧ Overlaps w settings spec c k hs m e calls order := by
  cases hj : spec.json with
  | none =>
    refine ⟨[], _, k, [], [], .served (.untemplated hj) ends_done, rfl, hflights,
      (Passing.nil w k).overlaps (fun h => ?_) _⟩
    have htemplated := h.templated
    simp [hj] at htemplated
  | some template =>
    by_cases hn : spec.copies ≤ 0
    · exact ⟨[], _, k, [], [], .served (.copyless hj hn) ends_done, rfl, hflights,
        (Passing.nil w k).overlaps (fun _ => Int.toNat_of_nonpos hn) _⟩
    · obtain ⟨hs, m, hpassing, hrest⟩ := @exists_rendering w settings c k template
        (spec.attributes.getD []) spec.copies.toNat []
      have hpublish {hs : History} {e : Option Fault} :=
        @ends_publish_iff settings c c hs e spec template hj (Int.not_le.mp hn)
      rcases hrest with ⟨g, hends, hmem⟩ | ⟨ready, hlength, hok, hends⟩
      · refine ⟨hs, _, m, [], [], hpublish.mpr hends, hpassing.lived, hpassing.flights.trans hflights,
          hpassing.overlaps (fun h => ?_) _⟩
        obtain ⟨v, hv⟩ := h.rendered _ hmem
        cases hv
      · obtain ⟨hs', e, m', calls, order, hends', hlived, hflights', hoverlaps⟩ :=
          @exists_dispatched w settings c k m spec hs template hj hflights hpassing hok
            (spec.attributes.getD []) ready (by simpa using hlength)
        exact ⟨_, e, m', calls, order, hpublish.mpr (hends hs' e hends'), hlived, hflights', hoverlaps⟩

/-- A step that has made calls fails with the failure of the call that fails first: no call that fails has
a smaller delay, nor an equal one and a smaller number. -/
theorem Overlaps.failure_iff {spec : MessageSpec} (h : Overlaps w settings spec c k hs m e calls order)
    (hne : calls ≠ []) {g : Fault} : e = some g ↔ ∃ a ∈ calls, a.reply = .error g ∧
      ∀ b ∈ calls, (∃ g', b.reply = .error g') → b = a ∨ a.Before b := by
  have hfails {a : Call} {g : Fault} :
      (a.settlement k.now).failure? = some g ↔ a.reply = .error g := by
    simp only [Call.settlement, Settlement.failure?]
    cases a.reply <;> simp
  rw [h.failure hne, List.findSome?_eq_some_iff]
  constructor
  · rintro ⟨front, a, back, horder, ha, hfront⟩
    have hmem : ∀ b, b ∈ calls ↔ b ∈ front ∨ b = a ∨ b ∈ back := fun b => by
      rw [← h.perm.mem_iff, horder]
      simp
    refine ⟨a, (hmem a).mpr (Or.inr (Or.inl rfl)), hfails.mp ha, fun b hb hfailed => ?_⟩
    obtain ⟨g', hg'⟩ := hfailed
    rcases (hmem b).mp hb with hb | hb | hb
    · have hnone := hfront b hb
      rw [hfails.mpr hg'] at hnone
      cases hnone
    · exact Or.inl hb
    · have hordered := h.ordered
      rw [horder] at hordered
      obtain ⟨-, hordered, -⟩ := List.pairwise_append.mp hordered
      exact Or.inr ((List.pairwise_cons.mp hordered).1 b hb)
  · rintro ⟨a, ha, hg, hfirst⟩
    obtain ⟨front, back, horder⟩ := List.append_of_mem (h.perm.symm.subset ha)
    refine ⟨front, a, back, horder, hfails.mpr hg, fun b hb => ?_⟩
    have hordered := h.ordered
    rw [horder] at hordered
    obtain ⟨-, -, hacross⟩ := List.pairwise_append.mp hordered
    have hbefore : b.Before a := hacross b hb a List.mem_cons_self
    have hbmem : b ∈ calls := h.perm.subset (horder ▸ List.mem_append_left _ hb)
    cases hnone : (b.settlement k.now).failure? with
    | none => rfl
    | some g' =>
      -- A call that fails before the first that does is none.
      unfold Call.Before at hbefore
      rcases hfirst b hbmem ⟨g', hfails.mp hnone⟩ with rfl | hlater
      · omega
      · unfold Call.Before at hlater
        omega

/-- The latencies of a step that is begun some time after its context was made: those of its calls that
succeed, in order, each the time until the step is begun and the delay of the call. -/
theorem Overlaps.latencies {spec : MessageSpec} (h : Overlaps w settings spec c k hs m e calls order)
    {t : Nat} (ht : c.start + t = Lane.instant k.now) :
    (hs.filterMap Happening.event?).filterMap (Event.sample? publishLatency) =
      (order.filter fun a => a.reply.isOk).map fun a =>
        .ofFloat (Duration.toMilliseconds ⟨t + (Duration.ofMilliseconds a.delay).nanoseconds⟩) := by
  rw [h.events]
  generalize order = calls'
  induction calls' with
  | nil => rfl
  | cons a calls' ih =>
    have helapsed : c.elapsed (a.settlement k.now).time =
        ⟨t + (Duration.ofMilliseconds a.delay).nanoseconds⟩ := by
      simp only [Context.elapsed, Call.settlement, Lane.instant, Duration.ofMilliseconds] at ht ⊢
      rw [Nat.add_mul, ← ht]
      congr 1
      omega
    rw [List.flatMap_cons, List.filterMap_append, ih, accounting]
    cases hreply : a.reply with
    | ok id =>
      have hok : (a.settlement k.now).reply = .ok id := hreply
      simp [hok, helapsed, List.filterMap_cons, Event.sample?, hreply, Except.isOk, Except.toBool]
    | error g =>
      have herror : (a.settlement k.now).reply = .error g := hreply
      simp [herror, List.filterMap_cons, Event.sample?, hreply, Except.isOk, Except.toBool]

end Run
end Engine
end TopicLoad
