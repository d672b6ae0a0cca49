import TopicLoad.Engine.Schedule
import TopicLoad.Proofs.Serving

/-! A run that is alone on the clock. Its world fixes how long each publish call takes and what comes of
it. What is shown moves the clock on, and a run whose moves agree with the clock is what the schedule
makes of it. -/
namespace TopicLoad
namespace Engine

/-- What a run is told that is alone. Calls are numbered from its beginning on; each takes some
milliseconds. Templates and functions may answer otherwise each time they are asked. -/
structure World where
  topic : Destination → Batching → Except Fault Handle
  template : Nat → Json → Keyed Json → Except Fault Json
  call : Nat → Nat × Except Fault String
  function : Nat → String → Context → Option (List Deed)
  seed : Seed

/-- How often a world has been asked, and the events that have been emitted in it. -/
structure Tally where
  templates : Nat := 0
  calls : Nat := 0
  functions : Nat := 0
  events : List Event := []

/-- A moment of a run: the time in milliseconds and the calls that have not settled. -/
structure Moment where
  now : Nat
  flights : List Flight := []
  tally : Tally := {}

namespace World

variable (w : World)

def collaborators : Collaborators (StateM Tally) where
  emit e := modify fun t => { t with events := t.events ++ [e] }
  note _ := pure ()
  inspect _ := pure ()
  acquire place batching := pure (w.topic place batching)
  render template vars := modifyGet fun t =>
    (w.template t.templates template vars, { t with templates := t.templates + 1 })
  publish _ _ _ := modifyGet fun t => (w.call t.calls, { t with calls := t.calls + 1 })
  call _ name c := modifyGet fun t =>
    (w.function t.functions name c, { t with functions := t.functions + 1 })
  random := pure w.seed

/-- What can happen at a moment, and the moment to which it leads. A pause takes as long as it is, a call
that does not settle at once is in flight, and of the calls in flight the one settles that is due first. -/
def Lives (k : Moment) (a : Happening) (k' : Moment) : Prop :=
  match a with
  | .emitted _ e => k' = { k with tally := { k.tally with events := k.tally.events ++ [e] } }
  | .noted _ | .inspected _ | .surrendered => k' = k
  | .paused p => p.jitter = none ∧ k' = { k with now := k.now + p.duration.ceilMilliseconds }
  | .acquired place batching reply => reply = w.topic place batching ∧ k' = k
  | .rendered template vars reply =>
    reply = w.template k.tally.templates template vars ∧
      k' = { k with tally := { k.tally with templates := k.tally.templates + 1 } }
  | .published _ number _ none =>
    0 < (w.call k.tally.calls).1 ∧
      k' = { k with
        flights := k.flights ++
          [⟨number, k.now + (w.call k.tally.calls).1, (w.call k.tally.calls).2⟩]
        tally := { k.tally with calls := k.tally.calls + 1 } }
  | .published _ _ _ (some s) =>
    (w.call k.tally.calls).1 = 0 ∧ s = ⟨(w.call k.tally.calls).2, Lane.instant k.now⟩ ∧
      k' = { k with tally := { k.tally with calls := k.tally.calls + 1 } }
  | .settled n s =>
    ∃ f, Lane.earliest k.flights = some f ∧ n = f.number ∧
      s = ⟨f.reply, Lane.instant (max k.now f.due)⟩ ∧
      k' = { k with
        now := max k.now f.due
        flights := k.flights.filter fun g => g.number ≠ f.number }
  | .called name c reply =>
    reply = w.function k.tally.functions name c ∧
      k' = { k with tally := { k.tally with functions := k.tally.functions + 1 } }

def Lived : Moment → History → Moment → Prop
  | k, [], k' => k' = k
  | k, a :: hs, k' => ∃ m, w.Lives k a m ∧ Lived m hs k'

variable {w} {k k' m : Moment} {a : Happening} {hs hs' : History}

@[simp] theorem lived_nil_iff : w.Lived k [] k' ↔ k' = k := Iff.rfl

theorem lived_cons_iff : w.Lived k (a :: hs) k' ↔ ∃ m, w.Lives k a m ∧ w.Lived m hs k' := Iff.rfl

@[simp] theorem lived_singleton_iff : w.Lived k [a] k' ↔ w.Lives k a k' := by
  simp [lived_cons_iff]

theorem lived_append_iff : w.Lived k (hs ++ hs') k' ↔ ∃ m, w.Lived k hs m ∧ w.Lived m hs' k' := by
  induction hs generalizing k with
  | nil => simp
  | cons a hs ih =>
    simp only [List.cons_append, lived_cons_iff, ih]
    constructor
    · rintro ⟨m, ha, m', hs, hs'⟩
      exact ⟨m', ⟨m, ha, hs⟩, hs'⟩
    · rintro ⟨m', ⟨m, ha, hs⟩, hs'⟩
      exact ⟨m, ha, m', hs, hs'⟩

theorem Lived.append (h : w.Lived k hs m) (h' : w.Lived m hs' k') : w.Lived k (hs ++ hs') k' :=
  lived_append_iff.mpr ⟨m, h, h'⟩

theorem Lives.tally (h : w.Lives k a k') :
    k'.tally.events = k.tally.events ++ a.event?.toList ∧
      k'.tally.calls = k.tally.calls + a.call?.toList.length := by
  cases a with
  | emitted origin e => simp [show k' = _ from h, Happening.event?, Happening.call?]
  | noted line => simp [show k' = k from h, Happening.event?, Happening.call?]
  | inspected c => simp [show k' = k from h, Happening.event?, Happening.call?]
  | surrendered => simp [show k' = k from h, Happening.event?, Happening.call?]
  | published topic number message s =>
    cases s with
    | none => simp [h.2, Happening.event?, Happening.call?]
    | some s => simp [h.2.2, Happening.event?, Happening.call?]
  | settled n s =>
    obtain ⟨f, -, -, -, rfl⟩ := h
    simp [Happening.event?, Happening.call?]
  | _ => simp [h.2, Happening.event?, Happening.call?]

theorem Lived.tally (h : w.Lived k hs k') :
    k'.tally.events = k.tally.events ++ hs.filterMap Happening.event? ∧
      k'.tally.calls = k.tally.calls + (hs.filterMap Happening.call?).length := by
  induction hs generalizing k with
  | nil => simp [lived_nil_iff.mp h]
  | cons a hs ih =>
    obtain ⟨m, ha, hrest⟩ := h
    obtain ⟨hevents, hcalls⟩ := ih hrest
    obtain ⟨hevents', hcalls'⟩ := ha.tally
    rw [hevents, hcalls, hevents', hcalls']
    refine ⟨?_, ?_⟩
    · cases he : a.event? <;> simp [he]
    · cases hc : a.call? with
      | none => simp [hc]
      | some x =>
        simp only [List.filterMap_cons_some hc, Option.toList_some, List.length_cons, List.length_nil]
        omega

end World
namespace Schedule

variable {m : Type → Type} [Monad m] [LawfulMonad m] {c : Collaborators m} {settings : Settings}
  {now fuel : Nat} {lanes : List Lane}

theorem drive_of_ended (h : ∀ l ∈ lanes, l.ending.isSome = true) (rounds : Nat) :
    drive c settings fuel rounds now lanes = pure (now, lanes) := by
  have hturns : lanes.mapM (Lane.turn c settings now fuel) = pure lanes := by
    induction lanes with
    | nil => simp
    | cons l ls ih =>
      obtain ⟨hl, hls⟩ := List.forall_mem_cons.mp h
      obtain ⟨ending, hending⟩ := Option.isSome_iff_exists.mp hl
      have hturn : Lane.turn c settings now fuel l = pure l := by simp [Lane.turn, hending]
      simp [hturn, ih hls]
  have hnext : lanes.filterMap Lane.next = [] := by
    refine List.filterMap_eq_nil_iff.mpr fun l hl => ?_
    obtain ⟨ending, hending⟩ := Option.isSome_iff_exists.mp (h l hl)
    simp [Lane.next, hending]
  cases rounds with
  | zero => simp [drive]
  | succ rounds => simp [drive, hturns, hnext]

theorem drive_add {σ : Type} {c : Collaborators (StateM σ)} {s : σ} {result : (Nat × List Lane) × σ}
    {rounds : Nat} (h : (drive c settings fuel rounds now lanes).run s = pure result)
    (hended : ∀ l ∈ result.1.2, l.ending.isSome = true) (more : Nat) :
    (drive c settings fuel (rounds + more) now lanes).run s = pure result := by
  induction rounds generalizing now lanes s with
  | zero =>
    obtain rfl : ((now, lanes), s) = result := h
    rw [drive_of_ended hended]
    rfl
  | succ rounds ih =>
    obtain ⟨served, hserved⟩ : ∃ served : List Lane × σ,
        (lanes.mapM (Lane.turn c settings now fuel)).run s = pure served := ⟨_, rfl⟩
    rw [Nat.add_right_comm]
    simp only [drive, StateT.run_bind, hserved, pure_bind] at h ⊢
    cases hnext : (served.1.filterMap Lane.next).min? with
    | none => simpa [hnext] using h
    | some t =>
      simp only [hnext] at h ⊢
      exact ih h
end Schedule
namespace Run

variable {w : World} {settings : Settings} {k k' m : Moment} {r r' q : Run} {hs : History}
  {wake fuel : Nat}

def lane (k : Moment) (r : Run) (wake : Nat) : Lane := { run := r, wake := wake, flights := k.flights }

/-- What a move comes to that agrees with the clock: the run is served on; or it rests, to be served on
when the move is over; or it waits for that moment and only then makes the move. -/
theorem serve_moves (hm : Moves settings r hs r') (hl : w.Lived k hs m) (wake : Nat) :
    (m.now = k.now ∧ ∀ f, (Lane.serve w.collaborators settings k.now (f + 1) (lane k r wake)).run k.tally =
        (Lane.serve w.collaborators settings m.now f (lane m r' wake)).run m.tally) ∨
    (k.now ≤ m.now ∧ ∀ f, (Lane.serve w.collaborators settings k.now (f + 1) (lane k r wake)).run k.tally =
        pure (lane m r' m.now, m.tally)) ∨
    (k.now ≤ m.now ∧
      (∀ f, (Lane.serve w.collaborators settings k.now (f + 1) (lane k r wake)).run k.tally =
        pure (lane k r m.now, k.tally)) ∧
      ∀ f wake, (Lane.serve w.collaborators settings m.now (f + 1) (lane k r wake)).run k.tally =
        (Lane.serve w.collaborators settings m.now f (lane m r' wake)).run m.tally) := by
  unfold Moves at hm
  cases ha : r.act settings with
  | finish => simp [ha, Act.Answered] at hm
  | silent next =>
    rw [ha] at hm
    obtain ⟨rfl, rfl⟩ := hm
    obtain rfl := hl
    refine Or.inl ⟨rfl, fun f => ?_⟩
    simp [Lane.serve, lane, ha]
  | emit e next =>
    rw [ha] at hm
    obtain ⟨rfl, rfl⟩ := hm
    obtain rfl := World.lived_singleton_iff.mp hl
    refine Or.inl ⟨rfl, fun f => ?_⟩
    simp [Lane.serve, lane, ha, World.collaborators]
  | note line next =>
    rw [ha] at hm
    obtain ⟨rfl, rfl⟩ := hm
    obtain rfl := World.lived_singleton_iff.mp hl
    refine Or.inl ⟨rfl, fun f => ?_⟩
    simp [Lane.serve, lane, ha, World.collaborators]
  | inspect c next =>
    rw [ha] at hm
    obtain ⟨rfl, rfl⟩ := hm
    obtain rfl := World.lived_singleton_iff.mp hl
    refine Or.inl ⟨rfl, fun f => ?_⟩
    simp [Lane.serve, lane, ha, World.collaborators]
  | surrender next =>
    rw [ha] at hm
    obtain ⟨rfl, rfl⟩ := hm
    obtain rfl := World.lived_singleton_iff.mp hl
    refine Or.inr (Or.inl ⟨Nat.le_refl _, fun f => ?_⟩)
    simp [Lane.serve, lane, ha]
  | pause p next =>
    rw [ha] at hm
    obtain ⟨rfl, rfl⟩ := hm
    obtain ⟨hp, rfl⟩ := World.lived_singleton_iff.mp hl
    have heffective : p.effective? w.seed = some p.duration := by
      simp [Pause.effective?, Pause.range?, hp]
    by_cases hzero : p.duration.ceilMilliseconds = 0
    · refine Or.inl ⟨by simp [hzero], fun f => ?_⟩
      simp [Lane.serve, lane, ha, World.collaborators, heffective, hzero]
    · refine Or.inr (Or.inl ⟨by simp, fun f => ?_⟩)
      simp [Lane.serve, lane, ha, World.collaborators, heffective, hzero]
  | acquire place batching next =>
    rw [ha] at hm
    obtain ⟨reply, rfl, rfl⟩ := hm
    obtain ⟨rfl, rfl⟩ := World.lived_singleton_iff.mp hl
    refine Or.inl ⟨rfl, fun f => ?_⟩
    simp [Lane.serve, lane, ha, World.collaborators]
  | render template vars next =>
    rw [ha] at hm
    obtain ⟨reply, rfl, rfl⟩ := hm
    obtain ⟨rfl, rfl⟩ := World.lived_singleton_iff.mp hl
    refine Or.inl ⟨rfl, fun f => ?_⟩
    simp [Lane.serve, lane, ha, World.collaborators]
  | publish topic number message next =>
    rw [ha] at hm
    obtain ⟨s, rfl, rfl⟩ := hm
    cases s with
    | none =>
      obtain ⟨hpos, rfl⟩ := World.lived_singleton_iff.mp hl
      refine Or.inl ⟨rfl, fun f => ?_⟩
      simp [Lane.serve, lane, ha, World.collaborators, Nat.pos_iff_ne_zero.mp hpos]
    | some s =>
      obtain ⟨hzero, rfl, rfl⟩ := World.lived_singleton_iff.mp hl
      refine Or.inl ⟨rfl, fun f => ?_⟩
      simp [Lane.serve, lane, ha, World.collaborators, hzero]
  | await inFlight next =>
    rw [ha] at hm
    obtain ⟨n, s, hn, rfl, rfl⟩ := hm
    obtain ⟨f, hf, rfl, rfl, rfl⟩ := World.lived_singleton_iff.mp hl
    -- The call in flight has settled by now, or the lane rests until it does.
    by_cases hdue : f.due ≤ k.now
    · refine Or.inl ⟨Nat.max_eq_left hdue, fun f' => ?_⟩
      simp [Lane.serve, lane, ha, hf, hdue]
    · have hmax : max k.now f.due = f.due := Nat.max_eq_right (Nat.le_of_not_le hdue)
      refine Or.inr (Or.inr ⟨Nat.le_max_left _ _, fun f' => ?_, fun f' wake' => ?_⟩)
      · simp [Lane.serve, lane, ha, hf, hdue, hmax]
      · simp [Lane.serve, lane, ha, hf, hmax]
  | call name c next =>
    rw [ha] at hm
    obtain ⟨reply, rfl, rfl⟩ := hm
    obtain ⟨rfl, rfl⟩ := World.lived_singleton_iff.mp hl
    refine Or.inl ⟨rfl, fun f => ?_⟩
    simp [Lane.serve, lane, ha, World.collaborators]

/-- What a lane that was served for a while comes to in the rounds that follow. -/
def Arrives (w : World) (settings : Settings) (fuel now : Nat) (served : Lane × Tally)
    (result : (Nat × List Lane) × Tally) : Prop :=
  served.1.deadline = none ∧
    match served.1.ending with
    | some _ => ((now, [served.1]), served.2) = result
    | none => ∃ rounds,
      (Schedule.drive w.collaborators settings fuel rounds (max now served.1.wake) [served.1]).run
        served.2 = pure result

/-- A lane that has some fuel left in a round comes to a result. -/
def Reaches (w : World) (settings : Settings) (fuel : Nat) (k : Moment) (l : Lane)
    (result : (Nat × List Lane) × Tally) (f : Nat) : Prop :=
  ∃ served, (Lane.serve w.collaborators settings k.now f l).run k.tally = pure served ∧
    Arrives w settings fuel k.now served result

theorem Reaches.drive {l : Lane} {result : (Nat × List Lane) × Tally} (hopen : l.ending = none)
    (hwake : l.wake ≤ k.now) (h : Reaches w settings fuel k l result fuel) : ∃ rounds,
    (Schedule.drive w.collaborators settings fuel rounds k.now [l]).run k.tally = pure result := by
  obtain ⟨⟨l', t⟩, hserved, (hdeadline : l'.deadline = none), h⟩ := h
  have hturn : (Lane.turn w.collaborators settings k.now fuel l).run k.tally = pure (l', t) := by
    simp [Lane.turn, hopen, hwake, hserved, hdeadline]
  cases hending : l'.ending with
  | some ending =>
    have hnext : ([l'].filterMap Lane.next).min? = none := by simp [Lane.next, hending]
    have hresult : ((k.now, [l']), t) = result := by simpa [hending] using h
    exact ⟨1, by simp [Schedule.drive, hturn, hnext, hresult]⟩
  | none =>
    have hnext : ([l'].filterMap Lane.next).min? = some l'.wake := by
      simp [Lane.next, hending, hdeadline]
    simp only [hending] at h
    obtain ⟨rounds, h⟩ := h
    exact ⟨rounds + 1, by simpa [Schedule.drive, hturn, hnext] using h⟩

theorem Reaches.of_succ {l : Lane} {result : (Nat × List Lane) × Tally} (hopen : l.ending = none)
    (hdeadline : l.deadline = none) (hwake : l.wake ≤ k.now)
    (h : ∀ f, Reaches w settings (fuel + 1) k l result (f + 1)) (f : Nat) :
    Reaches w settings (fuel + 1) k l result f := by
  cases f with
  | succ f => exact h f
  | zero =>
    refine ⟨(l, k.tally), by simp [Lane.serve], hdeadline, ?_⟩
    rw [hopen, Nat.max_eq_left hwake]
    exact (h fuel).drive hopen hwake

/-- A path that agrees with the clock and comes to its end is what the schedule of a lone run comes to,
wherever the fuel of its rounds cuts the path. By induction on the path. -/
theorem Path.reaches (h : Path settings r hs q) (hq : q.control = []) (hl : w.Lived k hs k') (fuel : Nat)
    (hwake : wake ≤ k.now) : ∃ l, l.run = q ∧ l.ending = some .finished ∧
      ∀ f, Reaches w settings (fuel + 1) k (lane k r wake) ((k'.now, [l]), k'.tally) f := by
  induction h generalizing k wake with
  | refl r =>
    obtain rfl := World.lived_nil_iff.mp hl
    have hfinish : r.act settings = .finish := by simp [Run.act, hq]
    let l : Lane := { lane k' r wake with ending := some .finished }
    have hsucc (f : Nat) : Reaches w settings (fuel + 1) k' (lane k' r wake)
        ((k'.now, [l]), k'.tally) (f + 1) :=
      ⟨(l, k'.tally), by simp [Lane.serve, lane, hfinish, l], rfl, rfl⟩
    exact ⟨l, rfl, rfl, .of_succ rfl rfl hwake hsucc⟩
  | @step r r' q hs hs' hm hp ih =>
    obtain ⟨m, hlm, hlrest⟩ := World.lived_append_iff.mp hl
    rcases serve_moves hm hlm wake with ⟨hnow, hserve⟩ | ⟨hnow, hserve⟩ | ⟨hnow, hwait, hserve⟩
    · -- The run is served on in the same round.
      obtain ⟨l, hrun, hending, hreaches⟩ := ih hq hlrest (hnow ▸ hwake)
      have hsucc (f : Nat) : Reaches w settings (fuel + 1) k (lane k r wake)
          ((k'.now, [l]), k'.tally) (f + 1) := by
        obtain ⟨served, hserved, harrives⟩ := hreaches f
        exact ⟨served, (hserve f).trans hserved, hnow ▸ harrives⟩
      exact ⟨l, hrun, hending, .of_succ rfl rfl hwake hsucc⟩
    · -- The run rests until the move is over.
      obtain ⟨l, hrun, hending, hreaches⟩ := ih hq hlrest (Nat.le_refl m.now)
      have hsucc (f : Nat) : Reaches w settings (fuel + 1) k (lane k r wake)
          ((k'.now, [l]), k'.tally) (f + 1) := by
        refine ⟨_, hserve f, rfl, ?_⟩
        have hmax : max k.now (lane m r' m.now).wake = m.now := Nat.max_eq_right hnow
        rw [hmax]
        exact (hreaches (fuel + 1)).drive rfl (Nat.le_refl m.now)
      exact ⟨l, hrun, hending, .of_succ rfl rfl hwake hsucc⟩
    · -- The run waits for the moment at which it makes the move.
      obtain ⟨l, hrun, hending, hreaches⟩ := ih hq hlrest (Nat.le_refl m.now)
      have hreaches' : Reaches w settings (fuel + 1) ⟨m.now, k.flights, k.tally⟩ (lane k r m.now)
          ((k'.now, [l]), k'.tally) (fuel + 1) := by
        obtain ⟨served, hserved, harrives⟩ := hreaches fuel
        exact ⟨served, (hserve fuel m.now).trans hserved, harrives⟩
      have hsucc (f : Nat) : Reaches w settings (fuel + 1) k (lane k r wake)
          ((k'.now, [l]), k'.tally) (f + 1) := by
        refine ⟨_, hwait f, rfl, ?_⟩
        have hmax : max k.now (lane k r m.now).wake = m.now := Nat.max_eq_right hnow
        rw [hmax]
        exact hreaches'.drive rfl (Nat.le_refl m.now)
      exact ⟨l, hrun, hending, .of_succ rfl rfl hwake hsucc⟩

/-- The schedule of a lone run ends when the run does, at the moment to which a path leads that agrees with
the clock. -/
theorem Path.drive {now : Nat} (h : Path settings r hs q) (hq : q.control = [])
    (hl : w.Lived ⟨now, [], {}⟩ hs k') (hfuel : 0 < fuel) :
    ∃ enough l, l.run = q ∧ l.ending = some .finished ∧ ∀ rounds, enough ≤ rounds →
      (Schedule.drive w.collaborators settings fuel rounds now [{ run := r }]).run {} =
        ((k'.now, [l]), k'.tally) := by
  obtain ⟨fuel, rfl⟩ : ∃ n, fuel = n + 1 := ⟨fuel - 1, by omega⟩
  obtain ⟨l, hrun, hending, hreaches⟩ := h.reaches hq hl fuel (Nat.zero_le _)
  obtain ⟨enough, hdrive⟩ := (hreaches (fuel + 1)).drive rfl (Nat.zero_le _)
  refine ⟨enough, l, hrun, hending, fun rounds hrounds => ?_⟩
  have hended : ∀ l' ∈ [l], l'.ending.isSome = true := by simp [hending]
  have hadd := Schedule.drive_add hdrive hended (rounds - enough)
  rw [Nat.add_sub_cancel' hrounds] at hadd
  exact hadd

end Run
end Engine
end TopicLoad
