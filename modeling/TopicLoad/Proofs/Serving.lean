import TopicLoad.Proofs.History

/-! What it means to serve a frame, said once for every kind of frame. Serving the first frame of a run
does not notice the work behind it, so that paths can be cut where one piece of work ends and the next
begins. -/
namespace TopicLoad
namespace Engine

/-- What becomes of a frame: other frames take its place, and the context may change; or it fails. -/
inductive Upshot where
  | went (fs : List Frame) (c : Context)
  | failed (f : Fault)

def Upshot.run (c : Context) (failure : Option Fault) (after : List Frame) : Upshot → Run
  | went fs d => ⟨fs ++ after, d, failure⟩
  | failed f => ⟨after.filter Frame.survives, c, some f⟩

/-- What holds of what becomes of a frame and of the work behind it, holds of all the work that is left. -/
theorem Upshot.forall_run {P : Frame → Prop} {c : Context} {failure : Option Fault} {after : List Frame}
    {u : Upshot} (hu : ∀ f ∈ (u.run c failure []).control, P f) (hafter : ∀ f ∈ after, P f) :
    ∀ f ∈ (u.run c failure after).control, P f := by
  cases u with
  | went fs d =>
    rw [Upshot.run, List.append_nil] at hu
    exact List.forall_mem_append.mpr ⟨hu, hafter⟩
  | failed g => exact fun f hf => hafter f (List.mem_filter.mp hf).1

section

open Run

variable (settings : Settings) (c : Context) (failure : Option Fault)

/-- How a frame is served on a context, after a failure or none, and what that shows. -/
inductive Frame.Served : Frame → History → Upshot → Prop where
  | emit (e : Event) : Served (.emit e) [.emitted .engine e] (.went [] c)
  | note (line : Log.Line) : Served (.note line) [.noted line] (.went [] c)
  | enter : Served .enter [] (.went [] { c with state := .running })
  | acquired (place : Destination) (handle : Handle) :
    Served (.acquire place) [.acquired place {} (.ok handle)]
      (.went [] { c with publisher := some handle })
  | unacquired (place : Destination) (f : Fault) :
    Served (.acquire place) [.acquired place {} (.error f)] (.failed f)
  | skip : Served (.task .skip) [] (.went [] c)
  | pause (p : Pause) : Served (.task (.pause p)) [.paused p] (.went [] c)
  | mark (text : String) :
    Served (.task (.mark text)) []
      (.went [.surrender, .note (Log.debug s!"log marker: {text}")] c)
  | called (name : String) (ds : List Deed) :
    Served (.task (.call name)) [.called name c (some ds)] (.went [.deeds ds] c)
  | uncalled (name : String) :
    Served (.task (.call name)) [.called name c none]
      (.went [.note (Log.debug s!"No processor named '{name}', skipping")] c)
  | loop (count : LoopCount) (body : List Task) :
    Served (.task (.loop count body)) []
      (.went [.turn count 0 body, .rebind (c.vars.get? loopVar)] (c.setVar loopVar none))
  | untemplated {spec : MessageSpec} (h : spec.json = none) :
    Served (.task (.publish spec)) [] (.failed .missingTemplate)
  | copyless {spec : MessageSpec} {template : Json} (h : spec.json = some template)
    (hn : spec.copies ≤ 0) : Served (.task (.publish spec)) [] (.went [] c)
  | publish {spec : MessageSpec} {template : Json} (h : spec.json = some template)
    (hn : 0 < spec.copies) :
    Served (.task (.publish spec)) []
      (.went [.render template (spec.attributes.getD []) spec.copies.toNat []] c)
  | turn {count : LoopCount} {turns : Nat} (body : List Task) (h : goesOn count turns = true) :
    Served (.turn count turns body) []
      (.went (body.map .task ++ [.surrender, .turn count (turns + 1) body])
        (c.setVar loopVar (some (.ofNat (turns + 1)))))
  | done {count : LoopCount} {turns : Nat} (body : List Task) (h : goesOn count turns = false) :
    Served (.turn count turns body) [] (.went [] c)
  | surrender : Served .surrender [.surrendered] (.went [] c)
  | rebind (outer : Option Json) :
    Served (.rebind outer) [] (.went [] (c.setVar loopVar outer))
  | rendered (template : Json) (attributes : Keyed String) (left : Nat) (ready : List (List UInt8))
    (v : Json) :
    Served (.render template attributes (left + 1) ready)
      [.rendered template c.vars.bindings (.ok v)]
      (.went [.note (Log.debug s!"Publishing message to topic ({settings.topic}): {v.text}"),
        .render template attributes left (ready ++ [payload v])] c)
  | unrendered (template : Json) (attributes : Keyed String) (left : Nat)
    (ready : List (List UInt8)) (f : Fault) :
    Served (.render template attributes (left + 1) ready)
      [.rendered template c.vars.bindings (.error f)]
      (.went [.note (Log.debug s!"Error processing template: {f.message}"), .fail f] c)
  | dry (template : Json) (attributes : Keyed String) (ready : List (List UInt8))
    (h : settings.dryRun = true) :
    Served (.render template attributes 0 ready)
      [.noted (Log.debug s!"Dry run: prepared {ready.length} message(s), nothing sent")] (.went [] c)
  | topicless (template : Json) (attributes : Keyed String) (ready : List (List UInt8))
    (h : settings.dryRun = false) (hp : c.publisher = none) :
    Served (.render template attributes 0 ready) [] (.failed .noPublisher)
  | dispatch (template : Json) (attributes : Keyed String) (ready : List (List UInt8))
    {topic : Handle} (h : settings.dryRun = false) (hp : c.publisher = some topic) :
    Served (.render template attributes 0 ready) []
      (.went [.send topic (ready.map fun data => ⟨data, attributes⟩) 0 [] none] c)
  | sent (topic : Handle) (m : Outgoing) (queue : List Outgoing) (number : Nat) (inFlight : List Nat)
    (kept : Option Fault) :
    Served (.send topic (m :: queue) number inFlight kept)
      [.published topic number m none]
      (.went [.send topic queue (number + 1) (inFlight ++ [number]) kept] c)
  | sentAtOnce (topic : Handle) (m : Outgoing) (queue : List Outgoing) (number : Nat)
    (inFlight : List Nat) (kept : Option Fault) (s : Settlement) :
    Served (.send topic (m :: queue) number inFlight kept)
      [.published topic number m (some s)]
      (.went (settledFrames c s ++ [.send topic queue (number + 1) inFlight (firstFailure kept s)]) c)
  | settled (topic : Handle) (number : Nat) {inFlight : List Nat} (kept : Option Fault) {n : Nat}
    (h : n ∈ inFlight) (s : Settlement) :
    Served (.send topic [] number inFlight kept) [.settled n s]
      (.went (settledFrames c s ++
        [.send topic [] number (inFlight.erase n) (firstFailure kept s)]) c)
  | delivered (topic : Handle) (number : Nat) :
    Served (.send topic [] number [] none) [] (.went [] c)
  | undelivered (topic : Handle) (number : Nat) (f : Fault) :
    Served (.send topic [] number [] (some f)) [] (.failed f)
  | finished : Served (.deeds []) [] (.went [] c)
  | became (d : Context) (ds : List Deed) :
    Served (.deeds (.become d :: ds)) [] (.went [.deeds ds] d)
  | emitted (e : Event) (ds : List Deed) :
    Served (.deeds (.emit e :: ds)) [.emitted .function e] (.went [.deeds ds] c)
  | paused (d : Duration) (ds : List Deed) :
    Served (.deeds (.pause d :: ds)) [.paused ⟨d, none⟩] (.went [.deeds ds] c)
  | inspected (ds : List Deed) :
    Served (.deeds (.inspect :: ds)) [.inspected c] (.went [.deeds ds] c)
  | fail (f : Fault) : Served (.fail f) [] (.failed f)
  | completed (name : String) (h : failure = none) :
    Served (.conclude name) [] (.went [] { c with state := .completed })
  | broken (name : String) {f : Fault} (h : failure = some f) :
    Served (.conclude name)
      [.noted (Log.debug s!"Scenario '{name}' failed: {f.message}")]
      (.went [] { c with state := .failed })

end

namespace Run

variable {settings : Settings} {r r' r'' : Run} {hs hs' : History} {c : Context}
  {failure : Option Fault}

theorem moves_of_served {f : Frame} {after : List Frame} {u : Upshot}
    (h : f.Served settings c failure hs u) :
    Moves settings ⟨f :: after, c, failure⟩ hs (u.run c failure after) := by
  cases h with
  | acquired place handle => exact ⟨.ok handle, rfl, rfl⟩
  | unacquired place f => exact ⟨.error f, rfl, rfl⟩
  | called name ds => exact ⟨some ds, rfl, rfl⟩
  | uncalled name => exact ⟨none, rfl, rfl⟩
  | untemplated h =>
    simp only [Moves, act, begin, h]
    exact ⟨rfl, rfl⟩
  | copyless h hn =>
    simp only [Moves, act, begin, h, hn, if_true]
    exact ⟨rfl, rfl⟩
  | publish h hn =>
    simp only [Moves, act, begin, h, Int.not_le.mpr hn, if_false]
    exact ⟨rfl, rfl⟩
  | turn body h =>
    simp only [Moves, act, h, if_true]
    exact ⟨rfl, by simp [Upshot.run, goWith]⟩
  | done body h =>
    simp only [Moves, act, h]
    exact ⟨rfl, rfl⟩
  | rendered template attributes left ready v => exact ⟨.ok v, rfl, rfl⟩
  | unrendered template attributes left ready f => exact ⟨.error f, rfl, rfl⟩
  | dry template attributes ready h =>
    simp only [Moves, act, Run.dispatch, h, if_true]
    exact ⟨rfl, rfl⟩
  | topicless template attributes ready h hp =>
    simp only [Moves, act, Run.dispatch, h, hp]
    exact ⟨rfl, rfl⟩
  | dispatch template attributes ready h hp =>
    simp only [Moves, act, Run.dispatch, h, hp]
    exact ⟨rfl, rfl⟩
  | sent => exact ⟨none, rfl, rfl⟩
  | sentAtOnce topic m queue number inFlight kept s =>
    exact ⟨some s, rfl, by simp [Upshot.run, goOn]⟩
  | @settled topic number inFlight kept n hn s =>
    cases inFlight with
    | nil => cases hn
    | cons i inFlight => exact ⟨n, s, hn, rfl, by simp [Upshot.run, goOn]⟩
  | completed name h =>
    subst h
    exact ⟨rfl, rfl⟩
  | broken name h =>
    subst h
    exact ⟨rfl, rfl⟩
  | _ => exact ⟨rfl, rfl⟩

theorem served_of_moves {f : Frame} {after : List Frame}
    (h : Moves settings ⟨f :: after, c, failure⟩ hs r) :
    ∃ u, f.Served settings c failure hs u ∧ r = u.run c failure after := by
  -- Some frames are served by what their data, the settings or the context say: there the case is told
  -- before the move is opened.
  cases f with
  | emit e =>
    obtain ⟨rfl, rfl⟩ := h
    exact ⟨_, .emit e, rfl⟩
  | note line =>
    obtain ⟨rfl, rfl⟩ := h
    exact ⟨_, .note line, rfl⟩
  | enter =>
    obtain ⟨rfl, rfl⟩ := h
    exact ⟨_, .enter, rfl⟩
  | acquire place =>
    obtain ⟨_ | _, rfl, rfl⟩ := h
    · exact ⟨_, .unacquired place _, rfl⟩
    · exact ⟨_, .acquired place _, rfl⟩
  | task t =>
    cases t with
    | loop count body =>
      obtain ⟨rfl, rfl⟩ := h
      exact ⟨_, .loop count body, rfl⟩
    | pause p =>
      obtain ⟨rfl, rfl⟩ := h
      exact ⟨_, .pause p, rfl⟩
    | call name =>
      obtain ⟨_ | ds, rfl, rfl⟩ := h
      · exact ⟨_, .uncalled name, rfl⟩
      · exact ⟨_, .called name ds, rfl⟩
    | mark text =>
      obtain ⟨rfl, rfl⟩ := h
      exact ⟨_, .mark text, rfl⟩
    | publish spec =>
      cases hj : spec.json with
      | none =>
        simp only [Moves, act, begin, hj] at h
        obtain ⟨rfl, rfl⟩ := h
        exact ⟨_, .untemplated hj, rfl⟩
      | some template =>
        by_cases hn : spec.copies ≤ 0
        · simp only [Moves, act, begin, hj, hn, if_true] at h
          obtain ⟨rfl, rfl⟩ := h
          exact ⟨_, .copyless hj hn, rfl⟩
        · simp only [Moves, act, begin, hj, hn, if_false] at h
          obtain ⟨rfl, rfl⟩ := h
          exact ⟨_, .publish hj (Int.not_le.mp hn), rfl⟩
    | skip =>
      obtain ⟨rfl, rfl⟩ := h
      exact ⟨_, .skip, rfl⟩
  | turn count turns body =>
    cases hn : goesOn count turns with
    | true =>
      simp only [Moves, act, hn, if_true] at h
      obtain ⟨rfl, rfl⟩ := h
      exact ⟨_, .turn body hn, by simp [Upshot.run, goWith]⟩
    | false =>
      simp only [Moves, act, hn] at h
      obtain ⟨rfl, rfl⟩ := h
      exact ⟨_, .done body hn, rfl⟩
  | surrender =>
    obtain ⟨rfl, rfl⟩ := h
    exact ⟨_, .surrender, rfl⟩
  | rebind outer =>
    obtain ⟨rfl, rfl⟩ := h
    exact ⟨_, .rebind outer, rfl⟩
  | render template attributes left ready =>
    cases left with
    | zero =>
      cases hd : settings.dryRun with
      | true =>
        simp only [Moves, act, dispatch, hd, if_true] at h
        obtain ⟨rfl, rfl⟩ := h
        exact ⟨_, .dry template attributes ready hd, rfl⟩
      | false =>
        cases hp : c.publisher with
        | none =>
          simp only [Moves, act, dispatch, hd, hp] at h
          obtain ⟨rfl, rfl⟩ := h
          exact ⟨_, .topicless template attributes ready hd hp, rfl⟩
        | some topic =>
          simp only [Moves, act, dispatch, hd, hp] at h
          obtain ⟨rfl, rfl⟩ := h
          exact ⟨_, .dispatch template attributes ready hd hp, rfl⟩
    | succ left =>
      obtain ⟨_ | _, rfl, rfl⟩ := h
      · exact ⟨_, .unrendered template attributes left ready _, rfl⟩
      · exact ⟨_, .rendered template attributes left ready _, rfl⟩
  | send topic queue number inFlight kept =>
    cases queue with
    | cons m queue =>
      obtain ⟨_ | s, rfl, rfl⟩ := h
      · exact ⟨_, .sent topic m queue number inFlight kept, rfl⟩
      · exact ⟨_, .sentAtOnce topic m queue number inFlight kept s, by simp [Upshot.run, goOn]⟩
    | nil =>
      cases inFlight with
      | cons i inFlight =>
        obtain ⟨n, s, hn, rfl, rfl⟩ := h
        exact ⟨_, .settled topic number kept hn s, by simp [Upshot.run, goOn]⟩
      | nil =>
        cases kept with
        | none =>
          obtain ⟨rfl, rfl⟩ := h
          exact ⟨_, .delivered topic number, rfl⟩
        | some f =>
          obtain ⟨rfl, rfl⟩ := h
          exact ⟨_, .undelivered topic number f, rfl⟩
  | deeds ds =>
    cases ds with
    | nil =>
      obtain ⟨rfl, rfl⟩ := h
      exact ⟨_, .finished, rfl⟩
    | cons d ds =>
      cases d with
      | become d =>
        obtain ⟨rfl, rfl⟩ := h
        exact ⟨_, .became d ds, rfl⟩
      | emit e =>
        obtain ⟨rfl, rfl⟩ := h
        exact ⟨_, .emitted e ds, rfl⟩
      | pause d =>
        obtain ⟨rfl, rfl⟩ := h
        exact ⟨_, .paused d ds, rfl⟩
      | inspect =>
        obtain ⟨rfl, rfl⟩ := h
        exact ⟨_, .inspected ds, rfl⟩
  | fail f =>
    obtain ⟨rfl, rfl⟩ := h
    exact ⟨_, .fail f, rfl⟩
  | conclude name =>
    cases failure with
    | none =>
      obtain ⟨rfl, rfl⟩ := h
      exact ⟨_, .completed name rfl, rfl⟩
    | some f =>
      obtain ⟨rfl, rfl⟩ := h
      exact ⟨_, .broken name rfl, rfl⟩

theorem moves_cons_iff {f : Frame} {after : List Frame} : Moves settings ⟨f :: after, c, failure⟩ hs r ↔
    ∃ u, f.Served settings c failure hs u ∧ r = u.run c failure after := by
  constructor
  · exact served_of_moves
  · rintro ⟨u, h, rfl⟩
    exact moves_of_served h

/-- What holds of all the work of a run and is handed on when its first frame is served, holds of all the
work that is left after a move; and what serving the frame shows besides. -/
theorem Moves.forall_control {P : Frame → Prop} {Q : Prop} (hm : Moves settings r hs r')
    (hr : ∀ f ∈ r.control, P f)
    (hserved : ∀ {f c failure u}, P f → f.Served settings c failure hs u →
      (∀ g ∈ (u.run c failure []).control, P g) ∧ Q) : (∀ f ∈ r'.control, P f) ∧ Q := by
  obtain ⟨_ | ⟨f, after⟩, c, failure⟩ := r
  · exact absurd hm not_moves_nil
  obtain ⟨hf, hafter⟩ := List.forall_mem_cons.mp hr
  obtain ⟨u, hu, rfl⟩ := moves_cons_iff.mp hm
  obtain ⟨hgs, hshown⟩ := hserved hf hu
  exact ⟨Upshot.forall_run hgs hafter, hshown⟩

def remaining (failure : Option Fault) (fs : List Frame) : List Frame :=
  match failure with
  | none => fs
  | some _ => fs.filter Frame.survives

def atop (after : List Frame) (r : Run) : Run :=
  { r with control := r.control ++ remaining r.failure after }

theorem atop_of_some (after fs : List Frame) (c : Context) (f : Fault) :
    atop after ⟨fs, c, some f⟩ = ⟨fs ++ after.filter Frame.survives, c, some f⟩ := rfl

theorem filter_survives_tasks (ts : List Task) : (ts.map Frame.task).filter Frame.survives = [] := by
  simp [Frame.survives]

theorem atop_run (after fs : List Frame) (u : Upshot) : atop after (u.run c failure fs) =
    u.run c failure (fs ++ remaining failure after) := by
  cases u with
  | went gs d => simp [atop, Upshot.run]
  | failed f => cases failure <;> simp [atop, Upshot.run, remaining]

theorem moves_atop_iff (after : List Frame) (hr : r.control ≠ []) :
    Moves settings (atop after r) hs r'' ↔ ∃ r', Moves settings r hs r' ∧ r'' = atop after r' := by
  obtain ⟨_ | ⟨f, fs⟩, c, failure⟩ := r
  · exact absurd rfl hr
  have hatop : atop after ⟨f :: fs, c, failure⟩ =
      ⟨f :: (fs ++ remaining failure after), c, failure⟩ := rfl
  rw [hatop, moves_cons_iff]
  constructor
  · rintro ⟨u, h, rfl⟩
    exact ⟨_, moves_of_served h, (atop_run after fs u).symm⟩
  · rintro ⟨r', h, rfl⟩
    obtain ⟨u, h', rfl⟩ := moves_cons_iff.mp h
    exact ⟨u, h', atop_run after fs u⟩

theorem Path.atop (after : List Frame) (h : Path settings r hs r') :
    Path settings (atop after r) hs (atop after r') := by
  induction h with
  | refl => exact .refl _
  | step hm _ ih => exact .step ((moves_atop_iff after hm.control_ne_nil).mpr ⟨_, hm, rfl⟩) ih

/-- A path of work with other work below it stays within the upper work, or finishes it and goes on
below. -/
theorem path_atop_iff {after : List Frame} :
    Path settings (atop after r) hs r'' ↔
      (∃ r', Path settings r hs r' ∧ r'' = atop after r') ∨
      ∃ hs₁ c o hs₂, Path settings r hs₁ ⟨[], c, o⟩ ∧
        Path settings (atop after ⟨[], c, o⟩) hs₂ r'' ∧ hs = hs₁ ++ hs₂ := by
  constructor
  · generalize hq : atop after r = q
    intro h
    induction h generalizing r with
    | refl => exact Or.inl ⟨r, .refl r, hq.symm⟩
    | @step _ q' _ hs₁ hs₂ hm hp ih =>
      subst hq
      by_cases hr : r.control = []
      · obtain ⟨_, c, o⟩ := r
        obtain rfl : _ = [] := hr
        exact Or.inr ⟨[], c, o, _, .refl _, .step hm hp, rfl⟩
      · obtain ⟨r', hm', rfl⟩ := (moves_atop_iff after hr).mp hm
        rcases ih rfl with ⟨r'', hp', rfl⟩ | ⟨hs₁, c, o, hs₂, hp₁, hp₂, rfl⟩
        · exact Or.inl ⟨r'', .step hm' hp', rfl⟩
        · exact Or.inr ⟨_, c, o, hs₂, .step hm' hp₁, hp₂, (List.append_assoc ..).symm⟩
  · rintro (⟨r', hp, rfl⟩ | ⟨hs₁, c, o, hs₂, hp₁, hp₂, rfl⟩)
    · exact hp.atop after
    · exact (hp₁.atop after).trans hp₂

/-- A run comes to its end on a context, with a failure or none. -/
def Ends (settings : Settings) (r : Run) (hs : History) (d : Context) (failure : Option Fault) : Prop :=
  Path settings r hs ⟨[], d, failure⟩

theorem ends_nil_iff {d : Context} {e : Option Fault} :
    Ends settings ⟨[], c, failure⟩ hs d e ↔ hs = [] ∧ d = c ∧ e = failure := by
  simp [Ends, path_nil_iff]

theorem ends_done : Ends settings ⟨[], c, failure⟩ [] c failure := ends_nil_iff.mpr ⟨rfl, rfl, rfl⟩

theorem ends_atop_iff (after : List Frame) {d : Context} {e : Option Fault} :
    Ends settings (atop after r) hs d e ↔
      ∃ hs₁ c' e' hs₂, Ends settings r hs₁ c' e' ∧ Ends settings (atop after ⟨[], c', e'⟩) hs₂ d e ∧
        hs = hs₁ ++ hs₂ := by
  refine path_atop_iff.trans ⟨?_, Or.inr⟩
  rintro (⟨⟨fs, c', e'⟩, hp, hr⟩ | h)
  · -- The upper work is all that there is.
    simp only [atop, Run.mk.injEq] at hr
    obtain ⟨hfs, rfl, rfl⟩ := hr
    obtain ⟨rfl, hrest⟩ := List.append_eq_nil_iff.mp hfs.symm
    have hatop : atop after ⟨[], d, e⟩ = ⟨[], d, e⟩ := by simp [atop, hrest]
    exact ⟨hs, d, e, [], hp, hatop.symm ▸ .refl _, (List.append_nil hs).symm⟩
  · exact h

theorem ends_cons_iff {f : Frame} {after : List Frame} {d : Context} {e : Option Fault} :
    Ends settings ⟨f :: after, c, failure⟩ hs d e ↔
      ∃ hs₁ u hs₂, f.Served settings c failure hs₁ u ∧ Ends settings (u.run c failure after) hs₂ d e ∧
        hs = hs₁ ++ hs₂ := by
  refine path_iff.trans ⟨?_, ?_⟩
  · rintro (⟨-, h⟩ | ⟨hs₁, r', hs₂, hm, hp, rfl⟩)
    · cases h
    · obtain ⟨u, hu, rfl⟩ := moves_cons_iff.mp hm
      exact ⟨hs₁, u, hs₂, hu, hp, rfl⟩
  · rintro ⟨hs₁, u, hs₂, hu, hp, rfl⟩
    exact Or.inr ⟨hs₁, _, hs₂, moves_of_served hu, hp, rfl⟩

theorem Path.served {f : Frame} {after : List Frame} {u : Upshot}
    (h : f.Served settings c failure hs u) (h' : Path settings (u.run c failure after) hs' r) :
    Path settings ⟨f :: after, c, failure⟩ (hs ++ hs') r := .step (moves_of_served h) h'

theorem Ends.served {f : Frame} {after : List Frame} {u : Upshot} {d : Context} {e : Option Fault}
    (h : f.Served settings c failure hs u) (h' : Ends settings (u.run c failure after) hs' d e) :
    Ends settings ⟨f :: after, c, failure⟩ (hs ++ hs') d e := Path.served h h'

end Run

/-- What is shown by a frame that only reports. -/
def Frame.report? : Frame → Option Happening
  | .emit e => some (.emitted .engine e)
  | .note line => some (.noted line)
  | _ => none

theorem Frame.served_report_iff {settings : Settings} {c : Context} {failure : Option Fault} {f : Frame}
    {hs : History} {u : Upshot} {a : Happening} (ha : f.report? = some a) :
    f.Served settings c failure hs u ↔ hs = [a] ∧ u = .went [] c := by
  constructor
  · intro h
    cases h <;> cases ha <;> exact ⟨rfl, rfl⟩
  · rintro ⟨rfl, rfl⟩
    cases f with
    | emit e =>
      cases ha
      exact .emit e
    | note line =>
      cases ha
      exact .note line
    | _ => cases ha

namespace Run

variable {settings : Settings} {hs : History} {c d : Context} {failure e : Option Fault}

theorem mem_settledFrames {s : Settlement} {f : Frame} (hf : f ∈ settledFrames c s) :
    (∃ line, f = .note line) ∨ ∃ ev, ev ≠ .started ∧ f = .emit ev := by
  rw [settledFrames] at hf
  cases hr : s.reply with
  | ok id =>
    simp only [hr, List.mem_cons, List.not_mem_nil, or_false] at hf
    rcases hf with rfl | rfl | rfl
    · exact Or.inl ⟨_, rfl⟩
    · exact Or.inr ⟨_, Event.noConfusion, rfl⟩
    · exact Or.inr ⟨_, Event.noConfusion, rfl⟩
  | error g =>
    simp only [hr, List.mem_cons, List.not_mem_nil, or_false] at hf
    rcases hf with rfl | rfl
    · exact Or.inl ⟨_, rfl⟩
    · exact Or.inr ⟨_, Event.noConfusion, rfl⟩

theorem forall_settledFrames {P : Frame → Prop} (hnote : ∀ line, P (.note line))
    (hemit : ∀ ev, P (.emit ev)) (s : Settlement) : ∀ f ∈ settledFrames c s, P f := by
  intro f hf
  rcases mem_settledFrames hf with ⟨line, rfl⟩ | ⟨ev, -, rfl⟩
  · exact hnote line
  · exact hemit ev

theorem settledFrames_report (s : Settlement) : ∀ f ∈ settledFrames c s, f.report?.isSome :=
  forall_settledFrames (fun _ => rfl) (fun _ => rfl) s

theorem ends_reports_iff (fs : List Frame) {after : List Frame} (hfs : ∀ f ∈ fs, f.report?.isSome) :
    Ends settings ⟨fs ++ after, c, failure⟩ hs d e ↔
      ∃ hs', Ends settings ⟨after, c, failure⟩ hs' d e ∧ hs = fs.filterMap Frame.report? ++ hs' := by
  induction fs generalizing hs with
  | nil => simp
  | cons f fs ih =>
    obtain ⟨hf, hfs⟩ := List.forall_mem_cons.mp hfs
    obtain ⟨a, ha⟩ := Option.isSome_iff_exists.mp hf
    rw [List.cons_append, ends_cons_iff, List.filterMap_cons_some ha]
    constructor
    · rintro ⟨hs₁, u, hs₂, hu, hr, rfl⟩
      obtain ⟨rfl, rfl⟩ := (Frame.served_report_iff ha).mp hu
      obtain ⟨hs', hr', rfl⟩ := (ih hfs).mp hr
      exact ⟨hs', hr', rfl⟩
    · rintro ⟨hs', hr', rfl⟩
      exact ⟨[a], _, _, (Frame.served_report_iff ha).mpr ⟨rfl, rfl⟩, (ih hfs).mpr ⟨hs', hr', rfl⟩, rfl⟩

end Run
end Engine
end TopicLoad
