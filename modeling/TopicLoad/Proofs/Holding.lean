import TopicLoad.Proofs.Course
import TopicLoad.Proofs.Fanout
import TopicLoad.Proofs.Preparation

/-! Which handle a run holds. Acquiring the topic gives it one, and from then on only functions put another
in its place. As long as none of them takes it away, the engine never fails for want of a topic; and once
it has been taken away, every publish step that gets as far fails so. -/
namespace TopicLoad
namespace Engine

/-! ## Handles that are handed over -/

/-- What a deed that changes the context puts in place of the handle, or nothing in its place. -/
def Deed.handle? : Deed → Option (Option Handle)
  | .become d => some d.publisher
  | _ => none

namespace Happening

def handed : Happening → List (Option Handle)
  | called _ _ (some ds) => ds.filterMap Deed.handle?
  | _ => []

/-- A function that was called leaves the run without a handle. -/
def Clears (a : Happening) : Prop := a.handed.getLast? = some none

/-- The failure that someone who was asked answers with. -/
def refusal? : Happening → Option Fault
  | acquired _ _ (.error f) | rendered _ _ (.error f) => some f
  | published _ _ _ (some s) | settled _ s => s.failure?
  | _ => none

/-- No function leaves the run without a handle, and no one says that there is none. -/
def Harmless (a : Happening) : Prop := ¬ a.Clears ∧ a.refusal? ≠ some .noPublisher

end Happening
namespace Frame

variable {settings : Settings} {c : Context} {failure : Option Fault} {f : Frame} {hs : History}

def handing : Frame → List (Option Handle)
  | .deeds ds => ds.filterMap Deed.handle?
  | _ => []

theorem handing_settledFrames (s : Settlement) : ∀ f ∈ Run.settledFrames c s, f.handing = [] :=
  Run.forall_settledFrames (fun _ => rfl) (fun _ => rfl) s

theorem Served.handing {fs : List Frame} {d : Context} (h : f.Served settings c failure hs (.went fs d)) :
    (∃ ds, fs = [.deeds ds]) ∨ ∀ g ∈ fs, g.handing = [] := by
  cases h with
  | called | became | emitted | paused | inspected => exact Or.inl ⟨_, rfl⟩
  | turn body =>
    refine Or.inr (List.forall_mem_append.mpr ⟨fun g hg => ?_, by simp [Frame.handing]⟩)
    obtain ⟨t, -, rfl⟩ := List.mem_map.mp hg
    rfl
  | sentAtOnce | settled =>
    exact Or.inr (List.forall_mem_append.mpr ⟨handing_settledFrames _, by simp [Frame.handing]⟩)
  | _ => exact Or.inr (by simp [Frame.handing])

theorem Served.survived {fs : List Frame} {d : Context} (hf : f.survives = true)
    (h : f.Served settings c failure hs (.went fs d)) : fs = [] := by
  cases h with
  | rebind | completed | broken => rfl
  | _ => cases hf

end Frame
namespace Run

variable {settings : Settings} {r r' q : Run} {hs : History} {c : Context} {failure : Option Fault}

def handing (r : Run) : List (Option Handle) := r.control.flatMap Frame.handing

/-- A run that has acquired its topic. A function is at work only in the first frame, and what is left
after a failure survives it. -/
structure Orderly (r : Run) : Prop where
  inner : ∀ f ∈ r.control, f.IsInner
  alone : ∀ f ∈ r.control.tail, f.handing = []
  left : r.failure = none ∨ ∀ f ∈ r.control, f.survives = true

theorem Orderly.moves (hr : Orderly r) (hm : Moves settings r hs r') : Orderly r' := by
  obtain ⟨hinner, halone, hleft⟩ := hr
  refine ⟨(shows_inner hm hinner).1, ?_, ?_⟩
  all_goals
    obtain ⟨_ | ⟨f, after⟩, c, failure⟩ := r
    · exact absurd hm not_moves_nil
    obtain ⟨u, hu, rfl⟩ := moves_cons_iff.mp hm
  · cases u with
    | failed g => exact fun f hf => halone f (List.mem_filter.mp (List.mem_of_mem_tail hf)).1
    | went fs d =>
      rcases hu.handing with ⟨ds, rfl⟩ | hfs
      · exact halone
      · exact fun g hg => List.forall_mem_append.mpr ⟨hfs, halone⟩ g (List.mem_of_mem_tail hg)
  · cases u with
    | failed g => exact Or.inr fun f hf => (List.mem_filter.mp hf).2
    | went fs d =>
      refine hleft.imp_right fun hsurvive => ?_
      obtain ⟨hf, hafter⟩ := List.forall_mem_cons.mp hsurvive
      obtain rfl := hu.survived hf
      exact hafter

theorem publisher_of_served {f : Frame} {u : Upshot} (hf : f.IsInner)
    (h : f.Served settings c failure hs u) : ∃ past,
      c.publisher :: (f.handing ++ hs.flatMap Happening.handed) =
        past ++ (u.run c failure []).context.publisher :: (u.run c failure []).handing := by
  cases h with
  | acquired => exact hf.elim
  | became d ds => exact ⟨[c.publisher], by simp [Upshot.run, handing, Frame.handing, Deed.handle?]⟩
  | emitted | paused | inspected => exact ⟨[], rfl⟩
  | turn body =>
    refine ⟨[], ?_⟩
    simp [Upshot.run, handing, Frame.handing, Context.setVar, List.flatMap_map]
  | sentAtOnce | settled =>
    refine ⟨[], ?_⟩
    simp [Upshot.run, handing, Frame.handing, Happening.handed,
      List.flatMap_eq_nil_iff.mpr (Frame.handing_settledFrames _)]
  | _ =>
    refine ⟨[], ?_⟩
    simp [Upshot.run, handing, Frame.handing, Happening.handed, Context.setVar]

/-- The handles that the context has had and is to have, in order: those that were there, and those that
functions have handed over since. -/
theorem Orderly.publisher (hr : Orderly r) (hm : Moves settings r hs r') : ∃ past,
    r.context.publisher :: (r.handing ++ hs.flatMap Happening.handed) =
      past ++ r'.context.publisher :: r'.handing := by
  obtain ⟨_ | ⟨f, after⟩, c, failure⟩ := r
  · exact absurd hm not_moves_nil
  obtain ⟨u, hu, rfl⟩ := moves_cons_iff.mp hm
  obtain ⟨past, hpast⟩ := publisher_of_served (hr.inner f List.mem_cons_self) hu
  have hafter : after.flatMap Frame.handing = [] := List.flatMap_eq_nil_iff.mpr hr.alone
  have hfiltered : (after.filter Frame.survives).flatMap Frame.handing = [] :=
    List.flatMap_eq_nil_iff.mpr fun g hg => hr.alone g (List.mem_filter.mp hg).1
  refine ⟨past, ?_⟩
  cases u <;> simpa [handing, Upshot.run, hafter, hfiltered] using hpast

theorem Orderly.path (hr : Orderly r) (h : Path settings r hs q) : Orderly q ∧ ∃ past,
    r.context.publisher :: (r.handing ++ hs.flatMap Happening.handed) =
      past ++ q.context.publisher :: q.handing := by
  induction h with
  | refl r => exact ⟨hr, [], by simp⟩
  | @step r r' q hs hs' hm _ ih =>
    obtain ⟨past, hpast⟩ := hr.publisher hm
    obtain ⟨hq, past', hpast'⟩ := ih (hr.moves hm)
    refine ⟨hq, past ++ past', ?_⟩
    calc r.context.publisher :: (r.handing ++ (hs ++ hs').flatMap Happening.handed)
        = (r.context.publisher :: (r.handing ++ hs.flatMap Happening.handed)) ++
            hs'.flatMap Happening.handed := by simp
      _ = past ++ r'.context.publisher :: (r'.handing ++ hs'.flatMap Happening.handed) := by
        rw [hpast, List.append_assoc, List.cons_append]
      _ = past ++ past' ++ q.context.publisher :: q.handing := by rw [hpast', List.append_assoc]

theorem getLast?_handed (h : (hs.flatMap Happening.handed).getLast? = some none) :
    ∃ a ∈ hs, a.Clears := by
  rw [List.getLast?_flatMap] at h
  obtain ⟨a, ha, hlast⟩ := List.exists_of_findSome?_eq_some h
  exact ⟨a, List.mem_reverse.mp ha, hlast⟩

end Run

/-! ## Failing for want of a topic -/

/-- The failure that a frame brings about or has in store. -/
def Frame.blame? : Frame → Option Fault
  | .fail f => some f
  | .send _ _ _ _ kept => kept
  | _ => none

namespace Run

variable {settings : Settings} {r r' q : Run} {hs : History} {c : Context} {failure : Option Fault}

/-- A run that keeps a handle, and that neither has failed for want of one nor is about to. -/
structure Supplied (r : Run) : Prop extends Orderly r where
  handle : (r.context.publisher :: r.handing).getLast? ≠ some none
  blame : ∀ f ∈ r.control, f.blame? ≠ some .noPublisher
  failure : r.failure ≠ some .noPublisher

theorem firstFailure_ne {kept : Option Fault} {s : Settlement} {f : Fault} (hkept : kept ≠ some f)
    (hs : s.failure? ≠ some f) : firstFailure kept s ≠ some f := by
  rw [firstFailure_eq_or]
  cases kept <;> assumption

/-- A frame that is served with a handle fails for want of one only if someone who was asked says so. -/
theorem blame_of_served {f : Frame} {u : Upshot} (h : f.Served settings c failure hs u)
    (hf : f.blame? ≠ some .noPublisher) (hhs : ∀ a ∈ hs, a.Harmless)
    (hp : f.handing = [] → c.publisher ≠ none) (hfailure : failure ≠ some .noPublisher) :
    (∀ g ∈ (u.run c failure []).control, g.blame? ≠ some .noPublisher) ∧
      (u.run c failure []).failure ≠ some .noPublisher := by
  cases h with
  | unacquired place g =>
    exact ⟨List.forall_mem_nil _, (hhs _ List.mem_cons_self).2⟩
  | untemplated => exact ⟨List.forall_mem_nil _, by simp [Upshot.run]⟩
  | topicless _ _ _ _ hnone => exact absurd hnone (hp rfl)
  | undelivered _ _ g => exact ⟨List.forall_mem_nil _, hf⟩
  | fail g => exact ⟨List.forall_mem_nil _, hf⟩
  | unrendered _ _ _ _ g =>
    refine ⟨?_, hfailure⟩
    have hg : some g ≠ some Fault.noPublisher := (hhs _ List.mem_cons_self).2
    simpa [Upshot.run, Frame.blame?] using hg
  | sent =>
    refine ⟨?_, hfailure⟩
    simpa [Upshot.run, Frame.blame?] using hf
  | sentAtOnce _ _ _ _ _ kept s | settled _ _ kept _ s =>
    refine ⟨?_, hfailure⟩
    have hs : s.failure? ≠ some .noPublisher := (hhs _ List.mem_cons_self).2
    simp only [Upshot.run, List.append_nil]
    refine List.forall_mem_append.mpr ⟨?_, List.forall_mem_singleton.mpr ?_⟩
    · exact forall_settledFrames (by simp [Frame.blame?]) (by simp [Frame.blame?]) s
    · exact firstFailure_ne hf hs
  | turn body =>
    refine ⟨?_, hfailure⟩
    simp only [Upshot.run, List.append_nil]
    refine List.forall_mem_append.mpr ⟨List.forall_mem_map.mpr fun t _ => ?_, ?_⟩ <;>
      simp [Frame.blame?]
  | _ =>
    refine ⟨?_, hfailure⟩
    simp [Upshot.run, Frame.blame?]

theorem Supplied.moves (hr : Supplied r) (hm : Moves settings r hs r')
    (hhs : ∀ a ∈ hs, a.Harmless) : Supplied r' := by
  have horderly := hr.toOrderly.moves hm
  have hhandle : (r'.context.publisher :: r'.handing).getLast? ≠ some none := by
    intro hlast
    obtain ⟨past, hpast⟩ := hr.publisher hm
    have hboth := congrArg List.getLast? hpast
    rw [← List.cons_append, List.getLast?_append, List.getLast?_append, hlast, Option.some_or,
      Option.or_eq_some_iff] at hboth
    -- What is last was handed over by a function in this move, or was last before it.
    rcases hboth with hcleared | ⟨-, hwithout⟩
    · obtain ⟨a, ha, hclears⟩ := getLast?_handed hcleared
      exact (hhs a ha).1 hclears
    · exact hr.handle hwithout
  obtain ⟨_ | ⟨f, after⟩, c, failure⟩ := r
  · exact absurd hm not_moves_nil
  obtain ⟨hf, hafter⟩ := List.forall_mem_cons.mp hr.blame
  obtain ⟨u, hu, rfl⟩ := moves_cons_iff.mp hm
  have hp : f.handing = [] → c.publisher ≠ none := by
    intro hnone hp
    have hhanding : Run.handing ⟨f :: after, c, failure⟩ = [] :=
      List.flatMap_eq_nil_iff.mpr (List.forall_mem_cons.mpr ⟨hnone, hr.alone⟩)
    exact hr.handle (by simp [hhanding, hp])
  obtain ⟨hblame, hfailure⟩ := blame_of_served hu hf hhs hp hr.failure
  refine ⟨horderly, hhandle, Upshot.forall_run hblame hafter, ?_⟩
  cases u <;> exact hfailure

theorem Supplied.path (hr : Supplied r) (h : Path settings r hs q) (hhs : ∀ a ∈ hs, a.Harmless) :
    Supplied q := h.keeps (fun hm ha hr => hr.moves hm ha) hhs hr

/-! ## Runs of a scenario -/

variable {name : String} {tasks : List Task}

def acquired (name : String) (tasks : List Task) (topic : Handle) (c : Context) : Run :=
  ⟨tasks.map .task ++ [.conclude name], { c with state := .running, publisher := some topic }, none⟩

theorem orderly_acquired (topic : Handle) : Orderly (acquired name tasks topic c) := by
  have hinner : ∀ f ∈ tasks.map Frame.task ++ [Frame.conclude name], f.IsInner ∧ f.handing = [] :=
    List.forall_mem_append.mpr ⟨List.forall_mem_map.mpr fun _ _ => ⟨trivial, rfl⟩,
      List.forall_mem_singleton.mpr ⟨trivial, rfl⟩⟩
  exact ⟨fun f hf => (hinner f hf).1, fun f hf => (hinner f (List.mem_of_mem_tail hf)).2, Or.inl rfl⟩

theorem handing_acquired (topic : Handle) : (acquired name tasks topic c).handing = [] := by
  simp [acquired, handing, Frame.handing, List.flatMap_map]

theorem supplied_acquired (topic : Handle) : Supplied (acquired name tasks topic c) := by
  refine ⟨orderly_acquired topic, ?_, ?_, by simp [acquired]⟩
  · rw [handing_acquired]
    simp [acquired]
  · exact List.forall_mem_append.mpr ⟨List.forall_mem_map.mpr fun _ _ => by simp [Frame.blame?],
      List.forall_mem_singleton.mpr (by simp [Frame.blame?])⟩

theorem path_conclude {f : Fault} (h : Path settings ⟨[.conclude name], c, some f⟩ hs q) :
    q.failure = some f ∧ ∀ a ∈ hs, ∃ line, a = .noted line := by
  rcases path_iff.mp h with ⟨rfl, rfl⟩ | ⟨_, _, _, ⟨rfl, rfl⟩, hp, rfl⟩
  · exact ⟨rfl, List.forall_mem_nil _⟩
  · obtain ⟨rfl, rfl⟩ := path_nil_iff.mp hp
    exact ⟨rfl, List.forall_mem_singleton.mpr ⟨_, rfl⟩⟩

/-- A run in which no topic has been acquired has called no function, and has failed only if it was
refused the topic. Every other run goes on from the opening. -/
theorem path_ofScenario (h : Path settings (ofScenario settings name tasks c) hs q) :
    (hs.flatMap Happening.handed = [] ∧
      (∀ place batching topic, .acquired place batching (.ok topic) ∉ hs) ∧
      (∀ f, q.failure = some f → ∃ a ∈ hs, a.refusal? = some f)) ∨
    ∃ topic hs', hs = opening settings (.ok topic) ++ hs' ∧
      Path settings (acquired name tasks topic c) hs' q := by
  rcases path_iff.mp h with ⟨rfl, rfl⟩ | ⟨_, _, _, ⟨rfl, rfl⟩, h₁, rfl⟩
  · exact Or.inl ⟨rfl, by simp, fun _ hf => nomatch hf⟩
  rcases path_iff.mp h₁ with ⟨rfl, rfl⟩ | ⟨_, _, _, ⟨rfl, rfl⟩, h₂, rfl⟩
  · exact Or.inl ⟨rfl, by simp, fun _ hf => nomatch hf⟩
  rcases path_iff.mp h₂ with ⟨rfl, rfl⟩ | ⟨_, _, _, ⟨rfl, rfl⟩, h₃, rfl⟩
  · exact Or.inl ⟨rfl, by simp, fun _ hf => nomatch hf⟩
  rcases path_iff.mp h₃ with ⟨rfl, rfl⟩ | ⟨_, _, _, ⟨f | _, rfl, rfl⟩, h₄, rfl⟩
  · exact Or.inl ⟨rfl, by simp, fun _ hf => nomatch hf⟩
  · have hleft : Path settings ⟨(tasks.map Frame.task ++ [Frame.conclude name]).filter Frame.survives,
        { c with state := .running }, some f⟩ _ q := h₄
    rw [List.filter_append, filter_survives_tasks] at hleft
    obtain ⟨hfailure, hnotes⟩ := path_conclude hleft
    refine Or.inl ⟨?_, ?_, ?_⟩
    · rw [List.flatMap_eq_nil_iff]
      simp only [List.mem_append, List.mem_cons, List.not_mem_nil, or_false]
      rintro a (rfl | rfl | rfl | ha)
      any_goals rfl
      obtain ⟨line, rfl⟩ := hnotes a ha
      rfl
    · intro place batching topic hmem
      simp at hmem
      obtain ⟨line, hline⟩ := hnotes _ hmem
      cases hline
    · intro g hg
      obtain rfl : f = g := Option.some.inj (hfailure.symm.trans hg)
      exact ⟨.acquired ⟨settings.project, settings.topic⟩ {} (.error f), by simp, rfl⟩
  · exact Or.inr ⟨_, _, rfl, h₄⟩

/-- A run of a scenario holds the handle that it acquired, or the one that a function has put in its place.
It does not fail for want of a handle unless a function leaves it without one, or someone who was asked
answers so; and as long as a function has left it without one, every publish step that renders all of its
messages and is to send them fails so, without a call and without an event. -/
theorem run_holds_acquired_handle (settings : Settings) (name : String) (tasks : List Task) (c : Context)
    (hs : History) (q : Run) (h : Path settings (ofScenario settings name tasks c) hs q) :
    ((∀ a ∈ hs, ¬ a.Clears) → q.failure = some .noPublisher →
      ∃ a ∈ hs, a.refusal? = some .noPublisher) ∧
    (∀ place batching topic, .acquired place batching (.ok topic) ∈ hs →
      ∃ past, some topic :: hs.flatMap Happening.handed = past ++ q.context.publisher :: q.handing) ∧
    (settings.dryRun = false → (hs.flatMap Happening.handed).getLast? = some none →
      ∀ spec after template, q.control = .task (.publish spec) :: after →
      spec.json = some template → 0 < spec.copies →
      ∀ (values : List Json) told, values.length = spec.copies.toNat →
        q = atop after (ofTask (.publish spec) q.context) ∧
        StopsShort settings (ofTask (.publish spec) q.context) (values.map .ok ++ told)
          (values.map .ok) (some .noPublisher)) := by
  rcases path_ofScenario h with ⟨hhanded, hunacquired, hrefused⟩ | ⟨topic, hs', rfl, hp⟩
  · refine ⟨fun _ => hrefused _, fun place batching topic hmem => ?_, fun _ hlast => ?_⟩
    · exact absurd hmem (hunacquired place batching topic)
    · rw [hhanded] at hlast
      cases hlast
  -- The topic was acquired: what has been handed over since then, and is still to be, leads to the handle.
  obtain ⟨horderly, past, hpast⟩ := (orderly_acquired topic).path hp
  have hhanded : (opening settings (.ok topic) ++ hs').flatMap Happening.handed =
      hs'.flatMap Happening.handed := rfl
  rw [handing_acquired, List.nil_append] at hpast
  rw [hhanded]
  refine ⟨fun hkept hfailure => ?_, fun place batching topic' hmem => ?_, ?_⟩
  · by_cases hrefused : ∃ a ∈ hs', a.refusal? = some .noPublisher
    · obtain ⟨a, ha, hrefusal⟩ := hrefused
      exact ⟨a, List.mem_append_right _ ha, hrefusal⟩
    · have hsupplied : Supplied q := (supplied_acquired topic).path hp fun a ha =>
        ⟨hkept a (List.mem_append_right _ ha), fun hrefusal => hrefused ⟨a, ha, hrefusal⟩⟩
      exact absurd hfailure hsupplied.failure
  · obtain rfl : topic' = topic := by
      rcases List.mem_append.mp hmem with hmem | hmem
      · obtain ⟨-, -, hsame⟩ : place = ⟨settings.project, settings.topic⟩ ∧ batching = {} ∧
            topic' = topic := by simpa [opening] using hmem
        exact hsame
      · have hinner := (hp.shows shows_inner (orderly_acquired topic).inner).2 _ hmem
        cases hinner.2
    exact ⟨past, hpast⟩
  · intro hd hlast spec after template hcontrol hj hn values told hvalues
    have hnone : q.failure = none := by
      refine horderly.left.resolve_right fun hsurvive => ?_
      cases hsurvive (.task (.publish spec)) (hcontrol ▸ List.mem_cons_self)
    have hhanding : q.handing = [] := by
      have halone := horderly.alone
      rw [hcontrol] at halone
      rw [handing, hcontrol]
      exact List.flatMap_eq_nil_iff.mpr (List.forall_mem_cons.mpr ⟨rfl, halone⟩)
    have hpublisher : q.context.publisher = none := by
      have hlasts := congrArg List.getLast? hpast
      rw [hhanding, List.getLast?_concat, List.getLast?_cons, hlast] at hlasts
      exact (Option.some.inj hlasts).symm
    obtain ⟨control, d, failure⟩ := q
    obtain rfl : control = _ := hcontrol
    obtain rfl : failure = none := hnone
    exact ⟨rfl, stopsShort_ready hj hn values hvalues (stopsShort_topicless hd hpublisher)⟩

/-- A function takes the handle away before a publish step. The one that the context came in with is not
used either. In another run no function does so, but whoever is asked for the topic has none. -/
theorem cleared_handle_fails_publish :
    let settings : Settings := ⟨none, "project", "topic", false⟩
    let spec : MessageSpec := ⟨some .null, some 1, none⟩
    let tasks : List Task := [.call "drop", .publish spec]
    let c : Context := ⟨.ofRandom 0, .ofList [], 0, some ⟨"other", {}⟩, .notStarted⟩
    let d : Context := ⟨.ofRandom 0, .ofList [], 0, none, .running⟩
    ∃ hs hs', Path settings (ofScenario settings "name" tasks c) hs
        ⟨[.task (.publish spec), .conclude "name"], d, none⟩ ∧
      (∃ past, some ⟨"address", {}⟩ :: hs.flatMap Happening.handed = past ++ [none]) ∧
      StopsShort settings (ofTask (.publish spec) d) [.ok .null] [.ok .null] (some .noPublisher) ∧
      Ends settings (ofScenario settings "name" tasks c) hs' { c with state := .failed }
        (some .noPublisher) ∧
      (∀ a ∈ hs', ¬ a.Clears) ∧ ∃ a ∈ hs', a.refusal? = some .noPublisher := by
  intro settings spec tasks c d
  obtain ⟨hs, hpath, hacquired, hcleared⟩ : ∃ hs, Path settings (ofScenario settings "name" tasks c) hs
        ⟨[.task (.publish spec), .conclude "name"], d, none⟩ ∧
      .acquired ⟨"project", "topic"⟩ {} (.ok ⟨"address", {}⟩) ∈ hs ∧
      (hs.flatMap Happening.handed).getLast? = some none :=
    ⟨_, .served (.emit .started) <| .served .enter <| .served (.note _) <|
      .served (.acquired _ ⟨"address", {}⟩) <| .served (.called "drop" [.become d]) <|
      .served (.became d []) <| .served .finished <| .refl _, by simp [settings], rfl⟩
  obtain ⟨hs', hend, hkept⟩ : ∃ hs', Ends settings (ofScenario settings "name" tasks c) hs'
      { c with state := .failed } (some .noPublisher) ∧ ∀ a ∈ hs', ¬ a.Clears :=
    ⟨_, .served (.emit .started) <| .served .enter <| .served (.note _) <|
      .served (.unacquired _ .noPublisher) <| .served (.broken "name" rfl) <|
      ends_nil_iff.mpr ⟨rfl, rfl, rfl⟩, by simp [Happening.Clears, Happening.handed]⟩
  obtain ⟨-, hholds, hfails⟩ := run_holds_acquired_handle settings "name" tasks c hs _ hpath
  obtain ⟨-, hstops⟩ := hfails rfl hcleared spec _ .null rfl rfl (by decide) [.null] [] rfl
  obtain ⟨hblames, -, -⟩ := run_holds_acquired_handle settings "name" tasks c hs' _ hend
  exact ⟨hs, hs', hpath, hholds _ _ _ hacquired, hstops, hend, hkept, hblames hkept rfl⟩

/-- A run fails for want of a handle though no function has taken one away, since whoever was asked for the
topic has none. And what a function has taken away, acquiring the topic gives back, whereupon a message
goes out. -/
theorem handle_missed_and_regained_without_function :
    let settings : Settings := ⟨none, "project", "topic", false⟩
    let spec : MessageSpec := ⟨some .null, some 1, none⟩
    let c : Context := ⟨.ofRandom 0, .ofList [], 0, none, .notStarted⟩
    let topic : Handle := ⟨"address", {}⟩
    let supplied : Context := { c with publisher := some topic }
    (∃ hs, Ends settings (ofScenario settings "name" [] c) hs { c with state := .failed }
        (some .noPublisher) ∧ hs.flatMap Happening.handed = []) ∧
      ∃ hs₁ hs₂ hs₃, Ends settings (ofTask (.call "drop") supplied) hs₁ c none ∧
        hs₁.flatMap Happening.handed = [none] ∧
        Ends settings (ofSetup settings c) hs₂ supplied none ∧ hs₂.flatMap Happening.handed = [] ∧
        Ends settings (ofTask (.publish spec) supplied) hs₃ supplied none ∧
        hs₃.filterMap Happening.call? = [(topic, 0, ⟨payload .null, []⟩)] := by
  intro settings spec c topic supplied
  obtain ⟨hs, hrefused, hnone⟩ : ∃ hs, Ends settings (ofScenario settings "name" [] c) hs
      { c with state := .failed } (some .noPublisher) ∧ hs.flatMap Happening.handed = [] :=
    ⟨_, .served (.emit .started) <| .served .enter <| .served (.note _) <|
      .served (.unacquired _ .noPublisher) <| .served (.broken "name" rfl) <|
      ends_nil_iff.mpr ⟨rfl, rfl, rfl⟩, rfl⟩
  obtain ⟨hs₁, hdropped, hcleared⟩ : ∃ hs, Ends settings (ofTask (.call "drop") supplied) hs c none ∧
      hs.flatMap Happening.handed = [none] :=
    ⟨_, .served (.called "drop" [.become c]) <| .served (.became c []) <| .served .finished <|
      ends_nil_iff.mpr ⟨rfl, rfl, rfl⟩, rfl⟩
  obtain ⟨hs₂, hacquired, hnone₂⟩ : ∃ hs, Ends settings (ofSetup settings c) hs supplied none ∧
      hs.flatMap Happening.handed = [] :=
    ⟨_, .served (.note _) <| .served (.acquired _ topic) <| ends_nil_iff.mpr ⟨rfl, rfl, rfl⟩, rfl⟩
  obtain ⟨hs₃, hpublished, hcall⟩ : ∃ hs, Ends settings (ofTask (.publish spec) supplied) hs supplied none ∧
      hs.filterMap Happening.call? = [(topic, 0, ⟨payload .null, []⟩)] :=
    ⟨_, .served (.publish rfl (by decide)) <| .served (.rendered _ _ 0 _ .null) <| .served (.note _) <|
      .served (.dispatch _ _ _ rfl rfl) <| .served (.sentAtOnce _ _ _ _ _ _ ⟨.ok "id", 0⟩) <|
      .served (.note _) <| .served (.emit _) <| .served (.emit _) <| .served (.delivered _ _) <|
      ends_nil_iff.mpr ⟨rfl, rfl, rfl⟩, rfl⟩
  exact ⟨⟨hs, hrefused, hnone⟩, hs₁, hs₂, hs₃, hdropped, hcleared, hacquired, hnone₂, hpublished, hcall⟩

end Run
end Engine
end TopicLoad
