import TopicLoad.Proofs.Serving

/-! What a publish step does before it sends anything. All of its templates are rendered before the first
call is made. Without a template, without copies, with a rendering that fails, in a dry run and without a
topic it stops short: it has then asked for the renderings it needed and has done nothing else. -/
namespace TopicLoad
namespace Engine

/-! ## Templates first -/

namespace Frame

/-- Work on messages that may not all be rendered yet. -/
def IsDraft : Frame → Prop
  | .task (.publish _) | .render _ _ _ _ | .fail _ => True
  | _ => False

def IsPost : Frame → Prop
  | .send _ _ _ _ _ | .emit _ | .note _ => True
  | _ => False

end Frame
namespace Run

/-- Work on messages of which none has been sent; what may have to be rendered comes last. -/
inductive Drafts : List Frame → Prop where
  | nil : Drafts []
  | note (line : Log.Line) {fs : List Frame} (h : Drafts fs) : Drafts (.note line :: fs)
  | last {f : Frame} (h : f.IsDraft) : Drafts [f]

variable {settings : Settings} {c : Context} {failure : Option Fault} {r r' q : Run} {f : Frame}
  {hs : History} {u : Upshot}

theorem drafts_served (hf : f.IsDraft) (h : f.Served settings c failure hs u) :
    hs.filterMap Happening.call? = [] ∧
      (Drafts (u.run c failure []).control ∨ ∀ g ∈ (u.run c failure []).control, g.IsPost) := by
  cases h with
  | untemplated | topicless | fail => exact ⟨rfl, Or.inl .nil⟩
  | copyless | dry => exact ⟨rfl, Or.inl .nil⟩
  | publish => exact ⟨rfl, Or.inl (.last trivial)⟩
  | rendered | unrendered => exact ⟨rfl, Or.inl (.note _ (.last trivial))⟩
  | dispatch => exact ⟨rfl, Or.inr (List.forall_mem_singleton.mpr trivial)⟩
  | _ => exact hf.elim

theorem Drafts.moves (hr : Drafts r.control) (hm : Moves settings r hs r') :
    hs.filterMap Happening.call? = [] ∧ (Drafts r'.control ∨ ∀ f ∈ r'.control, f.IsPost) := by
  obtain ⟨fs, c, failure⟩ := r
  cases hr with
  | nil => exact absurd hm not_moves_nil
  | note line hfs =>
    obtain ⟨rfl, rfl⟩ := hm
    exact ⟨rfl, Or.inl hfs⟩
  | last hf =>
    obtain ⟨u, hu, rfl⟩ := moves_cons_iff.mp hm
    exact drafts_served hf hu

theorem posts_served (hf : f.IsPost) (h : f.Served settings c failure hs u) :
    (∀ g ∈ (u.run c failure []).control, g.IsPost) ∧ ∀ a ∈ hs, a.render? = none := by
  cases h with
  | emit | note => exact ⟨List.forall_mem_nil _, List.forall_mem_singleton.mpr rfl⟩
  | delivered | undelivered => exact ⟨List.forall_mem_nil _, List.forall_mem_nil _⟩
  | sent => exact ⟨List.forall_mem_singleton.mpr trivial, List.forall_mem_singleton.mpr rfl⟩
  | sentAtOnce | settled =>
    refine ⟨?_, List.forall_mem_singleton.mpr rfl⟩
    simp only [Upshot.run, List.append_nil]
    exact List.forall_mem_append.mpr
      ⟨forall_settledFrames (fun _ => trivial) (fun _ => trivial) _,
        List.forall_mem_singleton.mpr trivial⟩
  | _ => exact hf.elim

theorem posts_moves (hr : ∀ f ∈ r.control, f.IsPost) (hm : Moves settings r hs r') :
    (∀ f ∈ r'.control, f.IsPost) ∧ ∀ a ∈ hs, a.render? = none :=
  hm.forall_control hr posts_served

theorem Drafts.path (hr : Drafts r.control) (h : Path settings r hs q) :
    ∃ front back, hs = front ++ back ∧ front.filterMap Happening.call? = [] ∧
      back.filterMap Happening.render? = [] := by
  induction h with
  | refl => exact ⟨[], [], rfl, rfl, rfl⟩
  | @step _ _ _ hs hs' hm hp ih =>
    obtain ⟨hcalls, hnext | hnext⟩ := hr.moves hm
    · obtain ⟨front, back, rfl, hfront, hback⟩ := ih hnext
      refine ⟨hs ++ front, back, (List.append_assoc ..).symm, ?_, hback⟩
      rw [List.filterMap_append, hcalls, hfront, List.append_nil]
    · obtain ⟨-, hrenders⟩ := hp.shows (fun hm hr => posts_moves hr hm) hnext
      exact ⟨hs, hs', rfl, hcalls, List.filterMap_eq_nil_iff.mpr hrenders⟩

/-! ## Stopping short -/

variable {after : List Frame} {e : Option Fault} {told told' asked : List (Except Fault Json)}

/-- A run that has been told what comes of its renderings stops when it has asked for some of them. It
ends with a failure or none, and whatever it may have shown by then, it has made no call, emitted no event
and kept its context. -/
structure StopsShort (settings : Settings) (r : Run) (told asked : List (Except Fault Json))
    (e : Option Fault) : Prop where
  ends : ∃ hs, Ends settings r hs r.context e ∧ hs.filterMap Happening.render? = asked
  only : ∀ hs q, Path settings r hs q → hs.filterMap Happening.render? <+: told →
    hs.filterMap Happening.render? <+: asked ∧ hs.filterMap Happening.call? = [] ∧
      hs.filterMap Happening.event? = [] ∧ q.context = r.context ∧
      (q.control = [] → hs.filterMap Happening.render? = asked ∧ q.failure = e)

theorem stopsShort_nil (told : List (Except Fault Json)) : StopsShort settings ⟨[], c, e⟩ told [] e := by
  refine ⟨⟨[], .refl _, rfl⟩, fun hs q h _ => ?_⟩
  obtain ⟨rfl, rfl⟩ := path_nil_iff.mp h
  exact ⟨List.nil_prefix, rfl, rfl, rfl, fun _ => ⟨rfl, rfl⟩⟩

/-- What can be served in only one way, with what is told, and shows neither a call nor an event, comes
before what stops short. -/
theorem StopsShort.served (hu : f.Served settings c none hs u)
    (honly : ∀ hs' u', f.Served settings c none hs' u' →
      hs'.filterMap Happening.render? <+: told → hs' = hs ∧ u' = u)
    (htold : told = hs.filterMap Happening.render? ++ told')
    (hcalls : hs.filterMap Happening.call? = []) (hevents : hs.filterMap Happening.event? = [])
    (hcontext : (u.run c none after).context = c)
    (hrest : StopsShort settings (u.run c none after) told' asked e) :
    StopsShort settings ⟨f :: after, c, none⟩ told (hs.filterMap Happening.render? ++ asked) e := by
  obtain ⟨⟨hs₁, hends, hasked⟩, hrest⟩ := hrest
  rw [hcontext] at hends hrest
  refine ⟨⟨hs ++ hs₁, .served hu hends, by rw [List.filterMap_append, hasked]⟩, fun hs' q h hsame => ?_⟩
  rcases path_iff.mp h with ⟨rfl, rfl⟩ | ⟨hs₁, r', hs₂, hm, hp, rfl⟩
  · exact ⟨List.nil_prefix, rfl, rfl, rfl, fun hq => absurd hq (List.cons_ne_nil f after)⟩
  · obtain ⟨u', hu', rfl⟩ := moves_cons_iff.mp hm
    rw [List.filterMap_append] at hsame
    obtain ⟨rfl, rfl⟩ := honly hs₁ u' hu' ((List.prefix_append _ _).trans hsame)
    rw [htold, List.prefix_append_right_inj] at hsame
    obtain ⟨hfront, hcalls', hevents', hcontext', hended⟩ := hrest hs₂ q hp hsame
    simp only [List.filterMap_append, hcalls, hevents, List.nil_append, List.prefix_append_right_inj,
      List.append_cancel_left_eq]
    exact ⟨hfront, hcalls', hevents', hcontext', hended⟩

theorem stopsShort_failed {g : Fault} (hu : f.Served settings c none [] (.failed g))
    (honly : ∀ hs u, f.Served settings c none hs u → hs = [] ∧ u = .failed g) :
    StopsShort settings ⟨[f], c, none⟩ told [] (some g) :=
  .served hu (fun hs u hu' _ => honly hs u hu') rfl rfl rfl rfl (stopsShort_nil told)

theorem StopsShort.note (line : Log.Line) (h : StopsShort settings ⟨after, c, none⟩ told asked e) :
    StopsShort settings ⟨.note line :: after, c, none⟩ told asked e := by
  refine .served (.note line) (fun hs u hu _ => ?_) rfl rfl rfl rfl h
  cases hu
  exact ⟨rfl, rfl⟩

section

variable {template : Json} {attributes : Keyed String} {left : Nat}

theorem stopsShort_rendered {ready : List (List UInt8)} (v : Json)
    (h : StopsShort settings ⟨[.render template attributes left (ready ++ [payload v])], c, none⟩ told
      asked e) :
    StopsShort settings ⟨[.render template attributes (left + 1) ready], c, none⟩ (.ok v :: told)
      (.ok v :: asked) e := by
  refine .served (.rendered template attributes left ready v) (fun hs u hu hsame => ?_) rfl rfl rfl rfl
    (h.note _)
  cases hu with
  | rendered _ _ _ _ w =>
    obtain rfl : w = v := by simpa [Happening.render?] using hsame
    exact ⟨rfl, rfl⟩
  | unrendered _ _ _ _ g => simp [Happening.render?] at hsame

theorem stopsShort_rendering (values : List Json)
    (h : ∀ ready, StopsShort settings ⟨[.render template attributes left ready], c, none⟩ told asked e)
    (ready : List (List UInt8)) :
    StopsShort settings ⟨[.render template attributes (left + values.length) ready], c, none⟩
      (values.map .ok ++ told) (values.map .ok ++ asked) e := by
  induction values generalizing ready with
  | nil => exact h ready
  | cons v values ih => exact stopsShort_rendered v (ih (ready ++ [payload v]))

theorem stopsShort_unrendered (ready : List (List UInt8)) (g : Fault) :
    StopsShort settings ⟨[.render template attributes (left + 1) ready], c, none⟩ (.error g :: told)
      [.error g] (some g) := by
  have hfail : StopsShort settings ⟨[.fail g], c, none⟩ told [] (some g) := by
    refine stopsShort_failed (.fail g) fun hs u hu => ?_
    cases hu
    exact ⟨rfl, rfl⟩
  refine .served (.unrendered template attributes left ready g) (fun hs u hu hsame => ?_) rfl rfl rfl
    rfl (hfail.note _)
  cases hu with
  | rendered _ _ _ _ w => simp [Happening.render?] at hsame
  | unrendered _ _ _ _ g' =>
    obtain rfl : g' = g := by simpa [Happening.render?] using hsame
    exact ⟨rfl, rfl⟩

theorem stopsShort_dry (hd : settings.dryRun = true) (ready : List (List UInt8)) :
    StopsShort settings ⟨[.render template attributes 0 ready], c, none⟩ told [] none := by
  refine .served (.dry template attributes ready hd) (fun hs u hu _ => ?_) rfl rfl rfl rfl
    (stopsShort_nil told)
  cases hu with
  | dry => exact ⟨rfl, rfl⟩
  | topicless _ _ _ hd' | dispatch _ _ _ hd' => rw [hd] at hd'; cases hd'

theorem stopsShort_topicless (hd : settings.dryRun = false) (hp : c.publisher = none)
    (ready : List (List UInt8)) :
    StopsShort settings ⟨[.render template attributes 0 ready], c, none⟩ told [] (some .noPublisher) := by
  refine stopsShort_failed (.topicless template attributes ready hd hp) fun hs u hu => ?_
  cases hu with
  | topicless => exact ⟨rfl, rfl⟩
  | dry _ _ _ hd' => rw [hd] at hd'; cases hd'
  | dispatch _ _ _ _ hp' => rw [hp] at hp'; cases hp'

end

variable {spec : MessageSpec} {template : Json}

theorem stopsShort_untemplated (hj : spec.json = none) :
    StopsShort settings (ofTask (.publish spec) c) told [] (some .missingTemplate) := by
  refine stopsShort_failed (.untemplated hj) fun hs u hu => ?_
  cases hu with
  | untemplated => exact ⟨rfl, rfl⟩
  | copyless hj' | publish hj' => rw [hj] at hj'; cases hj'

theorem stopsShort_copyless (hj : spec.json = some template) (hn : spec.copies ≤ 0) :
    StopsShort settings (ofTask (.publish spec) c) told [] none := by
  refine .served (.copyless hj hn) (fun hs u hu _ => ?_) rfl rfl rfl rfl (stopsShort_nil told)
  cases hu with
  | untemplated hj' => rw [hj] at hj'; cases hj'
  | copyless => exact ⟨rfl, rfl⟩
  | publish _ hn' => omega

theorem stopsShort_publish (hj : spec.json = some template) (hn : 0 < spec.copies)
    (h : StopsShort settings
      ⟨[.render template (spec.attributes.getD []) spec.copies.toNat []], c, none⟩ told asked e) :
    StopsShort settings (ofTask (.publish spec) c) told asked e := by
  refine .served (.publish hj hn) (fun hs u hu _ => ?_) rfl rfl rfl rfl h
  cases hu with
  | untemplated hj' => rw [hj] at hj'; cases hj'
  | copyless _ hn' => omega
  | publish hj' =>
    obtain rfl : template = _ := Option.some.inj (hj.symm.trans hj')
    exact ⟨rfl, rfl⟩

theorem stopsShort_ready (hj : spec.json = some template) (hn : 0 < spec.copies) (values : List Json)
    (hvalues : values.length = spec.copies.toNat)
    (h : ∀ ready, StopsShort settings
      ⟨[.render template (spec.attributes.getD []) 0 ready], c, none⟩ told [] e) :
    StopsShort settings (ofTask (.publish spec) c) (values.map .ok ++ told) (values.map .ok) e := by
  refine stopsShort_publish hj hn ?_
  have hrendering := stopsShort_rendering values h []
  rw [Nat.zero_add, hvalues, List.append_nil] at hrendering
  exact hrendering

/-- However its templates are rendered, a publish step renders all of them before it makes its first call;
and it stops short, having done nothing else than to ask for renderings, if it has no template, if it makes
no copies, with the first rendering that fails, in a dry run, and without a topic, the earlier of these
before the later. -/
theorem publish_stops_before_sending (settings : Settings) (spec : MessageSpec) (c : Context) :
    (∀ hs q, Path settings (ofTask (.publish spec) c) hs q → ∃ front back, hs = front ++ back ∧
      front.filterMap Happening.call? = [] ∧ back.filterMap Happening.render? = []) ∧
    (spec.json = none → ∀ told,
      StopsShort settings (ofTask (.publish spec) c) told [] (some .missingTemplate)) ∧
    ∀ template, spec.json = some template →
      (spec.copies ≤ 0 → ∀ told, StopsShort settings (ofTask (.publish spec) c) told [] none) ∧
      (0 < spec.copies → ∀ (values : List Json) told,
        (values.length < spec.copies.toNat → ∀ f, StopsShort settings (ofTask (.publish spec) c)
          (values.map .ok ++ .error f :: told) (values.map .ok ++ [.error f]) (some f)) ∧
        (values.length = spec.copies.toNat → settings.dryRun = true →
          StopsShort settings (ofTask (.publish spec) c) (values.map .ok ++ told) (values.map .ok)
            none) ∧
        (values.length = spec.copies.toNat → settings.dryRun = false → c.publisher = none →
          StopsShort settings (ofTask (.publish spec) c) (values.map .ok ++ told) (values.map .ok)
            (some .noPublisher))) := by
  refine ⟨fun hs q h => ?_, fun hj told => stopsShort_untemplated hj, fun template hj => ?_⟩
  · have hdrafts : Drafts (ofTask (.publish spec) c).control := .last trivial
    exact hdrafts.path h
  refine ⟨fun hn told => stopsShort_copyless hj hn, fun hn values told => ⟨fun hvalues f => ?_, ?_, ?_⟩⟩
  · refine stopsShort_publish hj hn ?_
    have hcopies : spec.copies.toNat = spec.copies.toNat - values.length - 1 + 1 + values.length := by
      omega
    rw [hcopies]
    exact stopsShort_rendering values (fun ready => stopsShort_unrendered ready f) []
  · intro hvalues hd
    exact stopsShort_ready hj hn values hvalues (stopsShort_dry hd)
  · intro hvalues hd hp
    exact stopsShort_ready hj hn values hvalues (stopsShort_topicless hd hp)

/-- The second of three renderings fails, in a dry run without a topic; there is no topic after two
renderings; there is no template, and fewer than no copies are wanted. -/
theorem publish_stops_at_second_rendering :
    let c : Context := ⟨.ofRandom 0, .ofList [], 0, none, .running⟩
    StopsShort ⟨none, "project", "topic", true⟩ (ofTask (.publish ⟨some .null, some 3, none⟩) c)
      [.ok .null, .error (.template "unknown"), .ok .null]
      [.ok .null, .error (.template "unknown")] (some (.template "unknown")) ∧
    StopsShort ⟨none, "project", "topic", false⟩ (ofTask (.publish ⟨some .null, some 2, none⟩) c)
      [.ok .null, .ok (.bool true), .error (.template "unknown")] [.ok .null, .ok (.bool true)]
      (some .noPublisher) ∧
    StopsShort ⟨none, "project", "topic", false⟩ (ofTask (.publish ⟨none, some (-1), none⟩) c) []
      [] (some .missingTemplate) := by
  intro c
  obtain ⟨-, -, hdry⟩ := publish_stops_before_sending ⟨none, "project", "topic", true⟩
    ⟨some .null, some 3, none⟩ c
  obtain ⟨-, -, hlive⟩ := publish_stops_before_sending ⟨none, "project", "topic", false⟩
    ⟨some .null, some 2, none⟩ c
  obtain ⟨-, hnone, -⟩ := publish_stops_before_sending ⟨none, "project", "topic", false⟩
    ⟨none, some (-1), none⟩ c
  obtain ⟨hfailed, -, -⟩ := (hdry .null rfl).2 (by decide) [.null] [.ok .null]
  obtain ⟨-, -, htopicless⟩ := (hlive .null rfl).2 (by decide) [.null, .bool true]
    [.error (.template "unknown")]
  exact ⟨hfailed (by decide) (.template "unknown"), htopicless rfl rfl rfl, hnone rfl []⟩

end Run
end Engine
end TopicLoad
