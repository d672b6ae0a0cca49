import TopicLoad.Proofs.Serving

/-! What one publish step does with its messages. Every message is handed over in order; calls may settle
at once or, once all have been made, in any order; each is accounted for, and the failure that settles
first is the failure of the step. -/
namespace TopicLoad
namespace Engine

/-- The events that account for a settlement: a message that was published, with its latency, or an
error. -/
def accounting (c : Context) (s : Settlement) : List Event :=
  match s.reply with
  | .ok _ =>
    [ .counter messagesPublished 1,
      .histogram publishLatency (.ofFloat (c.elapsed s.time).toMilliseconds) ]
  | .error _ => [.counter publishErrors 1]

namespace Run

variable {settings : Settings} {c d : Context} {hs : History} {failure e : Option Fault}

def settling (c : Context) (s : Settlement) : History := (settledFrames c s).filterMap Frame.report?

theorem firstFailure_eq_or (kept : Option Fault) (s : Settlement) :
    firstFailure kept s = kept.or s.failure? := by
  cases hr : s.reply <;> cases kept <;> simp [firstFailure, Settlement.failure?, hr]

theorem filterMap_settling {α : Type} (pick : Happening → Option α)
    (hnote : ∀ line, pick (.noted line) = none) (hemit : ∀ origin ev, pick (.emitted origin ev) = none)
    (a : Happening) (s : Settlement) (hs : History) :
    (a :: (settling c s ++ hs)).filterMap pick = (pick a).toList ++ hs.filterMap pick := by
  have hnone : (settling c s).filterMap pick = [] := by
    rw [settling, settledFrames]
    cases s.reply <;> simp [Frame.report?, hnote, hemit]
  cases ha : pick a <;> simp [ha, hnone]

theorem events_settling {a : Happening} (ha : a.event? = none) (s : Settlement) (hs : History) :
    (a :: (settling c s ++ hs)).filterMap Happening.event? =
      accounting c s ++ hs.filterMap Happening.event? := by
  have hevents : (settling c s).filterMap Happening.event? = accounting c s := by
    rw [settling, settledFrames, accounting]
    cases s.reply <;> rfl
  rw [List.filterMap_cons_none ha, List.filterMap_append, hevents]

/-- What has been shown when all of a queue has been handed over and all calls have settled. -/
structure Sent (topic : Handle) (c : Context) (queue : List Outgoing) (number : Nat)
    (inFlight : List Nat) (kept : Option Fault) (hs : History) (d : Context) (e : Option Fault) :
    Prop where
  renders : hs.filterMap Happening.render? = []
  calls : hs.filterMap Happening.call? = (queue.zipIdx number).map fun m => (topic, m.2, m.1)
  settled : ((hs.filterMap Happening.settlement?).map Prod.fst).Perm
    (inFlight ++ List.range' number queue.length)
  events : hs.filterMap Happening.event? =
    (hs.filterMap Happening.settlement?).flatMap fun s => accounting c s.2
  failure : e = kept.or ((hs.filterMap Happening.settlement?).findSome? fun s => s.2.failure?)
  context : d = c

variable {topic : Handle} {queue : List Outgoing} {number : Nat} {inFlight : List Nat}
  {kept : Option Fault}

theorem ends_settledFrames {s : Settlement} (after : List Frame)
    (h : Ends settings ⟨settledFrames c s ++ after, c, failure⟩ hs d e) :
    ∃ hs', Ends settings ⟨after, c, failure⟩ hs' d e ∧ hs = settling c s ++ hs' :=
  (ends_reports_iff _ (settledFrames_report s)).mp h

theorem ends_settling {after : List Frame} (s : Settlement)
    (h : Ends settings ⟨after, c, failure⟩ hs d e) :
    Ends settings ((Upshot.went (settledFrames c s ++ after) c).run c failure []) (settling c s ++ hs) d
      e := by
  have hreported : Ends settings ⟨settledFrames c s ++ after, c, failure⟩ (settling c s ++ hs) d e :=
    (ends_reports_iff _ (settledFrames_report s)).mpr ⟨hs, h, rfl⟩
  simpa only [Upshot.run, List.append_nil] using hreported

theorem Sent.settlement {a : Happening} {n : Nat} {s : Settlement} (ha : a.settlement? = some (n, s))
    (h : Sent topic c queue number inFlight (firstFailure kept s) hs d e) :
    let hs' := a :: (settling c s ++ hs)
    hs'.filterMap Happening.event? =
        (hs'.filterMap Happening.settlement?).flatMap (fun s => accounting c s.2) ∧
      e = kept.or ((hs'.filterMap Happening.settlement?).findSome? fun s => s.2.failure?) := by
  have hevent : a.event? = none := by
    cases a <;> first | rfl | cases ha
  have hsettlements := filterMap_settling (c := c) Happening.settlement?
    (fun _ => rfl) (fun _ _ => rfl) a s hs
  rw [ha] at hsettlements
  refine ⟨?_, ?_⟩
  · rw [hsettlements, events_settling hevent, h.events]
    rfl
  · rw [hsettlements, h.failure, firstFailure_eq_or, Option.or_assoc]
    cases hf : s.failure? <;> simp [hf]

theorem ends_await (h : Ends settings ⟨[.send topic [] number inFlight kept], c, none⟩ hs d e) :
    Sent topic c [] number inFlight kept hs d e := by
  induction hn : inFlight.length generalizing inFlight kept hs with
  | zero =>
    obtain rfl := List.length_eq_zero_iff.mp hn
    obtain ⟨hs₁, u, hs₂, hu, hr, rfl⟩ := ends_cons_iff.mp h
    cases hu with
    | settled _ _ _ hmem => cases hmem
    | delivered =>
      obtain ⟨rfl, rfl, rfl⟩ := ends_nil_iff.mp hr
      exact ⟨rfl, rfl, .rfl, rfl, rfl, rfl⟩
    | undelivered _ _ f =>
      obtain ⟨rfl, rfl, rfl⟩ := ends_nil_iff.mp hr
      exact ⟨rfl, rfl, .rfl, rfl, rfl, rfl⟩
  | succ n ih =>
    obtain ⟨hs₁, u, hs₂, hu, hr, rfl⟩ := ends_cons_iff.mp h
    cases hu with
    | delivered | undelivered => cases hn
    | @settled _ _ _ _ j hmem s =>
      obtain ⟨hs', hr', rfl⟩ := ends_settledFrames [_] (by simpa [Upshot.run] using hr)
      have hlen : (inFlight.erase j).length = n := by rw [List.length_erase_of_mem hmem]; omega
      have hrest := ih hr' hlen
      obtain ⟨hevents, hfailure⟩ := hrest.settlement (a := .settled j s) rfl
      have hperm : (j :: (hs'.filterMap Happening.settlement?).map Prod.fst).Perm inFlight := by
        have htail := hrest.settled.cons j
        rw [List.length_nil, List.range'_zero, List.append_nil] at htail
        exact htail.trans (List.perm_cons_erase hmem).symm
      refine ⟨?_, ?_, ?_, hevents, hfailure, hrest.context⟩
      · exact (filterMap_settling _ (fun _ => rfl) (fun _ _ => rfl) _ s hs').trans hrest.renders
      · exact (filterMap_settling _ (fun _ => rfl) (fun _ _ => rfl) _ s hs').trans hrest.calls
      · have hsettlements := filterMap_settling (c := c) Happening.settlement?
          (fun _ => rfl) (fun _ _ => rfl) (.settled j s) s hs'
        rw [List.singleton_append, hsettlements, List.length_nil, List.range'_zero, List.append_nil]
        exact hperm

/-- Handing a queue over, and waiting for what did not settle at once. By induction on the queue; the
calls in flight and the failure that is kept grow as messages are handed over. -/
theorem ends_send (h : Ends settings ⟨[.send topic queue number inFlight kept], c, none⟩ hs d e) :
    Sent topic c queue number inFlight kept hs d e := by
  induction queue generalizing number inFlight kept hs with
  | nil => exact ends_await h
  | cons m queue ih =>
    obtain ⟨hs₁, u, hs₂, hu, hr, rfl⟩ := ends_cons_iff.mp h
    cases hu with
    | sent =>
      have hrest := ih hr
      refine ⟨hrest.renders, congrArg (_ :: ·) hrest.calls, ?_, hrest.events, hrest.failure,
        hrest.context⟩
      have hsettled := hrest.settled
      rw [List.append_assoc, List.singleton_append, ← List.range'_succ] at hsettled
      exact hsettled
    | sentAtOnce _ _ _ _ _ _ s =>
      obtain ⟨hs', hr', rfl⟩ := ends_settledFrames [_] (by simpa [Upshot.run] using hr)
      have hrest := ih hr'
      obtain ⟨hevents, hfailure⟩ := hrest.settlement (a := .published topic number m (some s)) rfl
      refine ⟨?_, ?_, ?_, hevents, hfailure, hrest.context⟩
      · exact (filterMap_settling _ (fun _ => rfl) (fun _ _ => rfl) _ s hs').trans hrest.renders
      · exact (filterMap_settling _ (fun _ => rfl) (fun _ _ => rfl) _ s hs').trans
          (congrArg (_ :: ·) hrest.calls)
      · have hsettlements := filterMap_settling (c := c) Happening.settlement?
          (fun _ => rfl) (fun _ _ => rfl) (.published topic number m (some s)) s hs'
        rw [List.singleton_append, hsettlements, List.length_cons, List.range'_succ]
        exact (hrest.settled.cons number).trans List.perm_middle.symm

def unsettled : Nat → List (Option Settlement) → List Nat
  | _, [] => []
  | number, none :: starts => number :: unsettled (number + 1) starts
  | number, some _ :: starts => unsettled (number + 1) starts

def atOnce : Nat → List (Option Settlement) → List (Nat × Settlement)
  | _, [] => []
  | number, none :: starts => atOnce (number + 1) starts
  | number, some s :: starts => (number, s) :: atOnce (number + 1) starts

/-- A run in which a history can be seen whose calls settle as said. -/
def Follows (settings : Settings) (r : Run) (starts : List (Option Settlement))
    (order : List (Nat × Settlement)) : Prop :=
  ∃ hs e, Ends settings r hs r.context e ∧ hs.filterMap Happening.render? = [] ∧
    hs.filterMap Happening.start? = starts ∧ hs.filterMap Happening.settlement? = order

theorem follows_await {order : List (Nat × Settlement)} (h : (order.map Prod.fst).Perm inFlight) :
    Follows settings ⟨[.send topic [] number inFlight kept], c, none⟩ [] order := by
  induction order generalizing inFlight kept with
  | nil =>
    obtain rfl := List.nil_perm.mp h
    cases kept with
    | none => exact ⟨_, _, .served (.delivered topic number) ends_done, rfl, rfl, rfl⟩
    | some f => exact ⟨_, _, .served (.undelivered topic number f) ends_done, rfl, rfl, rfl⟩
  | cons x order ih =>
    obtain ⟨n, s⟩ := x
    have hmem : n ∈ inFlight := h.subset List.mem_cons_self
    have hrest : (order.map Prod.fst).Perm (inFlight.erase n) :=
      List.Perm.cons_inv (h.trans (List.perm_cons_erase hmem))
    obtain ⟨hs, e, hends, hrenders, hstarts, horder⟩ : Follows settings
        ⟨[.send topic [] number (inFlight.erase n) (firstFailure kept s)], c, none⟩ [] order := ih hrest
    refine ⟨_, e, .served (.settled topic number kept hmem s) (ends_settling s hends), ?_, ?_, ?_⟩
    · exact (filterMap_settling _ (fun _ => rfl) (fun _ _ => rfl) _ s hs).trans hrenders
    · exact (filterMap_settling _ (fun _ => rfl) (fun _ _ => rfl) _ s hs).trans hstarts
    · exact (filterMap_settling _ (fun _ => rfl) (fun _ _ => rfl) _ s hs).trans
        (congrArg (_ :: ·) horder)

theorem follows_send {starts : List (Option Settlement)} {order : List (Nat × Settlement)}
    (hlength : starts.length = queue.length)
    (h : (order.map Prod.fst).Perm (inFlight ++ unsettled number starts)) :
    Follows settings ⟨[.send topic queue number inFlight kept], c, none⟩ starts
      (atOnce number starts ++ order) := by
  induction queue generalizing number inFlight kept starts with
  | nil =>
    obtain rfl := List.length_eq_zero_iff.mp hlength
    exact follows_await (by simpa [unsettled, atOnce] using h)
  | cons m queue ih =>
    obtain _ | ⟨s, starts⟩ := starts
    · cases hlength
    have hlength' : starts.length = queue.length := Nat.succ.inj hlength
    cases s with
    | none =>
      have hperm : (order.map Prod.fst).Perm
          (inFlight ++ [number] ++ unsettled (number + 1) starts) := by
        simpa [unsettled] using h
      obtain ⟨hs, e, hends, hrenders, hstarts, horder⟩ : Follows settings
          ⟨[.send topic queue (number + 1) (inFlight ++ [number]) kept], c, none⟩ starts
          (atOnce (number + 1) starts ++ order) :=
        ih hlength' hperm
      exact ⟨_, e, .served (.sent topic m queue number inFlight kept) hends, hrenders,
        congrArg (_ :: ·) hstarts, horder⟩
    | some s =>
      obtain ⟨hs, e, hends, hrenders, hstarts, horder⟩ : Follows settings
          ⟨[.send topic queue (number + 1) inFlight (firstFailure kept s)], c, none⟩ starts
          (atOnce (number + 1) starts ++ order) :=
        ih hlength' h
      refine ⟨_, e, .served (.sentAtOnce topic m queue number inFlight kept s) (ends_settling s hends),
        ?_, ?_, ?_⟩
      · exact (filterMap_settling _ (fun _ => rfl) (fun _ _ => rfl) _ s hs).trans hrenders
      · exact (filterMap_settling _ (fun _ => rfl) (fun _ _ => rfl) _ s hs).trans
          (congrArg (_ :: ·) hstarts)
      · exact (filterMap_settling _ (fun _ => rfl) (fun _ _ => rfl) _ s hs).trans
          (congrArg (_ :: ·) horder)

def rendering (settings : Settings) (template : Json) (c : Context) (values : List Json) : History :=
  values.flatMap fun v => [ .rendered template c.vars.bindings (.ok v),
    .noted (Log.debug s!"Publishing message to topic ({settings.topic}): {v.text}") ]

theorem renders_rendering {template : Json} (values : List Json) (hs : History) :
    (rendering settings template c values ++ hs).filterMap Happening.render? =
      values.map .ok ++ hs.filterMap Happening.render? := by
  induction values with
  | nil => rfl
  | cons v values ih => exact congrArg (.ok v :: ·) ih

theorem filterMap_rendering {α : Type} {pick : Happening → Option α} {template : Json}
    (hnote : ∀ line, pick (.noted line) = none)
    (hrender : ∀ v, pick (.rendered template c.vars.bindings (.ok v)) = none) (values : List Json)
    (hs : History) :
    (rendering settings template c values ++ hs).filterMap pick = hs.filterMap pick := by
  have hnone : (rendering settings template c values).filterMap pick = [] := by
    refine List.filterMap_eq_nil_iff.mpr fun a ha => ?_
    obtain ⟨v, -, ha⟩ := List.mem_flatMap.mp ha
    simp only [List.mem_cons, List.not_mem_nil, or_false] at ha
    rcases ha with rfl | rfl
    · exact hrender v
    · exact hnote _
  rw [List.filterMap_append, hnone, List.nil_append]

section

variable {template : Json} {attributes : Keyed String} {left : Nat} {ready : List (List UInt8)}

theorem ends_render (hd : settings.dryRun = false) (hp : c.publisher = some topic) {values : List Json}
    (h : Ends settings ⟨[.render template attributes left ready], c, none⟩ hs d e)
    (hok : hs.filterMap Happening.render? = values.map .ok) :
    values.length = left ∧ ∃ hs', hs = rendering settings template c values ++ hs' ∧
      Ends settings ⟨[.send topic ((ready ++ values.map payload).map fun data => ⟨data, attributes⟩)
        0 [] none], c, none⟩ hs' d e := by
  induction left generalizing ready hs values with
  | zero =>
    obtain ⟨hs₁, u, hs₂, hu, hr, rfl⟩ := ends_cons_iff.mp h
    cases hu with
    | dry _ _ _ hd' => rw [hd] at hd'; cases hd'
    | topicless _ _ _ _ hp' => rw [hp] at hp'; cases hp'
    | dispatch _ _ _ _ hp' =>
      obtain rfl : topic = _ := Option.some.inj (hp.symm.trans hp')
      obtain rfl : values = [] := List.map_eq_nil_iff.mp (hok.symm.trans (ends_send hr).renders)
      exact ⟨rfl, hs₂, rfl, by simpa [Upshot.run] using hr⟩
  | succ left ih =>
    obtain ⟨hs₁, u, hs₂, hu, hr, rfl⟩ := ends_cons_iff.mp h
    obtain _ | ⟨v, values⟩ := values
    · cases hu with
      | unrendered | rendered => cases hok
    cases hu with
    | unrendered _ _ _ _ f => cases hok
    | rendered _ _ _ _ w =>
      obtain ⟨hs₃, hr', rfl⟩ := (ends_reports_iff [.note _] (by simp [Frame.report?])).mp hr
      obtain ⟨hw, hok'⟩ := List.cons.inj hok
      obtain rfl : w = v := Except.ok.inj hw
      obtain ⟨rfl, hs', rfl, hr''⟩ := ih hr' hok'
      refine ⟨rfl, hs', rfl, ?_⟩
      simpa using hr''

theorem Ends.rendered (hd : settings.dryRun = false) (hp : c.publisher = some topic)
    {values : List Json} (hvalues : values.length = left)
    (h : Ends settings ⟨[.send topic ((ready ++ values.map payload).map fun data => ⟨data, attributes⟩)
      0 [] none], c, none⟩ hs d e) :
    Ends settings ⟨[.render template attributes left ready], c, none⟩
      (rendering settings template c values ++ hs) d e := by
  induction values generalizing left ready with
  | nil =>
    subst hvalues
    exact .served (.dispatch template attributes ready hd hp) (by simpa [Upshot.run] using h)
  | cons v values ih =>
    subst hvalues
    have hready : ready ++ (v :: values).map payload = ready ++ [payload v] ++ values.map payload := by
      simp
    rw [hready] at h
    have hreport := (ends_reports_iff [.note (Log.debug
      s!"Publishing message to topic ({settings.topic}): {v.text}")] (by simp [Frame.report?])).mpr
      ⟨_, ih rfl h, rfl⟩
    have hends := Ends.served (.rendered template attributes values.length ready v) hreport
    exact hends

end

variable {spec : MessageSpec} {template : Json}

theorem ends_publish_iff (hj : spec.json = some template) (hn : 0 < spec.copies) :
    Ends settings (ofTask (.publish spec) c) hs d e ↔
      Ends settings ⟨[.render template (spec.attributes.getD []) spec.copies.toNat []], c, none⟩
        hs d e := by
  constructor
  · intro h
    obtain ⟨hs₁, u, hs₂, hu, hr, rfl⟩ := ends_cons_iff.mp h
    cases hu with
    | untemplated hj' => rw [hj] at hj'; cases hj'
    | copyless _ hn' => omega
    | publish hj' =>
      obtain rfl : template = _ := Option.some.inj (hj.symm.trans hj')
      exact hr
  · intro h
    exact .served (.publish hj hn) h

/-- What has been shown when a publish step has ended: one call for each rendered message, in order; a
settlement of each call, in any order; the events that account for each settlement. The step fails with
the failure that settled first. -/
structure FannedOut (spec : MessageSpec) (topic : Handle) (c : Context) (values : List Json)
    (hs : History) (d : Context) (e : Option Fault) : Prop where
  rendered : values.length = spec.copies.toNat
  called : hs.filterMap Happening.call? =
    values.mapIdx fun k v => (topic, k, ⟨payload v, spec.attributes.getD []⟩)
  settled : ((hs.filterMap Happening.settlement?).map Prod.fst).Perm (List.range spec.copies.toNat)
  accounted : hs.filterMap Happening.event? =
    (hs.filterMap Happening.settlement?).flatMap fun s => accounting c s.2
  failed : e = (hs.filterMap Happening.settlement?).findSome? fun s => s.2.failure?
  succeeded : e = none ↔ ∀ s ∈ hs.filterMap Happening.settlement?, s.2.failure? = none
  kept : d = c

/-- However the calls of a publish step settle and in whatever order, all of them are accounted for. -/
theorem publish_accounts_for_every_call (settings : Settings) (spec : MessageSpec) (c : Context)
    (template : Json) (topic : Handle) (hj : spec.json = some template) (hn : 0 < spec.copies)
    (hd : settings.dryRun = false) (hp : c.publisher = some topic) (values : List Json) :
    (∀ hs d e, Ends settings (ofTask (.publish spec) c) hs d e →
      hs.filterMap Happening.render? = values.map .ok → FannedOut spec topic c values hs d e) ∧
    ∀ (starts : List (Option Settlement)) (order : List (Nat × Settlement)),
      values.length = spec.copies.toNat → starts.length = spec.copies.toNat →
      (order.map Prod.fst).Perm (unsettled 0 starts) →
      ∃ hs e, Ends settings (ofTask (.publish spec) c) hs c e ∧
        hs.filterMap Happening.render? = values.map .ok ∧
        hs.filterMap Happening.start? = starts ∧
        hs.filterMap Happening.settlement? = atOnce 0 starts ++ order := by
  constructor
  · intro hs d e h hok
    obtain ⟨hvalues, hs', rfl, hsend⟩ := ends_render hd hp ((ends_publish_iff hj hn).mp h) hok
    have hsent := ends_send hsend
    have hsettlements : (rendering settings template c values ++ hs').filterMap Happening.settlement? =
        hs'.filterMap Happening.settlement? :=
      filterMap_rendering (fun _ => rfl) (fun _ => rfl) values hs'
    have hfailed : e = (hs'.filterMap Happening.settlement?).findSome? fun s => s.2.failure? :=
      hsent.failure
    refine ⟨hvalues, ?_, ?_, ?_, ?_, ?_, hsent.context⟩
    · rw [filterMap_rendering (fun _ => rfl) (fun _ => rfl), hsent.calls, List.mapIdx_eq_zipIdx_map]
      simp [List.zipIdx_map, Function.comp_def]
    · rw [hsettlements]
      simpa [hvalues, List.range_eq_range'] using hsent.settled
    · rw [hsettlements, filterMap_rendering (fun _ => rfl) (fun _ => rfl), hsent.events]
    · rw [hsettlements, hfailed]
    · rw [hsettlements, hfailed, List.findSome?_eq_none_iff]
  · intro starts order hvalues hstarts horder
    obtain ⟨hs, e, hends, hrenders, hstarts', horder'⟩ : Follows settings
        ⟨[.send topic (([] ++ values.map payload).map fun data => ⟨data, spec.attributes.getD []⟩) 0 []
          none], c, none⟩ starts (atOnce 0 starts ++ order) :=
      follows_send (by simp [hvalues, hstarts]) (by simpa using horder)
    refine ⟨_, e, (ends_publish_iff hj hn).mpr (hends.rendered hd hp hvalues), ?_, ?_, ?_⟩
    · rw [renders_rendering, hrenders, List.append_nil]
    · rw [filterMap_rendering (fun _ => rfl) (fun _ => rfl), hstarts']
    · rw [filterMap_rendering (fun _ => rfl) (fun _ => rfl), horder']

/-- Two calls, of which the second one settles first and fails: the first one is accounted for all the
same. -/
theorem failed_call_hides_no_other :
    0 < (⟨some .null, some 2, none⟩ : MessageSpec).copies ∧
    ∃ hs, Ends ⟨none, "project", "topic", false⟩ (ofTask (.publish ⟨some .null, some 2, none⟩)
        ⟨.ofRandom 0, .ofList [], 0, some ⟨"address", {}⟩, .running⟩) hs
        ⟨.ofRandom 0, .ofList [], 0, some ⟨"address", {}⟩, .running⟩ (some (.publish "rejected")) ∧
      FannedOut ⟨some .null, some 2, none⟩ ⟨"address", {}⟩
        ⟨.ofRandom 0, .ofList [], 0, some ⟨"address", {}⟩, .running⟩ [.null, .null] hs
        ⟨.ofRandom 0, .ofList [], 0, some ⟨"address", {}⟩, .running⟩ (some (.publish "rejected")) ∧
      hs.filterMap Happening.settlement? =
        [(1, ⟨.error (.publish "rejected"), 5⟩), (0, ⟨.ok "id", 7⟩)] := by
  obtain ⟨hall, hsome⟩ := publish_accounts_for_every_call ⟨none, "project", "topic", false⟩
    ⟨some .null, some 2, none⟩ ⟨.ofRandom 0, .ofList [], 0, some ⟨"address", {}⟩, .running⟩ .null
    ⟨"address", {}⟩ rfl (by decide) rfl rfl [.null, .null]
  obtain ⟨hs, e, hends, hrenders, -, hsettlements⟩ := hsome [none, none]
    [(1, ⟨.error (.publish "rejected"), 5⟩), (0, ⟨.ok "id", 7⟩)] rfl rfl (List.Perm.swap 0 1 [])
  have hout := hall hs _ e hends hrenders
  have he : e = some (.publish "rejected") := by rw [hout.failed, hsettlements]; rfl
  subst he
  exact ⟨by decide, hs, hends, hout, hsettlements⟩

end Run
end Engine
end TopicLoad
