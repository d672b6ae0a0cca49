import TopicLoad.Step.Reading
import TopicLoad.Step.Writing

/-! A step that was read is read again from what is written for it. The two halves of the proof meet at
`Step.Readable`, which says what reading can yield: it yields nothing else, and all of that is read from
what is written for it. -/
namespace TopicLoad

def LoopCount.Readable : LoopCount → Prop
  | infinite => True
  | times n => 0 < n ∧ n < Limits.bits63

/-- A template counts as set, and a multiplier fits 64 bits with a sign. -/
structure MessageSpec.Readable (m : MessageSpec) : Prop where
  json : ∀ v ∈ m.json, v.isSet = true
  multiplier : ∀ n ∈ m.multiplier, Json.Number.toInt64? (.int n) = some n

namespace Json

theorem toInt64?_eq_some {n : Number} {k : Int} (h : n.toInt64? = some k) :
    n = .int k ∧ -(Limits.bits63 : Int) ≤ k ∧ k < (Limits.bits63 : Int) := by
  cases n with
  | float x => simp [Number.toInt64?] at h
  | int m =>
    simp only [Number.toInt64?] at h
    split at h
    · next hm =>
      cases h
      exact ⟨rfl, hm⟩
    · cases h

theorem toInt64?_ofNat {n : Nat} (h : n < Limits.bits63) :
    Number.toInt64? (.int n) = some (n : Int) := by
  have hlow : -(Limits.bits63 : Int) ≤ (n : Int) := by omega
  have hhigh : (n : Int) < (Limits.bits63 : Int) := Int.ofNat_lt.mpr h
  simp only [Number.toInt64?, hlow, hhigh, and_self, if_true]

theorem text_ne_nil (n : Number) : n.text ≠ [] := by
  cases n with
  | int k =>
    have hdigits : Decimal.digits k.natAbs ≠ [] := Nat.toDigits_ne_nil
    simp [Number.text, hdigits]
  | float x =>
    have hpointed (cs : List Char) : Decimal.pointed cs ≠ [] := by
      simp only [Decimal.pointed]
      split
      · next hp => exact List.ne_nil_of_mem hp
      · simp
    have hscientific (d : Decimal) : d.scientific ≠ [] := by simp [Decimal.scientific]
    simp only [Number.text]
    split
    · simp only [Double.jsonText, String.toList_ofList]
      split
      · simp [hpointed]
      · simp [hscientific]
    · simp

@[simp] theorem present_nil (name : String) : present [] name = none := rfl

theorem present_cons_of_ne {j name : String} (v : Json) (ms : Keyed Json) (h : j ≠ name) :
    present ((j, v) :: ms) name = present ms name := by
  simp [present, h]

theorem present_cons_self {v : Json} (name : String) (ms : Keyed Json) (h : v.isNull = false) :
    present ((name, v) :: ms) name = some v := by
  simp [present, h]

namespace Decoder

theorem whole_fits {v : Json} {n : Int} (h : whole v = .ok n) :
    Number.toInt64? (.int n) = some n := by
  simp only [whole] at h
  split at h
  · split at h
    · next hm =>
      cases h
      obtain ⟨hk, -⟩ := toInt64?_eq_some hm
      exact hk ▸ hm
    · cases h
  · cases h

theorem optional_eq_ok {α : Type} {read : Decoder α} {v : Json} {o : Option α} {a : α}
    (h : optional read v = .ok o) (ha : a ∈ o) : read.decode v = .ok a := by
  simp only [optional] at h
  split at h
  · cases h
    cases ha
  · cases hv : read.decode v with
    | error m =>
      rw [hv] at h
      cases h
    | ok b =>
      rw [hv] at h
      cases h
      cases ha
      rfl

theorem field_eq_ok {α β : Type} {name : String} {read : Decoder β} {store : β → α → α} {v : Json}
    {stored : α → α} (h : (Source.field name read store).2.decode v = .ok stored) :
    ∃ b, read.decode v = .ok b ∧ stored = store b := by
  have hmap : store <$> read.decode v = .ok stored := h
  cases hv : read.decode v with
  | error m =>
    rw [hv] at hmap
    cases hmap
  | ok b =>
    rw [hv] at hmap
    cases hmap
    exact ⟨b, rfl, rfl⟩

theorem field_decode {α β : Type} (name : String) {read : Decoder β} {store : β → α → α} {v : Json}
    {b : β} (h : read.decode v = .ok b) :
    (Source.field name read store).2.decode v = .ok (store b) :=
  congrArg (store <$> ·) h

theorem named_cons {α : Type} {fields : List (String × Decoder (α → α))} {k : String}
    {read : Decoder (α → α)} {store : α → α} {v : Json} (hread : fields.lookup k = some read)
    (hv : read.decode v = .ok store) (a : α) (ms : List (String × Json)) :
    named fields a ((k, v) :: ms) = named fields (store a) ms := by
  simp only [named, hread, hv]
  rfl

/-- What every field of a record keeps when it is stored, reading the record keeps. -/
theorem named_keeps {α : Type} {fields : List (String × Decoder (α → α))} {P : α → Prop}
    (hfields : ∀ f ∈ fields, ∀ v store, f.2.decode v = .ok store → ∀ a, P a → P (store a))
    (ms : List (String × Json)) {a b : α} (h : named fields a ms = .ok b) (ha : P a) : P b := by
  induction ms generalizing a with
  | nil =>
    cases h
    exact ha
  | cons m ms ih =>
    obtain ⟨k, v⟩ := m
    simp only [named] at h
    split at h
    · exact ih h ha
    · next read hread =>
      obtain ⟨l₁, l₂, hmem, -⟩ := List.lookup_eq_some_iff.mp hread
      cases hv : read.decode v with
      | error e =>
        rw [hv] at h
        cases h
      | ok store =>
        rw [hv] at h
        have hf : (k, read) ∈ fields := by simp [hmem]
        exact ih h (hfields _ hf v store hv a ha)

end Decoder
end Json
namespace Step

/-- What reading can yield. -/
inductive Readable : Step → Prop where
  | loop {steps : List Step} {count : LoopCount} (hsteps : ∀ s ∈ steps, Readable s)
    (hcount : count.Readable) : Readable (.loop steps count)
  | think (d : Duration) : Readable (.think d)
  | function {name : String} (h : name ≠ "") : Readable (.function name)
  | log (text : String) : Readable (.log text)
  | message {spec : MessageSpec} (h : spec.Readable) : Readable (.message spec)
  | unrecognized {v : Json} (h : ofJson v = .ok (.unrecognized v)) : Readable (.unrecognized v)

theorem readable_ofCount {ms : Keyed Json} {count : LoopCount} (h : ofCount ms = .ok count) :
    count.Readable := by
  simp only [ofCount] at h
  split at h
  · cases h
    trivial
  · split at h
    · next hk =>
      cases h
      obtain ⟨-, -, hlimit⟩ := Json.toInt64?_eq_some hk
      simp only [LoopCount.ofCount]
      split
      · refine ⟨by omega, by omega⟩
      · trivial
    · cases h
  · cases h

theorem functionName?_ne_empty {v : Json} {name : String} (hset : v.isSet = true)
    (h : functionName? v = some name) : name ≠ "" := by
  cases v with
  | str s =>
    cases h
    simpa [Json.isSet] using hset
  | num n =>
    cases h
    simp [Json.text_ne_nil]
  | bool b =>
    cases h
    cases b <;> decide
  | _ => cases h

theorem multiplier_fits {ms : List (String × Json)} {m : MessageSpec}
    (h : (MessageSpec.source : Json.Decoder MessageSpec).decode (.obj ms) = .ok m) :
    ∀ n ∈ m.multiplier, Json.Number.toInt64? (.int n) = some n := by
  refine Json.Decoder.named_keeps
    (P := fun m => ∀ n ∈ m.multiplier, Json.Number.toInt64? (.int n) = some n) ?_ ms h (by simp)
  intro f hf v stored hstored a ha
  simp only [List.mem_cons, List.not_mem_nil, or_false] at hf
  rcases hf with rfl | rfl | rfl
  · obtain ⟨_, -, rfl⟩ := Json.Decoder.field_eq_ok hstored
    exact ha
  · obtain ⟨_, hread, rfl⟩ := Json.Decoder.field_eq_ok hstored
    exact fun n hn => Json.Decoder.whole_fits (Json.Decoder.optional_eq_ok hread hn)
  · obtain ⟨_, -, rfl⟩ := Json.Decoder.field_eq_ok hstored
    exact ha

theorem readable_ofMessage {v : Json} {spec : MessageSpec} (h : ofMessage v = .ok spec) :
    spec.Readable := by
  simp only [ofMessage] at h
  split at h
  · next ms =>
    split at h
    · next m hm =>
      cases h
      exact ⟨fun v hv => (Option.mem_filter_iff.mp hv).2, fun n hn => multiplier_fits hm n hn⟩
    · cases h
  · cases h
    exact ⟨by simp, by simp⟩

theorem readable_ofMembers {ms : Keyed Json} {s : Step} (hloop : loopOf ms = none)
    (h : ofMembers ms = .ok s) : s.Readable := by
  -- An object that is not recognized is written as it is, and is not recognized again.
  have hself (hu : ofMembers ms = .ok (.unrecognized (.obj ms))) :
      Readable (.unrecognized (.obj ms)) := by
    refine .unrecognized ?_
    rw [ofJson, hloop]
    exact hu
  have hmembers := h
  simp only [ofMembers] at h
  cases hlog : Json.present ms "log" with
  | some v =>
    rw [hlog] at h
    cases h
    exact .log _
  | none =>
    cases hthink : Json.present ms "think" with
    | some v =>
      cases hd : Think.ofJson v with
      | error f => simp [hlog, hthink, hd] at h
      | ok d =>
        simp only [hlog, hthink, hd, Except.ok.injEq] at h
        exact h ▸ .think d
    | none =>
      cases hfunction : (Json.present ms "function").filter Json.isSet with
      | some v =>
        cases hname : functionName? v with
        | some name =>
          simp only [hlog, hthink, hfunction, hname, Except.ok.injEq] at h
          have hset : v.isSet = true := (Option.filter_eq_some_iff.mp hfunction).2
          exact h ▸ .function (functionName?_ne_empty hset hname)
        | none =>
          simp only [hlog, hthink, hfunction, hname, Except.ok.injEq] at h
          subst h
          exact hself hmembers
      | none =>
        cases hmessage : (Json.present ms "message").filter Json.isSet with
        | some v =>
          cases hspec : ofMessage v with
          | error f =>
            simp only [hlog, hthink, hfunction, hmessage, hspec] at h
            cases h
          | ok spec =>
            simp only [hlog, hthink, hfunction, hmessage, hspec] at h
            cases h
            exact .message (readable_ofMessage hspec)
        | none =>
          simp only [hlog, hthink, hfunction, hmessage, Except.ok.injEq] at h
          subst h
          exact hself hmembers

theorem loopOf_of_ne {name : String} (v : Json) (ms : List (String × Json)) (h : name ≠ "loop") :
    loopOf ((name, v) :: ms) = loopOf ms := by
  cases v <;> simp [loopOf, h]

mutual

theorem readable_ofJson : ∀ {v : Json} {s : Step}, ofJson v = .ok s → s.Readable
  | .obj ms, s, h => by
    cases hloop : loopOf ms with
    | none =>
      rw [ofJson, hloop] at h
      exact readable_ofMembers hloop h
    | some body =>
      rw [ofJson, hloop] at h
      cases body with
      | error f => cases h
      | ok steps =>
        cases hcount : ofCount ms with
        | error f => simp [hcount] at h
        | ok count =>
          simp only [hcount, Except.ok.injEq] at h
          exact h ▸ .loop (readable_loopOf hloop) (readable_ofCount hcount)
  | .null, _, rfl | .bool _, _, rfl | .num _, _, rfl | .str _, _, rfl | .arr _, _, rfl =>
    .unrecognized rfl

theorem readable_loopOf : ∀ {ms : List (String × Json)} {steps : List Step},
    loopOf ms = some (.ok steps) → ∀ s ∈ steps, s.Readable
  | [], _, h => by cases h
  | (name, v) :: ms, steps, h => by
    by_cases hname : name = "loop"
    · cases v with
      | arr items =>
        simp only [loopOf, hname, if_true, Option.some.injEq] at h
        exact readable_ofItems h
      | _ => simp [loopOf, hname] at h
    · rw [loopOf_of_ne v ms hname] at h
      exact readable_loopOf h

theorem readable_ofItems : ∀ {vs : List Json} {ss : List Step},
    ofItems vs = .ok ss → ∀ s ∈ ss, s.Readable
  | [], _, h => by
    cases h
    simp
  | v :: vs, ss, h => by
    rw [ofItems] at h
    cases hv : ofJson v with
    | error f => simp [hv] at h
    | ok s =>
      cases hvs : ofItems vs with
      | error f => simp [hv, hvs] at h
      | ok ss' =>
        simp only [hv, hvs, Except.ok.injEq] at h
        subst h
        exact List.forall_mem_cons.mpr ⟨readable_ofJson hv, readable_ofItems hvs⟩

end

/-! ## Reading what was written -/

mutual

def pauses : Step → List Duration
  | .loop steps _ => pausesAll steps
  | .think d => [d]
  | _ => []

def pausesAll : List Step → List Duration
  | [] => []
  | s :: ss => s.pauses ++ pausesAll ss

end

theorem mem_pausesAll {s : Step} {ss : List Step} {d : Duration} (hs : s ∈ ss) (hd : d ∈ s.pauses) :
    d ∈ pausesAll ss := by
  induction ss with
  | nil => cases hs
  | cons s' ss ih =>
    rw [pausesAll]
    rcases List.mem_cons.mp hs with rfl | hs
    · exact List.mem_append_left _ hd
    · exact List.mem_append_right _ (ih hs)

theorem ofItems_toItems {ss : List Step} (h : ∀ s ∈ ss, ofJson s.toJson = .ok s) :
    ofItems (toItems ss) = .ok ss := by
  induction ss with
  | nil => rfl
  | cons s ss ih =>
    obtain ⟨hs, hss⟩ := List.forall_mem_cons.mp h
    rw [toItems, ofItems, hs, ih hss]

theorem ofCount_of_present {ms : Keyed Json} {n : Json.Number} {k : Int}
    (hpresent : Json.present ms "count" = some (.num n)) (hk : n.toInt64? = some k) :
    ofCount ms = .ok (.ofCount (some k)) := by
  rw [ofCount, hpresent]
  simp only [hk]

theorem ofCount_times {n : Nat} (h : (LoopCount.times n).Readable) (v : Json) :
    ofCount [("count", .ofNat n), ("loop", v)] = .ok (.times n) := by
  obtain ⟨hpos, hlimit⟩ := h
  have hpresent : Json.present [("count", .ofNat n), ("loop", v)] "count" = some (.num (.int n)) := rfl
  have hint : (0 : Int) < n := Int.natCast_pos.mpr hpos
  rw [ofCount_of_present hpresent (Json.toInt64?_ofNat hlimit), LoopCount.ofCount, if_pos hint,
    Int.toNat_natCast]

theorem ofJson_times {n : Nat} {items : List Json} {steps : List Step}
    (hcount : (LoopCount.times n).Readable) (h : ofItems items = .ok steps) :
    ofJson (.obj [("count", .ofNat n), ("loop", .arr items)]) = .ok (.loop steps (.times n)) := by
  have hbody : loopOf [("count", .ofNat n), ("loop", .arr items)] = some (.ok steps) := by
    rw [loopOf_of_ne _ _ (by decide), loopOf, if_pos rfl, h]
  rw [ofJson, hbody, ofCount_times hcount]

theorem ofJson_infinite {items : List Json} {steps : List Step} (h : ofItems items = .ok steps) :
    ofJson (.obj [("loop", .arr items)]) = .ok (.loop steps .infinite) := by
  have hbody : loopOf [("loop", .arr items)] = some (.ok steps) := by
    rw [loopOf, if_pos rfl, h]
  have hread : ofCount [("loop", .arr items)] = .ok .infinite := by
    rw [ofCount, Json.present_cons_of_ne _ _ (by decide)]
    rfl
  rw [ofJson, hbody, hread]

theorem table_toJson (a : Keyed String) :
    Json.Decoder.table ⟨Json.Decoder.text⟩ (.obj (Keyed.mapValues .str a)) = .ok a := by
  induction a with
  | nil => rfl
  | cons e a ih =>
    simp only [Json.Decoder.table, Keyed.mapValues, List.map_cons, List.mapM_cons] at ih ⊢
    rw [ih]
    rfl

theorem ofMessage_toJson {spec : MessageSpec} (h : spec.Readable) :
    ofMessage spec.toJson = .ok spec := by
  obtain ⟨json, multiplier, attributes⟩ := spec
  obtain ⟨hjson, hmultiplier⟩ := h
  have hattributes : (Source.optional (Source.table Source.text) : Json.Decoder _).decode
      (Json.ofOption (fun a => .obj (Keyed.mapValues .str a)) attributes) = .ok attributes := by
    cases attributes with
    | none => rfl
    | some a => exact congrArg (some <$> ·) (table_toJson a)
  have htemplate : (Source.optional Source.any : Json.Decoder _).decode
      (Json.ofOption id json) = .ok json := by
    cases json with
    | none => rfl
    | some v =>
      have hset : v.isSet = true := hjson v rfl
      cases v with
      | null => cases hset
      | _ => rfl
  have hcount : (Source.optional Source.whole : Json.Decoder _).decode
      (Json.ofOption (fun n => .num (.int n)) multiplier) = .ok multiplier := by
    cases multiplier with
    | none => rfl
    | some n =>
      have hn : Json.Decoder.whole (.num (.int n)) = .ok n := by
        simp [Json.Decoder.whole, hmultiplier n rfl]
      exact congrArg (some <$> ·) hn
  have hread : (MessageSpec.source : Json.Decoder MessageSpec).decode
      (MessageSpec.toJson ⟨json, multiplier, attributes⟩) = .ok ⟨json, multiplier, attributes⟩ := by
    simp only [MessageSpec.source, Source.record, Json.Decoder.record, MessageSpec.toJson]
    rw [Json.Decoder.named_cons rfl (Json.Decoder.field_decode "attributes" hattributes),
      Json.Decoder.named_cons rfl (Json.Decoder.field_decode "json" htemplate),
      Json.Decoder.named_cons rfl (Json.Decoder.field_decode "multiplier" hcount)]
    rfl
  have hset : json.filter Json.isSet = json := by
    cases json with
    | none => rfl
    | some v => simp [hjson v rfl]
  rw [MessageSpec.toJson] at hread
  rw [MessageSpec.toJson, ofMessage, hread]
  simp only [hset]

/-- What is written for a step that is no loop is an object of one member, which tells the step. -/
theorem ofJson_member {name : String} (v : Json) (h : name ≠ "loop") :
    ofJson (.obj [(name, v)]) = ofMembers [(name, v)] := by
  rw [ofJson, loopOf_of_ne v [] h, loopOf]

theorem ofJson_think {v : Json} {d : Duration} (hv : v.isNull = false) (h : Think.ofJson v = .ok d) :
    ofJson (.obj [("think", v)]) = .ok (.think d) := by
  rw [ofJson_member _ (by decide), ofMembers, Json.present_cons_of_ne _ _ (by decide),
    Json.present_nil, Json.present_cons_self _ _ hv]
  simp only [h]

theorem Readable.reread {s : Step} (h : s.Readable)
    (hpauses : ∀ d ∈ s.pauses, Think.ofSeconds d.toSeconds = .ok d) : ofJson s.toJson = .ok s := by
  induction h with
  | @loop steps count hsteps hcount ih =>
    have hitems : ofItems (toItems steps) = .ok steps :=
      ofItems_toItems fun s hs => ih s hs fun d hd => hpauses d (mem_pausesAll hs hd)
    cases count with
    | infinite => exact ofJson_infinite hitems
    | times n => exact ofJson_times hcount hitems
  | think d =>
    have hd : Think.ofSeconds d.toSeconds = .ok d := hpauses d List.mem_cons_self
    have hwritten : Json.ofFloat d.toSeconds = .num (.float d.toSeconds) := by
      by_cases hfinite : d.toSeconds.isFinite = true
      · simp [Json.ofFloat, hfinite]
      · simp [Think.ofSeconds, hfinite] at hd
    rw [toJson, hwritten]
    exact ofJson_think rfl hd
  | @function name hname =>
    have hset : (Json.str name).isSet = true := by simpa [Json.isSet] using hname
    rw [toJson, ofJson_member _ (by decide), ofMembers, Json.present_cons_of_ne _ _ (by decide),
      Json.present_cons_of_ne _ _ (by decide), Json.present_cons_self _ _ rfl]
    simp only [Json.present_nil, Option.filter_some, hset, if_true, functionName?]
  | log text => rfl
  | @message spec hspec =>
    rw [toJson, ofJson_member _ (by decide), ofMembers, Json.present_cons_of_ne _ _ (by decide),
      Json.present_cons_of_ne _ _ (by decide), Json.present_cons_of_ne _ _ (by decide),
      Json.present_cons_self _ _ rfl]
    have hset : spec.toJson.isSet = true := rfl
    simp only [Json.present_nil, Option.filter_none, Option.filter_some, hset, if_true,
      ofMessage_toJson hspec]
    rfl
  | unrecognized hv => exact hv

/-- A step that was read is read again from what is written for it, provided that its think times are what
their seconds are read as. -/
theorem step_rereads {v : Json} {s : Step} (h : ofJson v = .ok s)
    (hpauses : ∀ d ∈ s.pauses, Think.ofSeconds d.toSeconds = .ok d) : ofJson s.toJson = .ok s :=
  (readable_ofJson h).reread hpauses

/-- A loop in which little is written as it was: a truth value names a function, a list names none, a
template that counts as unset is dropped, and a number is logged. -/
theorem normalized_loop_rereads :
    ∃ s, ofJson (.obj [("count", .num (.int 2)), ("loop", .arr
        [ .obj [("think", .num (.float 1.5))], .obj [("function", .bool true)],
          .obj [("function", .arr [.str "name"])],
          .obj [("message", .obj [("json", .str ""), ("multiplier", .num (.int (-3)))])],
          .obj [("log", .num (.int 5))] ])]) = .ok s ∧
      s = .loop
        [ .think ⟨1500000000⟩, .function "true",
          .unrecognized (.obj [("function", .arr [.str "name"])]),
          .message ⟨none, some (-3), none⟩, .log "5" ] (.times 2) ∧
      (∀ d ∈ s.pauses, Think.ofSeconds d.toSeconds = .ok d) ∧ ofJson s.toJson = .ok s := by
  have hbounds : ¬ (¬ (1.5 : Float).isFinite ∨ (1.5 : Float) < 0.0) := by decide +kernel
  have hlength : Duration.ofSeconds? 1.5 = some ⟨1500000000⟩ := by decide +kernel
  have hthink : Think.ofSeconds 1.5 = .ok ⟨1500000000⟩ := by
    rw [Think.ofSeconds, if_neg hbounds, hlength]
  have hseconds : Duration.toSeconds ⟨1500000000⟩ = 1.5 := by decide +kernel
  have hfirst : ofJson (.obj [("think", .num (.float 1.5))]) = .ok (.think ⟨1500000000⟩) :=
    ofJson_think rfl hthink
  have hitems : ofItems
      [ .obj [("think", .num (.float 1.5))], .obj [("function", .bool true)],
        .obj [("function", .arr [.str "name"])],
        .obj [("message", .obj [("json", .str ""), ("multiplier", .num (.int (-3)))])],
        .obj [("log", .num (.int 5))] ] = .ok
      [ .think ⟨1500000000⟩, .function "true", .unrecognized (.obj [("function", .arr [.str "name"])]),
        .message ⟨none, some (-3), none⟩, .log "5" ] := by
    rw [ofItems, hfirst]
    rfl
  have hread := @ofJson_times 2 _ _ ⟨by decide, by decide⟩ hitems
  have hpauses : ∀ d ∈ [Duration.mk 1500000000], Think.ofSeconds d.toSeconds = .ok d :=
    List.forall_mem_singleton.mpr (hseconds ▸ hthink)
  exact ⟨_, hread, rfl, hpauses, step_rereads hread hpauses⟩

end Step
end TopicLoad
