import TopicLoad.Proofs.Magnitude
import TopicLoad.Proofs.Rereading

/-! The grammar of steps. A value is told by the first of its members that counts; `WellFormed` says
which values are steps, and `FirstOffence` which part of any other value is refused first and why.
Reading accepts the former and refuses the latter for the reason given, and every value is either. -/
namespace TopicLoad
namespace Json

/-- A whole number that fits 64 bits with a sign. -/
def IsWhole (v : Json) : Prop :=
  ∃ n : Int, v = .num (.int n) ∧ -(Limits.bits63 : Int) ≤ n ∧ n < (Limits.bits63 : Int)

def IsTexts (v : Json) : Prop := ∃ ms, v = .obj ms ∧ ∀ m ∈ ms, ∃ s, m.2 = .str s

theorem exists_toInt64?_iff {n : Number} : (∃ k, n.toInt64? = some k) ↔ IsWhole (.num n) := by
  cases n with
  | float x => simp [Number.toInt64?, IsWhole]
  | int k => simp [Number.toInt64?, IsWhole]

theorem mem_of_present {ms : Keyed Json} {name : String} {v : Json}
    (h : present ms name = some v) : (name, v) ∈ ms := by
  obtain ⟨hget, -⟩ := Option.filter_eq_some_iff.mp h
  obtain ⟨m, hfind, rfl⟩ := Option.map_eq_some_iff.mp hget
  have hname : m.1 = name := by simpa using List.find?_some hfind
  rw [← hname]
  exact List.mem_of_find?_eq_some hfind

namespace Decoder

variable {α : Type}

theorem exists_map_iff {β : Type} {f : α → β} {r : Except Mismatch α} :
    (∃ b, f <$> r = .ok b) ↔ ∃ a, r = .ok a := by
  cases r <;> simp [Functor.map, Except.map]

theorem exists_mapM_iff {β : Type} {f : α → Except Mismatch β} {as : List α} :
    (∃ bs, as.mapM f = .ok bs) ↔ ∀ a ∈ as, ∃ b, f a = .ok b := by
  induction as with
  | nil => simp [pure, Except.pure]
  | cons a as ih =>
    rw [List.forall_mem_cons, ← ih, List.mapM_cons]
    cases f a with
    | error e => simp [bind, Except.bind]
    | ok b => cases as.mapM f <;> simp [bind, Except.bind, pure, Except.pure]

theorem exists_whole_iff {v : Json} : (∃ n, whole v = .ok n) ↔ v.IsWhole := by
  cases v with
  | num n =>
    rw [← exists_toInt64?_iff]
    cases n with
    | float x => simp [whole, wrongType, Number.toInt64?]
    | int k => cases hk : Number.toInt64? (.int k) <;> simp [whole, hk]
  | _ => simp [whole, wrongType, IsWhole]

theorem exists_optional_iff {read : Decoder α} {v : Json} :
    (∃ o, optional read v = .ok o) ↔ v = .null ∨ ∃ a, read.decode v = .ok a := by
  by_cases hv : v = .null
  · simp [hv, optional]
  · have hread : optional read v = some <$> read.decode v := by
      cases v <;> first | rfl | exact absurd rfl hv
    rw [hread, exists_map_iff]
    simp [hv]

theorem exists_text_iff {v : Json} : (∃ s, text v = .ok s) ↔ ∃ s, v = .str s := by
  cases v <;> simp [text, wrongType]

theorem exists_texts_iff {v : Json} : (∃ t, table ⟨text⟩ v = .ok t) ↔ v.IsTexts := by
  cases v with
  | obj ms => simp [table, exists_mapM_iff, exists_map_iff, exists_text_iff, IsTexts]
  | _ => simp [table, wrongType, IsTexts]

theorem exists_named_iff {fields : List (String × Decoder (α → α))} {a : α}
    {ms : List (String × Json)} :
    (∃ b, named fields a ms = .ok b) ↔
      ∀ m ∈ ms, ∀ read, fields.lookup m.1 = some read → ∃ store, read.decode m.2 = .ok store := by
  induction ms generalizing a with
  | nil => simp [named]
  | cons m ms ih =>
    obtain ⟨name, v⟩ := m
    rw [List.forall_mem_cons, named]
    cases hread : fields.lookup name with
    | none => simp [ih]
    | some read =>
      cases hv : read.decode v with
      | error e => simp [hv, bind, Except.bind]
      | ok store => simp [hv, bind, Except.bind, ih]

end Decoder
end Json

/-- The members of a message fit its fields: a multiplier and attributes that are `null` count as
absent. -/
structure MessageSpec.Fits (ms : List (String × Json)) : Prop where
  multiplier : ∀ v, ("multiplier", v) ∈ ms → v = .null ∨ v.IsWhole
  attributes : ∀ v, ("attributes", v) ∈ ms → v = .null ∨ v.IsTexts

theorem MessageSpec.exists_source_iff {ms : List (String × Json)} :
    (∃ spec, (source : Json.Decoder MessageSpec).decode (.obj ms) = .ok spec) ↔ Fits ms := by
  refine Json.Decoder.exists_named_iff.trans ⟨fun h => ⟨fun v hv => ?_, fun v hv => ?_⟩, ?_⟩
  · have hread := Json.Decoder.exists_map_iff.mp (h _ hv _ rfl)
    exact (Json.Decoder.exists_optional_iff.mp hread).imp_right Json.Decoder.exists_whole_iff.mp
  · have hread := Json.Decoder.exists_map_iff.mp (h _ hv _ rfl)
    exact (Json.Decoder.exists_optional_iff.mp hread).imp_right Json.Decoder.exists_texts_iff.mp
  · rintro h ⟨name, v⟩ hm read hread
    by_cases hjson : name = "json"
    · subst hjson
      cases hread
      exact Json.Decoder.exists_map_iff.mpr (Json.Decoder.exists_optional_iff.mpr (.inr ⟨v, rfl⟩))
    by_cases hmultiplier : name = "multiplier"
    · subst hmultiplier
      cases hread
      exact Json.Decoder.exists_map_iff.mpr (Json.Decoder.exists_optional_iff.mpr
        ((h.multiplier v hm).imp_right Json.Decoder.exists_whole_iff.mpr))
    by_cases hattributes : name = "attributes"
    · subst hattributes
      cases hread
      exact Json.Decoder.exists_map_iff.mpr (Json.Decoder.exists_optional_iff.mpr
        ((h.attributes v hm).imp_right Json.Decoder.exists_texts_iff.mpr))
    · simp [Source.field, List.lookup_cons, beq_eq_false_iff_ne.mpr hjson,
        beq_eq_false_iff_ne.mpr hmultiplier, beq_eq_false_iff_ne.mpr hattributes] at hread

namespace Step

inductive Mark where
  | loop
  | log
  | think
  | function
  | message
deriving DecidableEq, Repr

namespace Mark

def name : Mark → String
  | loop => "loop"
  | log => "log"
  | think => "think"
  | function => "function"
  | message => "message"

def all : List Mark := [loop, log, think, function, message]

/-- A function and a message count only if they are set; of the others anything but `null` counts. -/
def counts : Mark → Json → Bool
  | function, v | message, v => v.isSet
  | _, _ => true

def value? (ms : Keyed Json) (k : Mark) : Option Json := (Json.present ms k.name).filter k.counts

theorem value?_of_counts {k : Mark} (h : ∀ v, k.counts v = true) (ms : Keyed Json) :
    value? ms k = Json.present ms k.name := by
  cases hv : Json.present ms k.name <;> simp [value?, hv, h]

@[simp] theorem value?_loop (ms : Keyed Json) : value? ms loop = Json.present ms "loop" :=
  value?_of_counts (fun _ => rfl) ms

@[simp] theorem value?_log (ms : Keyed Json) : value? ms log = Json.present ms "log" :=
  value?_of_counts (fun _ => rfl) ms

@[simp] theorem value?_think (ms : Keyed Json) : value? ms think = Json.present ms "think" :=
  value?_of_counts (fun _ => rfl) ms

@[simp] theorem value?_function (ms : Keyed Json) :
    value? ms function = (Json.present ms "function").filter Json.isSet := rfl

@[simp] theorem value?_message (ms : Keyed Json) :
    value? ms message = (Json.present ms "message").filter Json.isSet := rfl

end Mark

def mark? (ms : Keyed Json) : Option (Mark × Json) :=
  Mark.all.findSome? fun k => (Mark.value? ms k).map (k, ·)

theorem loopOf_eq (ms : List (String × Json)) :
    loopOf ms = (Json.present ms "loop").map fun
      | .arr items => ofItems items
      | v => .error (.loopNotList v) := by
  induction ms with
  | nil => rfl
  | cons m ms ih =>
    obtain ⟨name, v⟩ := m
    by_cases hname : name = "loop"
    · subst hname
      cases v <;> simp [loopOf, Json.present, Option.filter, Json.isNull]
    · rw [loopOf_of_ne v ms hname, Json.present_cons_of_ne v ms hname, ih]

theorem ofJson_obj (ms : List (String × Json)) :
    ofJson (.obj ms) =
      match mark? ms with
      | some (.loop, .arr items) =>
        match ofItems items, ofCount ms with
        | .error f, _ => .error f
        | .ok _, .error f => .error f
        | .ok steps, .ok count => .ok (.loop steps count)
      | some (.loop, v) => .error (.loopNotList v)
      | some (.log, v) => .ok (.log v.plain)
      | some (.think, v) =>
        match Think.ofJson v with
        | .ok d => .ok (.think d)
        | .error f => .error (.think f)
      | some (.function, v) =>
        match functionName? v with
        | some name => .ok (.function name)
        | none => .ok (.unrecognized (.obj ms))
      | some (.message, v) => .message <$> ofMessage v
      | none => .ok (.unrecognized (.obj ms)) := by
  simp only [ofJson, loopOf_eq, ofMembers, mark?, Mark.all, List.findSome?_cons, List.findSome?_nil,
    Mark.value?_loop, Mark.value?_log, Mark.value?_think, Mark.value?_function, Mark.value?_message]
  cases Json.present ms "loop" with
  | some v => cases v <;> rfl
  | none =>
    cases Json.present ms "log" with
    | some v => rfl
    | none =>
      cases Json.present ms "think" with
      | some v => rfl
      | none =>
        cases (Json.present ms "function").filter Json.isSet with
        | some v => rfl
        | none => cases (Json.present ms "message").filter Json.isSet <;> rfl

/-! ## The grammar -/

/-- The values that are steps. -/
inductive WellFormed : Json → Prop where
  | other {v : Json} (h : ∀ ms, v ≠ .obj ms) : WellFormed v
  | unmarked {ms : List (String × Json)} (h : mark? ms = none) : WellFormed (.obj ms)
  | loop {ms : List (String × Json)} {items : List Json} (h : mark? ms = some (.loop, .arr items))
    (hitems : ∀ v ∈ items, WellFormed v)
    (hcount : ∀ v, Json.present ms "count" = some v → v.IsWhole) : WellFormed (.obj ms)
  | log {ms : List (String × Json)} {v : Json} (h : mark? ms = some (.log, v)) : WellFormed (.obj ms)
  | think {ms : List (String × Json)} {v : Json} (h : mark? ms = some (.think, v))
    (hv : ∃ d, Think.ofJson v = .ok d) : WellFormed (.obj ms)
  | function {ms : List (String × Json)} {v : Json} (h : mark? ms = some (.function, v)) :
    WellFormed (.obj ms)
  | message {ms : List (String × Json)} {v : Json} (h : mark? ms = some (.message, v))
    (hv : ∀ members, v = .obj members → MessageSpec.Fits members) : WellFormed (.obj ms)

/-- The steps of the loop that a value is. -/
def body : Json → List Json
  | .obj ms =>
    match mark? ms with
    | some (.loop, .arr items) => items
    | _ => []
  | _ => []

/-- What a value is refused for, whatever the steps of its body are. -/
inductive Offends : Json → Fault → Prop where
  | list {ms : List (String × Json)} {v : Json} (h : mark? ms = some (.loop, v))
    (hv : ∀ items, v ≠ .arr items) : Offends (.obj ms) (.loopNotList v)
  | count {ms : List (String × Json)} {items : List Json} {v : Json}
    (h : mark? ms = some (.loop, .arr items)) (hcount : Json.present ms "count" = some v)
    (hv : ¬ v.IsWhole) : Offends (.obj ms) (.countNotWhole v)
  | think {ms : List (String × Json)} {v : Json} {f : Think.Fault} (h : mark? ms = some (.think, v))
    (hv : Think.ofJson v = .error f) : Offends (.obj ms) (.think f)
  | message {ms members : List (String × Json)} {m : Mismatch}
    (h : mark? ms = some (.message, .obj members)) (hv : ¬ MessageSpec.Fits members)
    (hm : (MessageSpec.source : Json.Decoder MessageSpec).decode (.obj members) = .error m) :
    Offends (.obj ms) (.badMessage m)

/-- `FirstOffence v o f`: in `v` the first offending step is `o`, refused for `f`. Steps are taken from
left to right, those of a body before the loop around it. -/
inductive FirstOffence : Json → Json → Fault → Prop where
  | own {v : Json} {f : Fault} (hbody : ∀ w ∈ body v, WellFormed w) (h : Offends v f) :
    FirstOffence v v f
  | within {v w o : Json} {before after : List Json} {f : Fault}
    (hbody : body v = before ++ w :: after) (hbefore : ∀ u ∈ before, WellFormed u)
    (h : FirstOffence w o f) : FirstOffence v o f

theorem body_eq {ms : List (String × Json)} {items : List Json}
    (h : mark? ms = some (.loop, .arr items)) : body (.obj ms) = items := by
  simp only [body, h]

theorem mark_of_body_ne_nil {v : Json} (h : body v ≠ []) :
    ∃ ms, v = .obj ms ∧ mark? ms = some (.loop, .arr (body v)) := by
  cases v with
  | obj ms =>
    refine ⟨ms, rfl, ?_⟩
    simp only [body] at h ⊢
    split at h
    · next items hmark => simp [hmark]
    · exact absurd rfl h
  | _ => exact absurd rfl h

theorem exists_ofCount {ms : Keyed Json}
    (h : ∀ v, Json.present ms "count" = some v → v.IsWhole) : ∃ c, ofCount ms = .ok c := by
  cases hcount : Json.present ms "count" with
  | none => exact ⟨_, by rw [ofCount, hcount]⟩
  | some v =>
    obtain ⟨n, rfl, hn⟩ := h v hcount
    obtain ⟨k, hk⟩ := Json.exists_toInt64?_iff.mpr ⟨n, rfl, hn⟩
    exact ⟨.ofCount (some k), by simp only [ofCount, hcount, hk]⟩

theorem ofCount_of_not_isWhole {ms : Keyed Json} {v : Json}
    (h : Json.present ms "count" = some v) (hv : ¬ v.IsWhole) :
    ofCount ms = .error (.countNotWhole v) := by
  cases v with
  | num n =>
    cases hk : n.toInt64? with
    | none => simp only [ofCount, h, hk]
    | some k => exact absurd (Json.exists_toInt64?_iff.mp ⟨k, hk⟩) hv
  | _ => simp only [ofCount, h]

theorem exists_ofMessage {v : Json} (h : ∀ members, v = .obj members → MessageSpec.Fits members) :
    ∃ spec, ofMessage v = .ok spec := by
  cases v with
  | obj members =>
    obtain ⟨spec, hspec⟩ := MessageSpec.exists_source_iff.mpr (h members rfl)
    exact ⟨{ spec with json := spec.json.filter Json.isSet }, by simp only [ofMessage, hspec]⟩
  | _ => exact ⟨_, rfl⟩

theorem ofItems_of_forall {vs : List Json} (h : ∀ v ∈ vs, ∃ s, ofJson v = .ok s) :
    ∃ ss, ofItems vs = .ok ss := by
  induction vs with
  | nil => exact ⟨[], rfl⟩
  | cons v vs ih =>
    obtain ⟨⟨s, hs⟩, hvs⟩ := List.forall_mem_cons.mp h
    obtain ⟨ss, hss⟩ := ih hvs
    exact ⟨s :: ss, by simp only [ofItems, hs, hss]⟩

theorem ofItems_of_error {before after : List Json} {w : Json} {f : Fault}
    (hbefore : ∀ v ∈ before, ∃ s, ofJson v = .ok s) (hw : ofJson w = .error f) :
    ofItems (before ++ w :: after) = .error f := by
  induction before with
  | nil => simp only [List.nil_append, ofItems, hw]
  | cons v before ih =>
    obtain ⟨⟨s, hs⟩, hrest⟩ := List.forall_mem_cons.mp hbefore
    simp only [List.cons_append, ofItems, hs, ih hrest]

theorem exists_ofJson_of_wellFormed {v : Json} (h : WellFormed v) : ∃ s, ofJson v = .ok s := by
  induction h with
  | @other v h =>
    cases v with
    | obj ms => exact absurd rfl (h ms)
    | _ => exact ⟨_, rfl⟩
  | unmarked h => exact ⟨_, by rw [ofJson_obj, h]⟩
  | loop h _ hcount ih =>
    obtain ⟨steps, hsteps⟩ := ofItems_of_forall ih
    obtain ⟨count, hcount⟩ := exists_ofCount hcount
    exact ⟨.loop steps count, by simp only [ofJson_obj, h, hsteps, hcount]⟩
  | log h => exact ⟨_, by rw [ofJson_obj, h]⟩
  | think h hv =>
    obtain ⟨d, hd⟩ := hv
    exact ⟨.think d, by simp only [ofJson_obj, h, hd]⟩
  | @function ms v h =>
    cases hname : functionName? v with
    | none => exact ⟨.unrecognized (.obj ms), by simp only [ofJson_obj, h, hname]⟩
    | some name => exact ⟨.function name, by simp only [ofJson_obj, h, hname]⟩
  | message h hv =>
    obtain ⟨spec, hspec⟩ := exists_ofMessage hv
    exact ⟨.message spec, by simp only [ofJson_obj, h, hspec, Except.map_ok]⟩

theorem ofJson_of_offends {v : Json} {f : Fault} (hbody : ∀ w ∈ body v, WellFormed w)
    (h : Offends v f) : ofJson v = .error f := by
  cases h with
  | @list ms v h hv =>
    cases v with
    | arr items => exact absurd rfl (hv items)
    | _ => simp only [ofJson_obj, h]
  | @count ms items v h hcount hv =>
    rw [body_eq h] at hbody
    obtain ⟨steps, hsteps⟩ := ofItems_of_forall fun w hw => exists_ofJson_of_wellFormed (hbody w hw)
    simp only [ofJson_obj, h, hsteps, ofCount_of_not_isWhole hcount hv]
  | think h hv => simp only [ofJson_obj, h, hv]
  | message h hv hm => simp only [ofJson_obj, h, ofMessage, hm, Except.map_error]

theorem ofJson_of_firstOffence {v o : Json} {f : Fault} (h : FirstOffence v o f) :
    ofJson v = .error f := by
  induction h with
  | own hbody h => exact ofJson_of_offends hbody h
  | @within v w o before after f hbody hbefore _ ih =>
    obtain ⟨ms, rfl, hmark⟩ := mark_of_body_ne_nil (v := v) (by simp [hbody])
    have hread : ∀ u ∈ before, ∃ s, ofJson u = .ok s :=
      fun u hu => exists_ofJson_of_wellFormed (hbefore u hu)
    rw [hbody] at hmark
    simp only [ofJson_obj, hmark, ofItems_of_error hread ih]

theorem mem_of_mark {ms : Keyed Json} {k : Mark} {v : Json} (h : mark? ms = some (k, v)) :
    (k.name, v) ∈ ms := by
  obtain ⟨j, -, hj⟩ := List.exists_of_findSome?_eq_some h
  obtain ⟨w, hw, heq⟩ := Option.map_eq_some_iff.mp hj
  cases heq
  exact Json.mem_of_present (Option.filter_eq_some_iff.mp hw).1

theorem sizeOf_lt_of_mem_body {v w : Json} (h : w ∈ body v) : sizeOf w < sizeOf v := by
  obtain ⟨ms, rfl, hmark⟩ := mark_of_body_ne_nil (List.ne_nil_of_mem h)
  have hmember := List.sizeOf_lt_of_mem (mem_of_mark hmark)
  have hitem := List.sizeOf_lt_of_mem h
  simp only [Prod.mk.sizeOf_spec, Json.arr.sizeOf_spec, Json.obj.sizeOf_spec] at *
  omega

theorem forall_or_first {α : Type} {P Q : α → Prop} {as : List α} (h : ∀ a ∈ as, P a ∨ Q a) :
    (∀ a ∈ as, P a) ∨ ∃ before a after, as = before ++ a :: after ∧ (∀ b ∈ before, P b) ∧ Q a := by
  induction as with
  | nil => simp
  | cons a as ih =>
    obtain ⟨ha, has⟩ := List.forall_mem_cons.mp h
    cases ha with
    | inr ha => exact .inr ⟨[], a, as, rfl, by simp, ha⟩
    | inl ha =>
      obtain hall | ⟨before, b, after, rfl, hbefore, hb⟩ := ih has
      · exact .inl (List.forall_mem_cons.mpr ⟨ha, hall⟩)
      · exact .inr ⟨a :: before, b, after, rfl, List.forall_mem_cons.mpr ⟨ha, hbefore⟩, hb⟩

theorem wellFormed_or_offends {v : Json} (hbody : ∀ w ∈ body v, WellFormed w) :
    WellFormed v ∨ ∃ f, Offends v f := by
  cases v with
  | obj ms =>
    cases hmark : mark? ms with
    | none => exact .inl (.unmarked hmark)
    | some told =>
      obtain ⟨mark, v⟩ := told
      cases mark with
      | loop =>
        cases v with
        | arr items =>
          rw [body_eq hmark] at hbody
          by_cases hcount : ∀ v, Json.present ms "count" = some v → v.IsWhole
          · exact .inl (.loop hmark hbody hcount)
          · simp only [Classical.not_forall] at hcount
            obtain ⟨v, hpresent, hv⟩ := hcount
            exact .inr ⟨_, .count hmark hpresent hv⟩
        | _ => exact .inr ⟨_, .list hmark (by simp)⟩
      | log => exact .inl (.log hmark)
      | think =>
        cases hv : Think.ofJson v with
        | ok d => exact .inl (.think hmark ⟨d, hv⟩)
        | error f => exact .inr ⟨_, .think hmark hv⟩
      | function => exact .inl (.function hmark)
      | message =>
        cases v with
        | obj members =>
          cases hm : (MessageSpec.source : Json.Decoder MessageSpec).decode (.obj members) with
          | ok spec =>
            have hfits := MessageSpec.exists_source_iff.mp ⟨spec, hm⟩
            exact .inl (.message hmark fun _ heq => Json.obj.inj heq ▸ hfits)
          | error m =>
            -- Members that fit are decoded, so that those which are not do not fit.
            have hunfit : ¬ MessageSpec.Fits members := fun hfits => by
              obtain ⟨spec, hspec⟩ := MessageSpec.exists_source_iff.mpr hfits
              rw [hm] at hspec
              cases hspec
            exact .inr ⟨_, .message hmark hunfit hm⟩
        | _ => exact .inl (.message hmark (by simp))
  | _ => exact .inl (.other (by simp))

theorem wellFormed_or_firstOffence (v : Json) : WellFormed v ∨ ∃ o f, FirstOffence v o f := by
  have hbody := forall_or_first fun w (hw : w ∈ body v) =>
    have := sizeOf_lt_of_mem_body hw
    wellFormed_or_firstOffence w
  obtain hall | ⟨before, w, after, hsplit, hbefore, o, f, hw⟩ := hbody
  · obtain hv | ⟨f, hf⟩ := wellFormed_or_offends hall
    · exact .inl hv
    · exact .inr ⟨v, f, .own hall hf⟩
  · exact .inr ⟨o, f, .within hsplit hbefore hw⟩
termination_by sizeOf v

theorem wellFormed_of_ok {v : Json} {s : Step} (h : ofJson v = .ok s) : WellFormed v := by
  obtain hv | ⟨o, f, ho⟩ := wellFormed_or_firstOffence v
  · exact hv
  · rw [ofJson_of_firstOffence ho] at h
    cases h

theorem firstOffence_of_error {v : Json} {f : Fault} (h : ofJson v = .error f) :
    ∃ o, FirstOffence v o f := by
  obtain hv | ⟨o, g, ho⟩ := wellFormed_or_firstOffence v
  · obtain ⟨s, hs⟩ := exists_ofJson_of_wellFormed hv
    rw [hs] at h
    cases h
  · rw [ofJson_of_firstOffence ho] at h
    cases h
    exact ⟨o, ho⟩

theorem not_wellFormed_of_firstOffence {v o : Json} {f : Fault} (h : FirstOffence v o f) :
    ¬ WellFormed v := by
  intro hv
  obtain ⟨s, hs⟩ := exists_ofJson_of_wellFormed hv
  rw [ofJson_of_firstOffence h] at hs
  cases hs

theorem first_unique {α : Type} {P : α → Prop} {before before' after after' : List α} {a a' : α}
    (h : before ++ a :: after = before' ++ a' :: after') (hbefore : ∀ b ∈ before, P b)
    (hbefore' : ∀ b ∈ before', P b) (ha : ¬ P a) (ha' : ¬ P a') : a = a' := by
  induction before generalizing before' with
  | nil =>
    cases before' with
    | nil => exact (List.cons.inj h).1
    | cons b before' =>
      have hb := hbefore' b List.mem_cons_self
      rw [← (List.cons.inj h).1] at hb
      exact absurd hb ha
  | cons b before ih =>
    have hb := hbefore b List.mem_cons_self
    cases before' with
    | nil =>
      rw [(List.cons.inj h).1] at hb
      exact absurd hb ha'
    | cons b' before' =>
      exact ih (List.cons.inj h).2 (fun c hc => hbefore c (List.mem_cons_of_mem b hc))
        (fun c hc => hbefore' c (List.mem_cons_of_mem b' hc))

theorem FirstOffence.unique {v o o' : Json} {f f' : Fault} (h : FirstOffence v o f)
    (h' : FirstOffence v o' f') : o = o' ∧ f = f' := by
  have hread := ofJson_of_firstOffence h
  rw [ofJson_of_firstOffence h'] at hread
  refine ⟨?_, (Except.error.inj hread).symm⟩
  clear hread
  induction h generalizing o' f' with
  | own hbody _ =>
    cases h' with
    | own => rfl
    | @within _ w _ _ _ _ hsplit _ hw =>
      exact absurd (hbody w (by simp [hsplit])) (not_wellFormed_of_firstOffence hw)
  | @within _ w _ _ _ _ hsplit hbefore hw ih =>
    cases h' with
    | own hbody =>
      exact absurd (hbody w (by simp [hsplit])) (not_wellFormed_of_firstOffence hw)
    | within hsplit' hbefore' hw' =>
      have hsame := first_unique (hsplit.symm.trans hsplit') hbefore hbefore'
        (not_wellFormed_of_firstOffence hw) (not_wellFormed_of_firstOffence hw')
      subst hsame
      exact ih hw'

end Step
end TopicLoad
