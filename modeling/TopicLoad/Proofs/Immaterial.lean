import TopicLoad.Proofs.Grammar

/-! Members that do not bear on how a step is read. The first member that counts tells the step; members of
lower rank, members that count as absent and members of a message that are no fields of it may be bound,
changed or unbound. Such edits, however many and at whatever depth, leave the same to be read, but for a
step that is not recognized: it keeps the value it was read from. -/
namespace TopicLoad

namespace Keyed

variable {α : Type}

theorem get?_filter (p : String → Bool) (m : Keyed α) (k : String) :
    get? (m.filter fun e => p e.1) k = if p k then get? m k else none := by
  induction m with
  | nil => simp
  | cons e m ih =>
    obtain ⟨j, w⟩ := e
    rw [List.filter_cons]
    by_cases hj : p j = true
    · by_cases hjk : j = k
      · simp [← hjk, hj]
      · simp [hj, hjk, ih]
    · by_cases hjk : j = k
      · have hk : ¬ p k = true := hjk ▸ hj
        simp [hj, hk, ih]
      · simp [hj, hjk, ih]

def select (names : List String) (m : Keyed α) : Keyed α :=
  names.filterMap fun name => (m.get? name).map (name, ·)

theorem select_cons_of_none {name : String} {m : Keyed α} (h : m.get? name = none) (names : List String) :
    select (name :: names) m = select names m := by
  simp [select, h]

theorem select_cons_of_some {name : String} {m : Keyed α} {v : α} (h : m.get? name = some v)
    (names : List String) : select (name :: names) m = (name, v) :: select names m := by
  simp [select, h]

theorem get?_select (names : List String) (m : Keyed α) (k : String) :
    get? (select names m) k = if k ∈ names then get? m k else none := by
  induction names with
  | nil => simp [select]
  | cons name names ih =>
    by_cases hk : name = k
    · cases hname : m.get? name with
      | none =>
        rw [select_cons_of_none hname, ih]
        simp [← hk, hname]
      | some v =>
        rw [select_cons_of_some hname, get?_cons, if_pos hk]
        simp [← hk, hname]
    · cases hname : m.get? name with
      | none =>
        rw [select_cons_of_none hname, ih]
        simp [Ne.symm hk]
      | some v =>
        rw [select_cons_of_some hname, get?_cons, if_neg hk, ih]
        simp [Ne.symm hk]

theorem ordered_select {names : List String} (h : names.Pairwise (· < ·)) (m : Keyed α) :
    Ordered (select names m) := by
  refine List.Pairwise.filterMap _ (fun j k hjk e he d hd => ?_) h
  obtain ⟨v, -, rfl⟩ := Option.map_eq_some_iff.mp he
  obtain ⟨w, -, rfl⟩ := Option.map_eq_some_iff.mp hd
  exact hjk

theorem filter_eq_select {names : List String} (h : names.Pairwise (· < ·)) {m : Keyed α}
    (hm : m.Ordered) : (m.filter fun e => names.contains e.1) = select names m := by
  refine eq_of_get?_eq (hm.filter _) (ordered_select h m) fun k => ?_
  rw [get?_filter, get?_select]
  simp

end Keyed
namespace Json

variable {ms : Keyed Json}

theorem present_set (hms : ms.Ordered) (name : String) (o : Option Json) (k : String) :
    present (ms.set name o) k = if name = k then o.filter fun v => !v.isNull else present ms k := by
  by_cases hk : name = k
  · simp [present, Keyed.get?_set hms, hk]
  · simp [present, Keyed.get?_set hms, hk]

theorem present_set_of_ne (hms : ms.Ordered) {name k : String} (o : Option Json) (h : name ≠ k) :
    present (ms.set name o) k = present ms k := by
  rw [present_set hms, if_neg h]

theorem filter_not_null {o : Option Json} (h : ∀ v, o = some v → v = .null) :
    (o.filter fun v => !v.isNull) = none := by
  cases o with
  | none => rfl
  | some v => simp [h v rfl, isNull]

theorem present_set_of_null (hms : ms.Ordered) {name k : String} {o : Option Json}
    (h : name = k → (∀ v, ms.get? name = some v → v = .null) ∧ ∀ v, o = some v → v = .null) :
    present (ms.set name o) k = present ms k := by
  by_cases hk : name = k
  · subst hk
    obtain ⟨hold, hnew⟩ := h rfl
    have hbefore : present ms name = none := filter_not_null hold
    rw [present_set hms, if_pos rfl, filter_not_null hnew, hbefore]
  · exact present_set_of_ne hms o hk

theorem Decoder.named_filter {α : Type} (fields : List (String × Decoder (α → α))) (a : α)
    (ms : List (String × Json)) :
    named fields a ms = named fields a (ms.filter fun m => (fields.lookup m.1).isSome) := by
  induction ms generalizing a with
  | nil => rfl
  | cons m ms ih =>
    obtain ⟨name, v⟩ := m
    rw [List.filter_cons]
    cases hread : fields.lookup name with
    | none => simp [named, hread, ih a]
    | some read =>
      cases hv : read.decode v with
      | error e => simp [named, hread, hv, bind, Except.bind]
      | ok store => simp [named, hread, hv, bind, Except.bind, ih (store a)]

theorem Decoder.named_select_cons {α β : Type} {fields : List (String × Decoder (α → α))} {name : String}
    {read : Decoder (Option β)} {store : Option β → α → α} {a : α}
    (hread : fields.lookup name = some (Source.field name read store).2)
    (hnull : read.decode .null = .ok none) (hunset : store none a = a) (names : List String)
    (ms : Keyed Json) :
    named fields a (ms.select (name :: names)) =
      read.decode ((ms.get? name).getD .null) >>= fun b => named fields (store b a) (ms.select names) := by
  cases hv : ms.get? name with
  | none =>
    rw [Keyed.select_cons_of_none hv, Option.getD_none, hnull]
    exact congrArg (named fields · _) hunset.symm
  | some v =>
    rw [Keyed.select_cons_of_some hv, Option.getD_some]
    cases hb : read.decode v with
    | error e =>
      have hstored : (Source.field name read store).2.decode v = .error e :=
        congrArg (store <$> ·) hb
      simp [named, hread, hstored, bind, Except.bind]
    | ok b =>
      rw [named_cons hread (field_decode name hb)]
      rfl

end Json
namespace MessageSpec

open Json.Decoder

variable {ms ms' : Keyed Json}

def fieldNames : List String := ["attributes", "json", "multiplier"]

/-- A field that is left out reads as `null`. -/
def given (ms : Keyed Json) (name : String) : Json := (Json.present ms name).getD .null

theorem given_eq (ms : Keyed Json) (name : String) : given ms name = (ms.get? name).getD .null := by
  cases hv : ms.get? name with
  | none => simp [given, Json.present, hv]
  | some v => cases v <;> simp [given, Json.present, hv, Json.isNull, Option.filter]

theorem fieldNames_ascend : fieldNames.Pairwise (· < ·) := by
  have hattributes : "attributes" < "json" := by decide +kernel
  have hjson : "json" < "multiplier" := by decide +kernel
  refine .cons ?_ (.cons ?_ (List.pairwise_singleton _ _))
  · exact List.forall_mem_cons.mpr
      ⟨hattributes, List.forall_mem_singleton.mpr (String.lt_trans hattributes hjson)⟩
  · exact List.forall_mem_singleton.mpr hjson

def ofGiven (value : String → Json) : Except Mismatch MessageSpec := do
  let attributes ← optional ⟨table ⟨text⟩⟩ (value "attributes")
  let json ← optional ⟨.ok⟩ (value "json")
  let multiplier ← optional ⟨whole⟩ (value "multiplier")
  .ok { json, multiplier, attributes }

def fields : List (String × Json.Decoder (MessageSpec → MessageSpec)) :=
  [ Source.field "json" (Source.optional Source.any) fun v m => { m with json := v },
    Source.field "multiplier" (Source.optional Source.whole) fun n m => { m with multiplier := n },
    Source.field "attributes" (Source.optional (Source.table Source.text)) fun a m =>
      { m with attributes := a } ]

theorem lookup_isSome (name : String) : (fields.lookup name).isSome = fieldNames.contains name := by
  simp only [fields, Source.field, List.lookup_cons, List.lookup_nil, fieldNames, List.contains_cons,
    List.contains_nil]
  cases name == "json" <;> cases name == "multiplier" <;> cases name == "attributes" <;> rfl

theorem decode_source (hms : ms.Ordered) :
    (source : Json.Decoder MessageSpec).decode (.obj ms) = ofGiven (given ms) := by
  have hnamed : (source : Json.Decoder MessageSpec).decode (.obj ms) =
      named fields {} (ms.select fieldNames) := by
    refine (named_filter fields {} ms).trans ?_
    simp only [lookup_isSome]
    rw [Keyed.filter_eq_select fieldNames_ascend hms]
  simp only [ofGiven, given_eq]
  rw [hnamed, fieldNames, named_select_cons rfl rfl rfl]
  refine bind_congr fun attributes => ?_
  rw [named_select_cons rfl rfl rfl]
  refine bind_congr fun json => ?_
  rw [named_select_cons rfl rfl rfl]
  rfl

theorem decode_congr (hms : ms.Ordered) (hms' : ms'.Ordered)
    (h : ∀ name ∈ fieldNames, Json.present ms name = Json.present ms' name) :
    (source : Json.Decoder MessageSpec).decode (.obj ms) =
      (source : Json.Decoder MessageSpec).decode (.obj ms') := by
  have hattributes := h "attributes" (by decide)
  have hjson := h "json" (by decide)
  have hmultiplier := h "multiplier" (by decide)
  rw [decode_source hms, decode_source hms']
  simp only [ofGiven, given, hattributes, hjson, hmultiplier]

end MessageSpec
namespace Step

variable {ms ms' : Keyed Json}

/-! ## Edits -/

/-- A member that counts as absent: it is `null`, or it is to name a function or a message and is not
set. -/
def Idle (name : String) (v : Json) : Prop :=
  v = .null ∨ (name = "function" ∨ name = "message") ∧ v.isSet = false

def Mark.earlier : Mark → List Mark
  | loop => []
  | log => [loop]
  | think => [loop, log]
  | function => [loop, log, think]
  | message => [loop, log, think, function]

theorem Mark.ne_of_mem_earlier {j k : Mark} (h : j ∈ k.earlier) : j ≠ k := by
  rintro rfl
  cases j <;> simp [earlier] at h

theorem Mark.name_injective {j k : Mark} (h : j.name = k.name) : j = k := by
  cases j <;> cases k <;> simp [name] at h ⊢

/-- The members that bear on a step that is told by a mark: its own and those that are looked at before it,
and the count of a loop. -/
def Mark.bearing (k : Mark) : List String :=
  (k :: k.earlier).map name ++ if k = loop then ["count"] else []

/-- A change that does not bear on how a step is read. One member of a step, or of the message or of one
of the steps within it, is bound, changed or unbound. -/
inductive Edit : Json → Json → Prop where
  /-- What counts as absent becomes something else that does. -/
  | idle {ms : Keyed Json} (hms : ms.Ordered) {name : String} {o : Option Json}
    (hold : ∀ v, ms.get? name = some v → Idle name v) (hnew : ∀ v, o = some v → Idle name v) :
    Edit (.obj ms) (.obj (ms.set name o))
  /-- Another member has told the step before this one is looked at. -/
  | lower {ms : Keyed Json} (hms : ms.Ordered) {k : Mark} {v : Json} (hmark : mark? ms = some (k, v))
    {name : String} (hname : name ∉ k.bearing) (o : Option Json) :
    Edit (.obj ms) (.obj (ms.set name o))
  /-- No member tells a step, and this one cannot either. -/
  | unmarked {ms : Keyed Json} (hms : ms.Ordered) (hmark : mark? ms = none) {name : String}
    (hname : name ∉ Mark.all.map Mark.name) (o : Option Json) : Edit (.obj ms) (.obj (ms.set name o))
  /-- The message has no such field, or the field is and stays absent or `null`. -/
  | field {ms : Keyed Json} (hms : ms.Ordered) {members : Keyed Json} (hmembers : members.Ordered)
    (hmark : mark? ms = some (.message, .obj members)) {name : String} {o : Option Json}
    (hname : name ∈ MessageSpec.fieldNames →
      (∀ v, members.get? name = some v → v = .null) ∧ ∀ v, o = some v → v = .null) :
    Edit (.obj ms) (.obj (ms.set "message" (some (.obj (members.set name o)))))
  /-- One of the steps of a loop is edited. -/
  | within {ms : Keyed Json} (hms : ms.Ordered) {before after : List Json} {w w' : Json}
    (hmark : mark? ms = some (.loop, .arr (before ++ w :: after))) (hw : Edit w w') :
    Edit (.obj ms) (.obj (ms.set "loop" (some (.arr (before ++ w' :: after)))))

/-! ## What is read -/

mutual

/-- A step in which the objects that were not recognized are all the same. -/
def bare : Step → Step
  | .loop steps count => .loop (bareAll steps) count
  | .unrecognized (.obj _) => .unrecognized (.obj [])
  | s => s

def bareAll : List Step → List Step
  | [] => []
  | s :: ss => s.bare :: bareAll ss

end

/-- What was not recognized in a step is the value that it was read from. -/
inductive Retains : Json → Step → Prop where
  | loop {v : Json} {steps : List Step} {count : LoopCount}
    (h : List.Forall₂ Retains (body v) steps) : Retains v (.loop steps count)
  | think (v : Json) (d : Duration) : Retains v (.think d)
  | function (v : Json) (name : String) : Retains v (.function name)
  | log (v : Json) (text : String) : Retains v (.log text)
  | message (v : Json) (spec : MessageSpec) : Retains v (.message spec)
  | unrecognized (v : Json) : Retains v (.unrecognized v)

theorem forall₂_of_ofItems {R : Json → Step → Prop} {vs : List Json} {ss : List Step}
    (h : ofItems vs = .ok ss) (hR : ∀ v ∈ vs, ∀ s, ofJson v = .ok s → R v s) :
    List.Forall₂ R vs ss := by
  induction vs generalizing ss with
  | nil =>
    cases h
    exact .nil
  | cons v vs ih =>
    obtain ⟨hv, hvs⟩ := List.forall_mem_cons.mp hR
    rw [ofItems] at h
    cases hs : ofJson v with
    | error f => simp [hs] at h
    | ok s =>
      cases hss : ofItems vs with
      | error f => simp [hs, hss] at h
      | ok ss' =>
        simp only [hs, hss, Except.ok.injEq] at h
        exact h ▸ .cons (hv s hs) (ih hss hvs)

theorem retains_of_ok {v : Json} {s : Step} (h : ofJson v = .ok s) : Retains v s := by
  -- By induction on why the value is well-formed, which it is since it was read.
  induction wellFormed_of_ok h generalizing s with
  | @other v hv =>
    cases v with
    | obj ms => exact absurd rfl (hv ms)
    | _ =>
      cases h
      exact .unrecognized _
  | unmarked hmark =>
    rw [ofJson_obj, hmark] at h
    cases h
    exact .unrecognized _
  | @loop ms items hmark _ _ ih =>
    rw [ofJson_obj, hmark] at h
    cases hitems : ofItems items with
    | error f => simp [hitems] at h
    | ok steps =>
      cases hcount : ofCount ms with
      | error f => simp [hitems, hcount] at h
      | ok count =>
        simp only [hitems, hcount, Except.ok.injEq] at h
        subst h
        have hsteps := forall₂_of_ofItems hitems fun v hv s hs => ih v hv hs
        exact .loop ((body_eq hmark).symm ▸ hsteps)
  | @log ms v hmark =>
    rw [ofJson_obj, hmark] at h
    cases h
    exact .log _ _
  | @think ms v hmark hv =>
    obtain ⟨d, hd⟩ := hv
    rw [ofJson_obj, hmark] at h
    simp only [hd, Except.ok.injEq] at h
    exact h ▸ .think _ d
  | @function ms v hmark =>
    rw [ofJson_obj, hmark] at h
    cases hname : functionName? v with
    | none =>
      simp only [hname, Except.ok.injEq] at h
      exact h ▸ .unrecognized _
    | some name =>
      simp only [hname, Except.ok.injEq] at h
      exact h ▸ .function _ name
  | @message ms v hmark _ =>
    rw [ofJson_obj, hmark] at h
    cases hspec : ofMessage v with
    | error f => simp [hspec, Functor.map, Except.map] at h
    | ok spec =>
      simp only [hspec, Functor.map, Except.map, Except.ok.injEq] at h
      exact h ▸ .message _ spec

/-! ## Reading what was edited -/

theorem value?_set (hms : ms.Ordered) (k : Mark) (name : String) (o : Option Json) :
    Mark.value? (ms.set name o) k =
      if name = k.name then (o.filter fun v => !v.isNull).filter k.counts else Mark.value? ms k := by
  rw [Mark.value?, Json.present_set hms]
  by_cases hk : name = k.name <;> simp [hk, Mark.value?]

theorem value?_set_of_ne (hms : ms.Ordered) {k : Mark} {name : String} (o : Option Json)
    (h : name ≠ k.name) : Mark.value? (ms.set name o) k = Mark.value? ms k := by
  rw [value?_set hms, if_neg h]

theorem filter_counts_of_idle {k : Mark} {o : Option Json} (h : ∀ v, o = some v → Idle k.name v) :
    (o.filter fun v => !v.isNull).filter k.counts = none := by
  cases o with
  | none => rfl
  | some v =>
    rcases h v rfl with rfl | ⟨hk, hv⟩
    · rfl
    · have hcounts : k.counts v = false := by cases k <;> simp [Mark.name] at hk <;> exact hv
      cases hnull : v.isNull <;> simp [hnull, hcounts]

theorem mark?_eq_some_iff {k : Mark} {v : Json} : mark? ms = some (k, v) ↔
    Mark.value? ms k = some v ∧ ∀ j ∈ k.earlier, Mark.value? ms j = none := by
  simp only [mark?, Mark.all, List.findSome?_cons, List.findSome?_nil]
  generalize Mark.value? ms = value?
  cases k <;> cases hloop : value? .loop <;> cases hlog : value? .log <;>
    cases hthink : value? .think <;> cases hfunction : value? .function <;>
    cases hmessage : value? .message <;> simp [Mark.earlier, *]

theorem mark?_eq_none_iff : mark? ms = none ↔ ∀ k : Mark, Mark.value? ms k = none := by
  simp only [mark?, List.findSome?_eq_none_iff, Option.map_eq_none_iff]
  refine ⟨fun h k => h k ?_, fun h k _ => h k⟩
  cases k <;> simp [Mark.all]

/-- Objects that are told by the same mark and value are read alike, loops if they have the same count. -/
theorem map_bare_of_mark (hmark : mark? ms' = mark? ms)
    (hcount : (∃ v, mark? ms = some (.loop, v)) → ofCount ms' = ofCount ms) :
    (ofJson (.obj ms')).map bare = (ofJson (.obj ms)).map bare := by
  rw [ofJson_obj, ofJson_obj, hmark]
  cases hm : mark? ms with
  | none => rfl
  | some told =>
    obtain ⟨k, v⟩ := told
    cases k with
    | loop =>
      have hsame := hcount ⟨v, hm⟩
      cases v with
      | arr items => simp only [hsame]
      | _ => rfl
    | function =>
      cases hname : functionName? v with
      | none => simp only [hname]; rfl
      | some name => simp only [hname]
    | _ => rfl

theorem ofCount_congr (h : Json.present ms' "count" = Json.present ms "count") :
    ofCount ms' = ofCount ms := by
  rw [ofCount, ofCount, h]

theorem mark?_set_of_not_bearing (hms : ms.Ordered) {k : Mark} {v : Json}
    (hmark : mark? ms = some (k, v)) {name : String} (hname : name ∉ k.bearing) (o : Option Json) :
    mark? (ms.set name o) = some (k, v) := by
  obtain ⟨hself, hearlier⟩ := mark?_eq_some_iff.mp hmark
  have hother (j : Mark) (hj : j ∈ k :: k.earlier) : name ≠ j.name := by
    rintro rfl
    exact hname (List.mem_append_left _ (List.mem_map_of_mem hj))
  refine mark?_eq_some_iff.mpr ⟨?_, fun j hj => ?_⟩
  · rw [value?_set_of_ne hms o (hother k List.mem_cons_self), hself]
  · rw [value?_set_of_ne hms o (hother j (List.mem_cons_of_mem k hj)), hearlier j hj]

theorem mark?_set_self (hms : ms.Ordered) {k : Mark} {v w : Json} (hmark : mark? ms = some (k, v))
    (hnull : w.isNull = false) (hcounts : k.counts w = true) :
    mark? (ms.set k.name (some w)) = some (k, w) := by
  obtain ⟨-, hearlier⟩ := mark?_eq_some_iff.mp hmark
  refine mark?_eq_some_iff.mpr ⟨?_, fun j hj => ?_⟩
  · simp [value?_set hms, hnull, hcounts]
  · have hne : k.name ≠ j.name := fun h => Mark.ne_of_mem_earlier hj (Mark.name_injective h).symm
    rw [value?_set_of_ne hms _ hne, hearlier j hj]

theorem map_bareAll_cons (v : Json) (vs : List Json) :
    (ofItems (v :: vs)).map bareAll =
      (ofJson v).map bare >>= fun s => (ofItems vs).map bareAll >>= fun ss => .ok (s :: ss) := by
  rw [ofItems]
  cases ofJson v with
  | error f => rfl
  | ok s => cases ofItems vs <;> rfl

theorem map_bareAll_congr {w w' : Json} (h : (ofJson w').map bare = (ofJson w).map bare)
    (before after : List Json) :
    (ofItems (before ++ w' :: after)).map bareAll = (ofItems (before ++ w :: after)).map bareAll := by
  induction before with
  | nil => rw [List.nil_append, List.nil_append, map_bareAll_cons, map_bareAll_cons, h]
  | cons v before ih => rw [List.cons_append, List.cons_append, map_bareAll_cons, map_bareAll_cons, ih]

theorem map_bare_loop {items : List Json} (hmark : mark? ms = some (.loop, .arr items)) :
    (ofJson (.obj ms)).map bare =
      (ofItems items).map bareAll >>= fun ss => ofCount ms >>= fun count => .ok (.loop ss count) := by
  rw [ofJson_obj, hmark]
  simp only
  cases ofItems items with
  | error f => rfl
  | ok ss => cases ofCount ms <;> rfl

theorem Edit.map_bare {v v' : Json} (h : Edit v v') : (ofJson v').map bare = (ofJson v).map bare := by
  induction h with
  | @idle ms hms name o hold hnew =>
    -- The member that was edited counted for nothing before, and it counts for nothing now.
    have hvalue (k : Mark) : Mark.value? (ms.set name o) k = Mark.value? ms k := by
      by_cases hk : name = k.name
      · subst hk
        have hbefore : Mark.value? ms k = none := filter_counts_of_idle hold
        rw [value?_set hms, if_pos rfl, filter_counts_of_idle hnew, hbefore]
      · exact value?_set_of_ne hms o hk
    have hcount : Json.present (ms.set name o) "count" = Json.present ms "count" := by
      refine Json.present_set_of_null hms fun hk => ?_
      have hnull {v : Json} (hv : Idle name v) : v = .null := by
        rcases hv with hv | ⟨hfunction, -⟩
        · exact hv
        · simp [hk] at hfunction
      exact ⟨fun v hv => hnull (hold v hv), fun v hv => hnull (hnew v hv)⟩
    have hmark : mark? (ms.set name o) = mark? ms := by simp only [mark?, hvalue]
    exact map_bare_of_mark hmark fun _ => ofCount_congr hcount
  | @lower ms hms k v hmark name hname o =>
    refine map_bare_of_mark ((mark?_set_of_not_bearing hms hmark hname o).trans hmark.symm) ?_
    rintro ⟨w, hw⟩
    obtain rfl : k = .loop := congrArg Prod.fst (Option.some.inj (hmark.symm.trans hw))
    have hcount : name ≠ "count" := by
      rintro rfl
      simp [Mark.bearing] at hname
    exact ofCount_congr (Json.present_set_of_ne hms o hcount)
  | @unmarked ms hms hmark name hname o =>
    have hafter : mark? (ms.set name o) = none := by
      refine mark?_eq_none_iff.mpr fun k => ?_
      have hne : name ≠ k.name := by
        rintro rfl
        exact hname (List.mem_map_of_mem (by cases k <;> simp [Mark.all]))
      rw [value?_set_of_ne hms o hne, mark?_eq_none_iff.mp hmark k]
    refine map_bare_of_mark (hafter.trans hmark.symm) ?_
    simp [hmark]
  | @field ms hms members hmembers hmark name o hname =>
    have hafter : mark? (ms.set "message" (some (.obj (members.set name o)))) =
        some (.message, .obj (members.set name o)) := mark?_set_self hms hmark rfl rfl
    have hgiven (k : String) (hk : k ∈ MessageSpec.fieldNames) :
        Json.present (members.set name o) k = Json.present members k :=
      Json.present_set_of_null hmembers fun hname' => hname (hname' ▸ hk)
    have hmessage : ofMessage (.obj (members.set name o)) = ofMessage (.obj members) := by
      simp only [ofMessage,
        MessageSpec.decode_congr (Keyed.ordered_set name o hmembers) hmembers hgiven]
    rw [ofJson_obj, ofJson_obj, hmark, hafter]
    simp only [hmessage]
  | @within ms hms before after w w' hmark hw ih =>
    have hafter : mark? (ms.set "loop" (some (.arr (before ++ w' :: after)))) =
        some (.loop, .arr (before ++ w' :: after)) := mark?_set_self hms hmark rfl rfl
    have hcount : ofCount (ms.set "loop" (some (.arr (before ++ w' :: after)))) = ofCount ms :=
      ofCount_congr (Json.present_set_of_ne hms _ (by decide))
    rw [map_bare_loop hafter, map_bare_loop hmark, map_bareAll_congr ih before after, hcount]

/-- However a step is edited in what does not bear on how it is read: it is refused for the same reason as
before, or the same step is read as before, but that an object that is not recognized, at whatever depth,
is kept as it then is. -/
theorem reading_ignores_immaterial_members {v v' : Json} (h : Relation.ReflTransGen Edit v v') :
    (∃ f, ofJson v = .error f ∧ ofJson v' = .error f) ∨
      ∃ s s', ofJson v = .ok s ∧ ofJson v' = .ok s' ∧ s'.bare = s.bare ∧
        Retains v s ∧ Retains v' s' := by
  have hread : (ofJson v').map bare = (ofJson v).map bare := by
    induction h with
    | refl => rfl
    | tail _ hedit ih => exact hedit.map_bare.trans ih
  cases hv : ofJson v with
  | error f =>
    cases hv' : ofJson v' with
    | error g =>
      have hfg : g = f := by simpa [hv, hv', Except.map] using hread
      exact .inl ⟨f, rfl, hfg ▸ rfl⟩
    | ok s' => simp [hv, hv', Except.map] at hread
  | ok s =>
    cases hv' : ofJson v' with
    | error g => simp [hv, hv', Except.map] at hread
    | ok s' =>
      have hsame : s'.bare = s.bare := by simpa [hv, hv', Except.map] using hread
      exact .inr ⟨s, s', rfl, rfl, hsame, retains_of_ok hv, retains_of_ok hv'⟩

/-- In a loop a function that is not set is left out, a message gets a member it has no field for in place
of one that is `null`, an object that is not recognized gets another value, and the loop itself a line to
be logged. -/
theorem edited_loop_reads_alike :
    ∃ v v', v = .obj [("loop", .arr
        [ .obj [("function", .str ""), ("message", .obj [("multiplier", .null)])],
          .obj [("other", .bool false)] ])] ∧
      v' = .obj [("log", .str "line"), ("loop", .arr
        [.obj [("message", .obj [("note", .bool true)])], .obj [("other", .bool true)]])] ∧
      Relation.ReflTransGen Edit v v' ∧
      ∃ s s', ofJson v = .ok s ∧ ofJson v' = .ok s' ∧ s'.bare = s.bare ∧
        s = .loop [.message {}, .unrecognized (.obj [("other", .bool false)])] .infinite ∧
        Retains v' s' := by
  have hsingle (name : String) (v : Json) : Keyed.Ordered [(name, v)] := List.pairwise_singleton _ _
  have hlog : "log" < "loop" := by decide +kernel
  have hfunction : "function" < "message" := by decide +kernel
  have hboth (v w : Json) : Keyed.Ordered [("function", v), ("message", w)] :=
    Keyed.ordered_cons_iff.mpr ⟨List.forall_mem_singleton.mpr hfunction, hsingle _ _⟩
  let inner₀ : Json := .obj [("function", .str ""), ("message", .obj [("multiplier", .null)])]
  let inner₁ : Json := .obj [("message", .obj [("multiplier", .null)])]
  let inner₂ : Json := .obj [("message", .obj [])]
  let inner₃ : Json := .obj [("message", .obj [("note", .bool true)])]
  let other (b : Bool) : Json := .obj [("other", .bool b)]
  let outer (v w : Json) : Json := .obj [("loop", .arr [v, w])]
  have hunset : Edit inner₀ inner₁ :=
    @Edit.idle _ (hboth _ _) "function" none
      (fun v (hv : some (Json.str "") = some v) => Option.some.inj hv ▸ .inr ⟨.inl rfl, rfl⟩) (by simp)
  have hnull : Edit inner₁ inner₂ :=
    @Edit.field _ (hsingle _ _) [("multiplier", .null)] (hsingle _ _) rfl "multiplier" none fun _ =>
      ⟨fun v (hv : some Json.null = some v) => (Option.some.inj hv).symm, by simp⟩
  have hnote : Edit inner₂ inner₃ :=
    @Edit.field _ (hsingle _ _) [] .nil rfl "note" (some (.bool true)) fun hname =>
      absurd hname (by decide)
  have hother : Edit (other false) (other true) :=
    @Edit.unmarked _ (hsingle _ _) rfl "other" (by decide) (some (.bool true))
  have hfirst {v v' : Json} (hv : Edit v v') (w : Json) : Edit (outer v w) (outer v' w) :=
    @Edit.within _ (hsingle _ _) [] [w] v v' rfl hv
  have hsecond {w w' : Json} (hw : Edit w w') (v : Json) : Edit (outer v w) (outer v w') :=
    @Edit.within _ (hsingle _ _) [v] [] w w' rfl hw
  have hline : Edit (outer inner₃ (other true))
      (.obj [("log", .str "line"), ("loop", .arr [inner₃, other true])]) := by
    have hset : Keyed.set "log" (some (Json.str "line")) [("loop", Json.arr [inner₃, other true])] =
        [("log", .str "line"), ("loop", .arr [inner₃, other true])] := by
      simp [Keyed.set, Keyed.insert, hlog]
    exact hset ▸ @Edit.lower _ (hsingle _ _) .loop _ rfl "log" (by decide) (some (.str "line"))
  have hedits : Relation.ReflTransGen Edit (outer inner₀ (other false))
      (.obj [("log", .str "line"), ("loop", .arr [inner₃, other true])]) :=
    .head (hfirst hunset _) <| .head (hfirst hnull _) <| .head (hfirst hnote _) <|
      .head (hsecond hother _) <| .single hline
  obtain ⟨f, hf, -⟩ | ⟨s, s', hs, hs', hsame, -, hkept⟩ := reading_ignores_immaterial_members hedits
  · cases hf
  · have hread : ofJson (outer inner₀ (other false)) =
        .ok (.loop [.message {}, .unrecognized (other false)] .infinite) := rfl
    rw [hread] at hs
    exact ⟨_, _, rfl, rfl, hedits, s, s', hs ▸ hread, hs', hsame, (Except.ok.inj hs).symm, hkept⟩

end Step
end TopicLoad
