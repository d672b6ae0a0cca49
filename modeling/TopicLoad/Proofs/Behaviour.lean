import TopicLoad.Proofs.Serving

/-! Behaviours: what can be seen of a piece of work up to some moment, and how the work stands then.
The behaviour of work that is made of parts is put together from the behaviours of the parts. -/
namespace TopicLoad
namespace Engine

/-- How a piece of work stands: it goes on, or it has ended, with or without a failure. -/
inductive Outcome where
  | underway
  | ended (failure : Option Fault) (c : Context)

/-- Which histories can be seen, and how the work stands after each. -/
abbrev Behaviour := History → Outcome → Prop

namespace Behaviour

inductive Idle (c : Context) : Behaviour where
  | underway : Idle c [] .underway
  | ended : Idle c [] (.ended none c)

/-- One piece of work, and another one if the first ends without a failure. -/
inductive AndThen (p : Behaviour) (q : Context → Behaviour) : Behaviour where
  | underway {hs : History} (h : p hs .underway) : AndThen p q hs .underway
  | failed {hs : History} {f : Fault} {c : Context} (h : p hs (.ended (some f) c)) :
    AndThen p q hs (.ended (some f) c)
  | passed {hs hs' : History} {c : Context} {o : Outcome} (h : p hs (.ended none c))
    (h' : q c hs' o) : AndThen p q (hs ++ hs') o

/-- A piece of work after which the context is changed, however the work ends. -/
inductive Closing (p : Behaviour) (f : Context → Context) : Behaviour where
  | underway {hs : History} (h : p hs .underway) : Closing p f hs .underway
  | ended {hs : History} {e : Option Fault} {c d : Context} (h : p hs (.ended e c)) (hd : d = f c) :
    Closing p f hs (.ended e d)

/-- One piece of work, and another one however the first ends. -/
inductive Followed (p : Behaviour) (q : Option Fault → Context → Behaviour) : Behaviour where
  | underway {hs : History} (h : p hs .underway) : Followed p q hs .underway
  | ended {hs hs' : History} {e : Option Fault} {c : Context} {o : Outcome} (h : p hs (.ended e c))
    (h' : q e c hs' o) : Followed p q (hs ++ hs') o

/-- What can be seen in histories of a kind if some happenings are not looked at. -/
inductive Seen (allowed : Happening → Prop) (looked : Happening → Bool) (p : Behaviour) :
    Behaviour where
  | intro {hs : History} {o : Outcome} (h : p hs o) (ha : ∀ a ∈ hs, allowed a) :
    Seen allowed looked p (hs.filter looked) o

theorem ext {p q : Behaviour} (h : ∀ hs o, p hs o ↔ q hs o) : p = q :=
  funext fun hs => funext fun o => propext (h hs o)

variable {p p' : Behaviour} {q q' : Context → Behaviour} {f g : Context → Context} {c : Context}

theorem andThen_assoc (p : Behaviour) (q q' : Context → Behaviour) :
    AndThen (AndThen p q) q' = AndThen p fun c => AndThen (q c) q' := by
  refine ext fun hs o => ⟨?_, ?_⟩
  · rintro (h | h | ⟨h, h'⟩)
    · cases h with
      | underway h => exact .underway h
      | passed h h' => exact .passed h (.underway h')
    · cases h with
      | failed h => exact .failed h
      | passed h h' => exact .passed h (.failed h')
    · cases h with
      | passed h h₁ =>
        rw [List.append_assoc]
        exact .passed h (.passed h₁ h')
  · rintro (h | h | ⟨h, h'⟩)
    · exact .underway (.underway h)
    · exact .failed (.failed h)
    · cases h' with
      | underway h' => exact .underway (.passed h h')
      | failed h' => exact .failed (.passed h h')
      | passed h₁ h' =>
        rw [← List.append_assoc]
        exact .passed (.passed h h₁) h'

theorem idle_andThen (h : q c [] .underway) : AndThen (Idle c) q = q c := by
  refine ext fun hs o => ⟨?_, fun h' => ?_⟩
  · rintro (h' | h' | ⟨h', hq⟩)
    · cases h'
      exact h
    · cases h'
    · cases h'
      exact hq
  · have hall : AndThen (Idle c) q ([] ++ hs) o := .passed .ended h'
    exact hall

theorem andThen_idle (h : ∀ hs c, p hs (.ended none c) → p hs .underway) : AndThen p Idle = p := by
  refine ext fun hs o => ⟨?_, fun hp => ?_⟩
  · rintro (hp | hp | ⟨hp, h'⟩)
    · exact hp
    · exact hp
    · cases h' with
      | underway => exact (List.append_nil _).symm ▸ h _ _ hp
      | ended => exact (List.append_nil _).symm ▸ hp
  · cases o with
    | underway => exact .underway hp
    | ended e c =>
      cases e with
      | some f => exact .failed hp
      | none => exact List.append_nil hs ▸ .passed hp .ended

theorem closing_idle : Closing (Idle c) f = Idle (f c) := by
  refine ext fun hs o => ⟨?_, ?_⟩
  · rintro (h | ⟨h, rfl⟩) <;> cases h
    · exact .underway
    · exact .ended
  · rintro (_ | _)
    · exact .underway .underway
    · exact .ended .ended rfl

theorem closing_eq_self (h : ∀ hs e c, p hs (.ended e c) → f c = c) : Closing p f = p := by
  refine ext fun hs o => ⟨?_, fun hp => ?_⟩
  · rintro (hp | ⟨hp, rfl⟩)
    · exact hp
    · exact (h _ _ _ hp).symm ▸ hp
  · cases o with
    | underway => exact .underway hp
    | ended e c => exact .ended hp (h _ _ _ hp).symm

theorem andThen_closing (hq : ∀ c, q (f c) = Closing (q' c) f) :
    AndThen (Closing p f) q = Closing (AndThen p q') f := by
  refine ext fun hs o => ⟨?_, ?_⟩
  · rintro (h | h | ⟨h, h'⟩)
    · cases h with
      | underway h => exact .underway (.underway h)
    · obtain _ | ⟨h, rfl⟩ := h
      exact .ended (.failed h) rfl
    · obtain _ | ⟨h, rfl⟩ := h
      rw [hq] at h'
      cases h' with
      | underway h' => exact .underway (.passed h h')
      | ended h' hd => exact .ended (.passed h h') hd
  · rintro (h | ⟨h, rfl⟩)
    · cases h with
      | underway h => exact .underway (.underway h)
      | passed h h' => exact .passed (.ended h rfl) ((hq _).symm ▸ .underway h')
    · cases h with
      | failed h => exact .failed (.ended h rfl)
      | passed h h' => exact .passed (.ended h rfl) ((hq _).symm ▸ .ended h' rfl)

/-- What a first piece of work does to its context at its end goes unnoticed if the change that comes
last undoes it and a second piece of work does not see it. -/
theorem closing_closing_andThen (hg : ∀ c, g (f c) = g c)
    (hq : ∀ c, Closing (q (f c)) g = Closing (q' c) g) :
    Closing (AndThen (Closing p f) q) g = Closing (AndThen p q') g := by
  refine ext fun hs o => ⟨?_, ?_⟩
  · rintro (h | ⟨h, rfl⟩)
    · cases h with
      | underway h =>
        cases h with
        | underway h => exact .underway (.underway h)
      | passed h h' =>
        obtain _ | ⟨h, rfl⟩ := h
        have hr := hq _ ▸ Closing.underway (f := g) h'
        cases hr with
        | underway hr => exact .underway (.passed h hr)
    · cases h with
      | failed h =>
        obtain _ | ⟨h, rfl⟩ := h
        exact .ended (.failed h) (hg _)
      | passed h h' =>
        obtain _ | ⟨h, rfl⟩ := h
        have hr := hq _ ▸ Closing.ended (f := g) h' rfl
        cases hr with
        | ended hr hd => exact .ended (.passed h hr) hd
  · rintro (h | ⟨h, rfl⟩)
    · cases h with
      | underway h => exact .underway (.underway (.underway h))
      | passed h h' =>
        have hr := (hq _).symm ▸ Closing.underway (f := g) h'
        cases hr with
        | underway hr => exact .underway (.passed (.ended h rfl) hr)
    · cases h with
      | failed h => exact .ended (.failed (.ended h rfl)) (hg _).symm
      | passed h h' =>
        have hr := (hq _).symm ▸ Closing.ended (f := g) h' rfl
        cases hr with
        | ended hr hd => exact .ended (.passed (.ended h rfl) hr) hd

section

variable {allowed : Happening → Prop} {looked : Happening → Bool}

theorem seen_nil {o : Outcome} (h : p [] o) : Seen allowed looked p [] o :=
  @Seen.intro allowed looked p [] o h (by simp)

theorem seen_idle : Seen allowed looked (Idle c) = Idle c := by
  refine ext fun hs o => ⟨?_, ?_⟩
  · rintro ⟨_ | _, _⟩
    · exact .underway
    · exact .ended
  · rintro (_ | _)
    · exact seen_nil .underway
    · exact seen_nil .ended

theorem seen_andThen : Seen allowed looked (AndThen p q) =
    AndThen (Seen allowed looked p) fun c => Seen allowed looked (q c) := by
  refine ext fun hs o => ⟨?_, ?_⟩
  · rintro ⟨h, ha⟩
    cases h with
    | underway h => exact .underway ⟨h, ha⟩
    | failed h => exact .failed ⟨h, ha⟩
    | passed h h' =>
      rw [List.filter_append]
      obtain ⟨ha, ha'⟩ := List.forall_mem_append.mp ha
      exact .passed ⟨h, ha⟩ ⟨h', ha'⟩
  · rintro (⟨h, ha⟩ | ⟨h, ha⟩ | ⟨⟨h, ha⟩, ⟨h', ha'⟩⟩)
    · exact ⟨.underway h, ha⟩
    · exact ⟨.failed h, ha⟩
    · rw [← List.filter_append]
      exact ⟨.passed h h', List.forall_mem_append.mpr ⟨ha, ha'⟩⟩

theorem seen_followed {q : Option Fault → Context → Behaviour} :
    Seen allowed looked (Followed p q) =
      Followed (Seen allowed looked p) fun e c => Seen allowed looked (q e c) := by
  refine ext fun hs o => ⟨?_, ?_⟩
  · rintro ⟨h, ha⟩
    cases h with
    | underway h => exact .underway ⟨h, ha⟩
    | ended h h' =>
      rw [List.filter_append]
      obtain ⟨ha, ha'⟩ := List.forall_mem_append.mp ha
      exact .ended ⟨h, ha⟩ ⟨h', ha'⟩
  · rintro (⟨h, ha⟩ | ⟨⟨h, ha⟩, ⟨h', ha'⟩⟩)
    · exact ⟨.underway h, ha⟩
    · rw [← List.filter_append]
      exact ⟨.ended h h', List.forall_mem_append.mpr ⟨ha, ha'⟩⟩

theorem seen_closing : Seen allowed looked (Closing p f) = Closing (Seen allowed looked p) f := by
  refine ext fun hs o => ⟨?_, ?_⟩
  · rintro ⟨h | ⟨h, rfl⟩, ha⟩
    · exact .underway ⟨h, ha⟩
    · exact .ended ⟨h, ha⟩ rfl
  · rintro (⟨h, ha⟩ | ⟨⟨h, ha⟩, rfl⟩)
    · exact ⟨.underway h, ha⟩
    · exact ⟨.ended h rfl, ha⟩

end

end Behaviour
namespace Run

def behaviour (settings : Settings) (r : Run) : Behaviour := fun hs o =>
  match o with
  | .underway => ∃ r', Path settings r hs r'
  | .ended failure c => Ends settings r hs c failure

def work (settings : Settings) (fs : List Frame) (c : Context) : Behaviour :=
  behaviour settings ⟨fs, c, none⟩

section

variable {settings : Settings} {r r' : Run} {hs : History} {o : Outcome} {c : Context}
  {failure : Option Fault}

theorem behaviour_begins (settings : Settings) (r : Run) : behaviour settings r [] .underway :=
  ⟨r, .refl r⟩

theorem behaviour_underway (h : behaviour settings r hs (.ended failure c)) :
    behaviour settings r hs .underway := ⟨_, h⟩

theorem behaviour_nil_iff : behaviour settings ⟨[], c, failure⟩ hs o ↔
    hs = [] ∧ (o = .underway ∨ o = .ended failure c) := by
  cases o <;> simp [behaviour, Ends, path_nil_iff, eq_comm, and_comm]

theorem work_nil : work settings [] c = .Idle c := by
  refine Behaviour.ext fun hs o => behaviour_nil_iff.trans ⟨?_, ?_⟩
  · rintro ⟨rfl, rfl | rfl⟩
    · exact .underway
    · exact .ended
  · rintro (_ | _)
    · exact ⟨rfl, Or.inl rfl⟩
    · exact ⟨rfl, Or.inr rfl⟩

theorem behaviour_iff (hr : r.control ≠ []) : behaviour settings r hs o ↔
    hs = [] ∧ o = .underway ∨
    ∃ hs₁ r' hs₂, Moves settings r hs₁ r' ∧ behaviour settings r' hs₂ o ∧ hs = hs₁ ++ hs₂ := by
  cases o with
  | underway =>
    constructor
    · rintro ⟨q, h⟩
      rcases path_iff.mp h with ⟨rfl, rfl⟩ | ⟨hs₁, r', hs₂, hm, hp, rfl⟩
      · exact Or.inl ⟨rfl, rfl⟩
      · exact Or.inr ⟨hs₁, r', hs₂, hm, ⟨q, hp⟩, rfl⟩
    · rintro (⟨rfl, -⟩ | ⟨hs₁, r', hs₂, hm, ⟨q, hp⟩, rfl⟩)
      · exact ⟨r, .refl r⟩
      · exact ⟨q, .step hm hp⟩
  | ended failure c =>
    refine path_iff.trans ⟨?_, ?_⟩
    · rintro (⟨-, rfl⟩ | h)
      · exact absurd rfl hr
      · exact Or.inr h
    · rintro (⟨-, h⟩ | h)
      · cases h
      · exact Or.inr h

theorem behaviour_silent (h : r.act settings = .silent r') :
    behaviour settings r = behaviour settings r' := by
  have hm {hs : History} {q : Run} : Moves settings r hs q ↔ hs = [] ∧ q = r' := by
    rw [Moves, h]
    rfl
  have hr : r.control ≠ [] := (hm.mpr ⟨rfl, rfl⟩).control_ne_nil
  refine Behaviour.ext fun hs o => (behaviour_iff hr).trans ⟨?_, fun h' => ?_⟩
  · rintro (⟨rfl, rfl⟩ | ⟨hs₁, q, hs₂, hm', hp, rfl⟩)
    · exact behaviour_begins settings r'
    · obtain ⟨rfl, rfl⟩ := hm.mp hm'
      exact hp
  · exact Or.inr ⟨[], r', hs, hm.mpr ⟨rfl, rfl⟩, h', rfl⟩

theorem behaviour_atop_iff (after : List Frame) : behaviour settings (atop after r) hs o ↔
    o = .underway ∧ behaviour settings r hs .underway ∨
    ∃ hs₁ e d hs₂, behaviour settings r hs₁ (.ended e d) ∧
      behaviour settings (atop after ⟨[], d, e⟩) hs₂ o ∧ hs = hs₁ ++ hs₂ := by
  cases o with
  | underway =>
    constructor
    · rintro ⟨q, h⟩
      rcases path_atop_iff.mp h with ⟨r', hp, rfl⟩ | ⟨hs₁, d, e, hs₂, hp, hq, rfl⟩
      · exact Or.inl ⟨rfl, r', hp⟩
      · exact Or.inr ⟨hs₁, e, d, hs₂, hp, ⟨q, hq⟩, rfl⟩
    · rintro (⟨-, r', hp⟩ | ⟨hs₁, e, d, hs₂, hp, ⟨q, hq⟩, rfl⟩)
      · exact ⟨_, hp.atop after⟩
      · exact ⟨q, path_atop_iff.mpr (Or.inr ⟨hs₁, d, e, hs₂, hp, hq, rfl⟩)⟩
  | ended failure c =>
    refine (ends_atop_iff after).trans ⟨?_, ?_⟩
    · rintro ⟨hs₁, d, e, hs₂, hp, hq, rfl⟩
      exact Or.inr ⟨hs₁, e, d, hs₂, hp, hq, rfl⟩
    · rintro (⟨h, -⟩ | ⟨hs₁, e, d, hs₂, hp, hq, rfl⟩)
      · cases h
      · exact ⟨hs₁, d, e, hs₂, hp, hq, rfl⟩

theorem behaviour_atop (r : Run) (after : List Frame) : behaviour settings (atop after r) =
    .Followed (behaviour settings r) fun e d => behaviour settings (atop after ⟨[], d, e⟩) := by
  refine Behaviour.ext fun hs o => (behaviour_atop_iff after).trans ⟨?_, ?_⟩
  · rintro (⟨rfl, h⟩ | ⟨hs₁, e, d, hs₂, h, h', rfl⟩)
    · exact .underway h
    · exact .ended h h'
  · rintro (h | ⟨h, h'⟩)
    · exact Or.inl ⟨rfl, h⟩
    · exact Or.inr ⟨_, _, _, _, h, h', rfl⟩

/-- Work that comes after other work and does nothing after a failure but change the context, as it does
at its end without one. -/
theorem work_append_closing (fs : List Frame) {gs : List Frame} {q : Context → Behaviour}
    {f : Context → Context}
    (hfailed : ∀ d e, behaviour settings ⟨gs.filter Frame.survives, d, some e⟩ =
      behaviour settings ⟨[], f d, some e⟩)
    (hpassed : ∀ d, work settings gs d = .Closing (q d) f) :
    work settings (fs ++ gs) c = .Closing (.AndThen (work settings fs c) q) f := by
  have hatop (d : Context) : behaviour settings (atop gs ⟨[], d, none⟩) = .Closing (q d) f := hpassed d
  have hatop' (d : Context) (e : Fault) : behaviour settings (atop gs ⟨[], d, some e⟩) =
      behaviour settings ⟨[], f d, some e⟩ := hfailed d e
  refine Behaviour.ext fun hs o => (behaviour_atop_iff (r := ⟨fs, c, none⟩) gs).trans ⟨?_, ?_⟩
  -- What is seen breaks off before the first work ends, or goes on from its end, which failed or not.
  · rintro (⟨rfl, h⟩ | ⟨hs₁, _ | e, d, hs₂, h, h', rfl⟩)
    · exact .underway (.underway h)
    · rw [hatop] at h'
      cases h' with
      | underway h' => exact .underway (.passed h h')
      | ended h' hd => exact .ended (.passed h h') hd
    · rw [hatop'] at h'
      obtain ⟨rfl, rfl | rfl⟩ := behaviour_nil_iff.mp h'
      · exact .underway (.underway ((List.append_nil hs₁).symm ▸ behaviour_underway h))
      · exact .ended ((List.append_nil hs₁).symm ▸ .failed h) rfl
  · rintro (h | ⟨h, rfl⟩)
    · cases h with
      | underway h => exact Or.inl ⟨rfl, h⟩
      | passed h h' =>
        refine Or.inr ⟨_, none, _, _, h, ?_, rfl⟩
        rw [hatop]
        exact .underway h'
    · cases h with
      | failed h =>
        refine Or.inr ⟨_, _, _, [], h, ?_, (List.append_nil _).symm⟩
        rw [hatop']
        exact behaviour_nil_iff.mpr ⟨rfl, Or.inr rfl⟩
      | passed h h' =>
        refine Or.inr ⟨_, none, _, _, h, ?_, rfl⟩
        rw [hatop]
        exact .ended h' rfl

theorem work_append (fs : List Frame) {gs : List Frame} (hgone : gs.filter Frame.survives = []) :
    work settings (fs ++ gs) c = .AndThen (work settings fs c) (work settings gs) := by
  have hid (p : Behaviour) : Behaviour.Closing p id = p := Behaviour.closing_eq_self fun _ _ _ _ => rfl
  rw [← hid (.AndThen _ _)]
  exact work_append_closing fs (by simp [hgone]) fun d => (hid _).symm

theorem work_rebind (fs : List Frame) (outer : Option Json) :
    work settings (fs ++ [.rebind outer]) c =
      .Closing (work settings fs c) fun d => d.setVar loopVar outer := by
  rw [← Behaviour.andThen_idle (p := work settings fs c) fun _ _ h => behaviour_underway h]
  refine work_append_closing fs (fun d e => behaviour_silent rfl) fun d => ?_
  rw [Behaviour.closing_idle, ← work_nil]
  exact behaviour_silent rfl

end

section

variable {settings : Settings} {c : Context} {allowed : Happening → Prop} {looked : Happening → Bool}

/-- A first frame of which nothing is seen and that leads to other work in only one way. -/
theorem seen_unlooked {f : Frame} {fs gs : List Frame}
    (hmoves : ∀ {hs r}, Moves settings ⟨f :: fs, c, none⟩ hs r → (∀ a ∈ hs, allowed a) →
      hs.filter looked = [] ∧ r = ⟨gs, c, none⟩)
    (hmove : ∃ hs, Moves settings ⟨f :: fs, c, none⟩ hs ⟨gs, c, none⟩ ∧ ∀ a ∈ hs, allowed a) :
    Behaviour.Seen allowed looked (work settings (f :: fs) c) =
      .Seen allowed looked (work settings gs c) := by
  refine Behaviour.ext fun hs o => ⟨?_, ?_⟩
  · rintro ⟨h, hok⟩
    rcases (behaviour_iff (by simp)).mp h with ⟨rfl, rfl⟩ | ⟨hs₁, r, hs₂, hm, h', rfl⟩
    · exact Behaviour.seen_nil (behaviour_begins settings _)
    · obtain ⟨hok₁, hok₂⟩ := List.forall_mem_append.mp hok
      obtain ⟨hnone, rfl⟩ := hmoves hm hok₁
      rw [List.filter_append, hnone, List.nil_append]
      exact .intro h' hok₂
  · rintro @⟨hs, _, h, hok⟩
    obtain ⟨hs₁, hm, hok₁⟩ := hmove
    have hsame : hs.filter looked = (hs₁ ++ hs).filter looked := by
      rw [List.filter_append, (hmoves hm hok₁).1, List.nil_append]
    rw [hsame]
    exact .intro ((behaviour_iff (by simp)).mpr (Or.inr ⟨hs₁, _, hs, hm, h, rfl⟩))
      (List.forall_mem_append.mpr ⟨hok₁, hok⟩)

end

end Run
end Engine
end TopicLoad
