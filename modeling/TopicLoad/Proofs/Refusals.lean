import TopicLoad.Proofs.Grammar

/-! What reading answers for a value that is no step. The reason given is that of the first offending
step, and names a think time exactly if that step is one. The only exception are seconds that do not fit
64 bits: they are no error of either kind, the reading breaks off. -/
namespace TopicLoad
namespace Step

inductive Report where
  | step
  | think
deriving DecidableEq, Repr

/-- The error that a fault is reported as. None is reported if the seconds are too many. -/
def Fault.report? : Fault → Option Report
  | .loopNotList _ | .countNotWhole _ | .badMessage _ => some .step
  | .think (.invalid _) => some .think
  | .think .tooLong => none

def IsThink (v t : Json) : Prop := ∃ ms, v = .obj ms ∧ mark? ms = some (.think, t)

/-- A value of a think step in a step, at any depth. -/
inductive Uses : Json → Json → Prop where
  | own {v t : Json} (h : IsThink v t) : Uses v t
  | within {v w t : Json} (hw : w ∈ body v) (h : Uses w t) : Uses v t

theorem isThink_obj_iff {ms : List (String × Json)} {t : Json} :
    IsThink (.obj ms) t ↔ mark? ms = some (.think, t) := by
  simp [IsThink]

theorem uses_iff {v t : Json} : Uses v t ↔ IsThink v t ∨ ∃ w ∈ body v, Uses w t := by
  constructor
  · rintro (h | ⟨hw, h⟩)
    · exact .inl h
    · exact .inr ⟨_, hw, h⟩
  · rintro (h | ⟨w, hw, h⟩)
    · exact .own h
    · exact .within hw h

namespace FirstOffence

variable {v o t : Json} {f : Fault}

theorem offends (h : FirstOffence v o f) : Offends o f := by
  induction h with
  | own _ h => exact h
  | within _ _ _ ih => exact ih

theorem uses (h : FirstOffence v o f) (ho : IsThink o t) : Uses v t := by
  induction h with
  | own _ _ => exact .own ho
  | within hbody _ _ ih => exact .within (by simp [hbody]) (ih ho)

end FirstOffence

theorem Offends.report {o : Json} {f : Fault} (h : Offends o f) :
    (∃ t g, IsThink o t ∧ f = .think g ∧ Think.ofJson t = .error g) ∨
      (∀ t, ¬ IsThink o t) ∧ f.report? = some .step := by
  cases h with
  | think h hv => exact .inl ⟨_, _, ⟨_, rfl, h⟩, rfl, hv⟩
  | list h _ | count h _ _ | message h _ _ =>
    refine .inr ⟨?_, rfl⟩
    rintro t ⟨ms, hms, hmark⟩
    cases hms
    rw [h] at hmark
    cases hmark

/-- Reading accepts the well-formed values and no others; the reason it gives for any other is that of
the one first offence. If no think time in use is `2 ^ 64` seconds or more, that reason is reported as an
invalid think time or as an invalid step, depending on whether the offending step is told by its think
time. -/
theorem reading_follows_grammar (v : Json) :
    ((∃ s, ofJson v = .ok s) ↔ WellFormed v) ∧
    (∀ f, ofJson v = .error f ↔ ∃ o, FirstOffence v o f) ∧
    (∀ o o' f f', FirstOffence v o f → FirstOffence v o' f' → o = o' ∧ f = f') ∧
    ((∀ t, Uses v t → ∀ x, Think.read? t = some x → x.isFinite = true → x < Double.bits64) →
      ∀ o f, FirstOffence v o f →
        (f.report? = some .think ↔ ∃ t, IsThink o t) ∧
        (f.report? = some .step ↔ ¬ ∃ t, IsThink o t)) := by
  have haccept : (∃ s, ofJson v = .ok s) ↔ WellFormed v :=
    ⟨fun ⟨_, hs⟩ => wellFormed_of_ok hs, exists_ofJson_of_wellFormed⟩
  have hrefuse (f : Fault) : ofJson v = .error f ↔ ∃ o, FirstOffence v o f :=
    ⟨firstOffence_of_error, fun ⟨_, ho⟩ => ofJson_of_firstOffence ho⟩
  refine ⟨haccept, hrefuse, fun _ _ _ _ h h' => h.unique h', fun hshort o f ho => ?_⟩
  obtain ⟨t, g, ht, rfl, hg⟩ | ⟨hno, hreport⟩ := ho.offends.report
  · have hshown : ∃ shown, g = .invalid shown := by
      cases g with
      | invalid shown => exact ⟨shown, rfl⟩
      | tooLong =>
        obtain ⟨x, hx, hfinite, -, hlong⟩ := (Think.ofJson_eq_tooLong_iff t).mp hg
        exact absurd (hshort t (ho.uses ht) x hx hfinite) hlong
    obtain ⟨shown, rfl⟩ := hshown
    have hthink : ∃ t, IsThink o t := ⟨t, ht⟩
    simp [Fault.report?, hthink]
  · simp [hreport, hno]

/-- The steps of the body are well-formed but the count of the inner loop is not whole. -/
theorem inner_count_refused :
    ∃ v o, v = .obj [("loop", .arr [.obj [("think", .ofNat 2)], o])] ∧
      o = .obj [("count", .num (.float 1.5)), ("loop", .arr [.obj [("log", .null)]])] ∧
      (∀ t, Uses v t → ∀ x, Think.read? t = some x → x.isFinite = true → x < Double.bits64) ∧
      FirstOffence v o (.countNotWhole (.num (.float 1.5))) ∧
      ofJson v = .error (.countNotWhole (.num (.float 1.5))) ∧
      ¬ ∃ t, IsThink o t := by
  let logged : Json := .obj [("log", .null)]
  let paused : Json := .obj [("think", .ofNat 2)]
  let o : Json := .obj [("count", .num (.float 1.5)), ("loop", .arr [logged])]
  let v : Json := .obj [("loop", .arr [paused, o])]
  have hlogged (t : Json) : ¬ Uses logged t := by
    rw [uses_iff, isThink_obj_iff]
    rintro (h | ⟨w, hw, -⟩)
    · cases h
    · cases hw
  have hinner (t : Json) : ¬ Uses o t := by
    rw [uses_iff, isThink_obj_iff]
    rintro (h | ⟨w, hw, h⟩)
    · cases h
    · rw [List.mem_singleton.mp hw] at h
      exact hlogged t h
  have hpaused (t : Json) (h : Uses paused t) : t = .ofNat 2 := by
    rw [uses_iff, isThink_obj_iff] at h
    obtain h | ⟨w, hw, -⟩ := h
    · cases h
      rfl
    · cases hw
  have hused (t : Json) (h : Uses v t) : t = .ofNat 2 := by
    rw [uses_iff, isThink_obj_iff] at h
    obtain h | ⟨w, hw, h⟩ := h
    · cases h
    · obtain rfl | hw := List.mem_cons.mp hw
      · exact hpaused t h
      · rw [List.mem_singleton.mp hw] at h
        exact absurd h (hinner t)
  have hshort : ∀ t, Uses v t → ∀ x, Think.read? t = some x → x.isFinite = true →
      x < Double.bits64 := by
    intro t ht x hx _
    rw [hused t ht] at hx
    cases hx
    decide +kernel
  have hfirst : FirstOffence v o (.countNotWhole (.num (.float 1.5))) := by
    have hcount : ¬ Json.IsWhole (.num (.float 1.5)) := by rintro ⟨n, hn, -⟩; cases hn
    have hbounds : ¬ (¬ (Double.ofInt 2).isFinite ∨ Double.ofInt 2 < 0.0) := by decide +kernel
    have hlength : Duration.ofSeconds? (Double.ofInt 2) = some ⟨2000000000⟩ := by decide +kernel
    have hread : ∃ d, Think.ofJson (.ofNat 2) = .ok d := by
      refine ⟨⟨2000000000⟩, ?_⟩
      change Think.ofSeconds (Double.ofInt 2) = _
      rw [Think.ofSeconds, if_neg hbounds, hlength]
    have hbefore : ∀ u ∈ [paused], WellFormed u := by
      intro u hu
      rw [List.mem_singleton.mp hu]
      exact .think rfl hread
    have hbody : ∀ w ∈ body o, WellFormed w := by
      intro w hw
      rw [List.mem_singleton.mp hw]
      exact .unmarked rfl
    exact .within (show body v = [paused] ++ o :: [] from rfl) hbefore (.own hbody (.count rfl rfl hcount))
  obtain ⟨-, hread, -, hreport⟩ := reading_follows_grammar v
  have hstep := (hreport hshort _ _ hfirst).2.mp rfl
  exact ⟨v, o, rfl, rfl, hshort, hfirst, (hread _).mpr ⟨o, hfirst⟩, hstep⟩

/-- Reading yields a step, reports an error, or breaks off. It breaks off exactly if the first offending
step is told by a think time whose seconds are finite, not negative, and not below `2 ^ 64`. -/
theorem reading_breaks_off_iff (v : Json) :
    ((∃ s, ofJson v = .ok s) ∨ (∃ f, ofJson v = .error f ∧ f.report? ≠ none) ∨
      ofJson v = .error (.think .tooLong)) ∧
    (ofJson v = .error (.think .tooLong) ↔
      ∃ o t x, (∃ f, FirstOffence v o f) ∧ IsThink o t ∧ Think.read? t = some x ∧
        x.isFinite = true ∧ ¬ x < 0.0 ∧ ¬ x < Double.bits64) := by
  constructor
  · cases hv : ofJson v with
    | ok s => exact .inl ⟨s, rfl⟩
    | error f =>
      by_cases hreport : f.report? = none
      · right; right
        cases f with
        | think g => cases g <;> simp [Fault.report?] at hreport ⊢
        | _ => simp [Fault.report?] at hreport
      · exact .inr (.inl ⟨f, rfl, hreport⟩)
  · constructor
    · intro hv
      obtain ⟨o, ho⟩ := firstOffence_of_error hv
      obtain ⟨t, g, ht, hg, hread⟩ | ⟨-, hreport⟩ := ho.offends.report
      · cases hg
        obtain ⟨x, hx⟩ := (Think.ofJson_eq_tooLong_iff t).mp hread
        exact ⟨o, t, x, ⟨_, ho⟩, ht, hx⟩
      · simp [Fault.report?] at hreport
    · rintro ⟨o, t, x, ⟨f, ho⟩, ht, hx⟩
      have hlong := (Think.ofJson_eq_tooLong_iff t).mpr ⟨x, hx⟩
      obtain ⟨t', g, ht', rfl, hg⟩ | ⟨hno, -⟩ := ho.offends.report
      · obtain ⟨ms, rfl, hmark⟩ := ht
        obtain ⟨ms', hms, hmark'⟩ := ht'
        cases hms
        rw [hmark] at hmark'
        cases hmark'
        rw [hlong] at hg
        cases hg
        exact ofJson_of_firstOffence ho
      · exact absurd ht (hno t)

/-- Reading `10 ^ 20` seconds yields no step and reports no error. -/
theorem reading_breaks_off_at_long_think :
    (¬ ∃ s, ofJson (.obj [("think", .num (.float 1e20))]) = .ok s) ∧
      ¬ ∃ f, ofJson (.obj [("think", .num (.float 1e20))]) = .error f ∧ f.report? ≠ none := by
  have hlong : Think.ofJson (.num (.float 1e20)) = .error .tooLong :=
    (Think.ofJson_eq_tooLong_iff _).mpr
      ⟨1e20, rfl, by decide +kernel, by decide +kernel, by decide +kernel⟩
  have hread : ofJson (.obj [("think", .num (.float 1e20))]) = .error (.think .tooLong) :=
    ofJson_of_offends (fun w (hw : w ∈ []) => absurd hw List.not_mem_nil) (.think rfl hlong)
  simp [hread, Fault.report?]

end Step
end TopicLoad
