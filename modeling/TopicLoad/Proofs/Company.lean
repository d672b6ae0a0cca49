import Mathlib.Data.List.Forall2
import TopicLoad.Proofs.Fleet

/-! Runs of one scenario in each other's company. They are begun on contexts of their own, at any time,
and share the tasks and the collector; each of them could have gone the same way alone. -/
namespace TopicLoad
namespace Engine

/-- What runs of a scenario can come to, each begun on one of certain contexts. -/
inductive Joint (settings : Settings) (name : String) (tasks : List Task) :
    List Context → Metrics → List Member → Prop where
  | nil : Joint settings name tasks [] {} []
  | begun {cs : List Context} {m : Metrics} {ms : List Member}
    (h : Joint settings name tasks cs m ms) (c : Context) :
    Joint settings name tasks (cs ++ [c]) m
      (ms ++ [{ settings, run := Run.ofScenario settings name tasks c }])
  | served {cs : List Context} {m : Metrics} {ms ms' : List Member} {x : Member} {hs : History}
    {r : Run} (h : Joint settings name tasks cs m (ms ++ x :: ms')) (hlive : x.dropped = false)
    (hm : Run.Moves x.settings x.run hs r) :
    Joint settings name tasks cs (m.recordAll (hs.filterMap Happening.event?))
      (ms ++ { x with run := r, shown := x.shown ++ hs } :: ms')
  | dropped {cs : List Context} {m : Metrics} {ms ms' : List Member} {x : Member}
    (h : Joint settings name tasks cs m (ms ++ x :: ms')) (hrest : x.run.AtRest x.settings) :
    Joint settings name tasks cs m (ms ++ { x with dropped := true } :: ms')

theorem forall₂_replace {α β : Type} {R : α → β → Prop} {as : List α} {bs bs' : List β} {b b' : β}
    (hb : ∀ {a}, R a b → R a b') (h : List.Forall₂ R as (bs ++ b :: bs')) :
    List.Forall₂ R as (bs ++ b' :: bs') := by
  induction bs generalizing as with
  | nil =>
    cases h with
    | cons hab hrest => exact .cons (hb hab) hrest
  | cons b₀ bs ih =>
    cases h with
    | cons hab hrest => exact .cons hab (ih hrest)

theorem exists_of_forall₂ {α β : Type} {R : α → β → Prop} {as : List α} {bs : List β}
    (h : List.Forall₂ R as bs) : ∀ b ∈ bs, ∃ a, R a b := by
  induction h with
  | nil => simp
  | cons hab _ ih => exact List.forall_mem_cons.mpr ⟨⟨_, hab⟩, ih⟩

namespace Joint

variable {settings : Settings} {name : String} {tasks : List Task} {cs : List Context} {m : Metrics}
  {ms ms' : List Member} {c : Context} {x : Member}

theorem reached (h : Joint settings name tasks cs m ms) : Reached m ms := by
  induction h with
  | nil => exact .nil
  | begun _ c ih => exact ih.begun settings name tasks c
  | served _ hlive hm ih => exact ih.served hlive hm
  | dropped _ hrest ih => exact ih.dropped hrest

/-- What relates every run that is begun to its context, and is kept by every move and by giving up,
relates all of them to theirs. -/
theorem forall₂ {R : Context → Member → Prop}
    (hbegun : ∀ c, R c { settings, run := Run.ofScenario settings name tasks c })
    (hserved : ∀ {c : Context} {x : Member} {hs : History} {r : Run}, x.dropped = false →
      Run.Moves x.settings x.run hs r → R c x → R c { x with run := r, shown := x.shown ++ hs })
    (hdropped : ∀ {c : Context} {x : Member}, x.run.AtRest x.settings → R c x →
      R c { x with dropped := true })
    (h : Joint settings name tasks cs m ms) : List.Forall₂ R cs ms := by
  induction h with
  | nil => exact .nil
  | begun _ c ih => exact List.rel_append ih (.cons (hbegun c) .nil)
  | served _ hlive hm ih => exact forall₂_replace (hserved hlive hm) ih
  | dropped _ hrest ih => exact forall₂_replace (hdropped hrest) ih

theorem paths (h : Joint settings name tasks cs m ms) :
    List.Forall₂ (fun c x => x.settings = settings ∧
      Run.Path settings (Run.ofScenario settings name tasks c) x.shown x.run) cs ms := by
  refine h.forall₂ (fun c => ⟨rfl, .refl _⟩) (fun {c x hs r} _ hm hx => ?_) fun _ hx => hx
  obtain ⟨rfl, hpath⟩ := hx
  have hstep := hpath.trans (.step hm (.refl r))
  rw [List.append_nil] at hstep
  exact ⟨rfl, hstep⟩

theorem alone (h : Joint settings name tasks cs m ms) :
    List.Forall₂ (fun c x => ∃ m', Joint settings name tasks [c] m' [x]) cs ms := by
  refine h.forall₂ (fun c => ⟨_, nil.begun c⟩) ?_ ?_
  · rintro c x hs r hlive hm ⟨m', hx⟩
    have hone : Joint settings name tasks [c] m' ([] ++ x :: []) := hx
    exact ⟨_, hone.served hlive hm⟩
  · rintro c x hrest ⟨m', hx⟩
    have hone : Joint settings name tasks [c] m' ([] ++ x :: []) := hx
    exact ⟨_, hone.dropped hrest⟩

theorem follow {hs : History} {r : Run} (h : Joint settings name tasks cs m (ms ++ x :: ms'))
    (hlive : x.dropped = false) (hp : Run.Path x.settings x.run hs r) :
    Joint settings name tasks cs (m.recordAll (hs.filterMap Happening.event?))
      (ms ++ { x with run := r, shown := x.shown ++ hs } :: ms') := by
  obtain ⟨own, q, shown, dropped⟩ := x
  change Run.Path own q hs r at hp
  induction hp generalizing m shown with
  | refl q => simpa [Metrics.recordAll] using h
  | step hm _ ih =>
    have hrest := ih _ (h.served hlive hm) hlive
    simpa [Metrics.recordAll, List.foldl_append] using hrest

end Joint
end Engine
end TopicLoad
