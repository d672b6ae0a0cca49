import Mathlib.Logic.Relation
import TopicLoad.Command.Campaign
import TopicLoad.Proofs.Company

/-! The stage on which the command runs its scenarios. It keeps all that the runs and the command do; the
runs that are begun together make moves in any order, and whatever the world answers them, except that it
has no functions for them. -/
namespace TopicLoad
namespace Engine

def Happening.Unaided : Happening → Prop
  | .called _ _ (some _) => False
  | _ => True

def Member.Becomes (x y : Member) : Prop :=
  x.dropped = false ∧ ∃ hs r, Run.Path x.settings x.run hs r ∧ (∀ a ∈ hs, a.Unaided) ∧
    y = { x with run := r, shown := x.shown ++ hs }

namespace Member

variable {x y : Member} {hs : History} {r : Run}

theorem Becomes.refl (hx : x.dropped = false) : Becomes x x :=
  ⟨hx, [], x.run, .refl _, List.forall_mem_nil _, by simp⟩

theorem Becomes.moves (h : Becomes x y) (hm : Run.Moves y.settings y.run hs r)
    (hhs : ∀ a ∈ hs, a.Unaided) : Becomes x { y with run := r, shown := y.shown ++ hs } := by
  obtain ⟨hx, hs', q, hp, hhs', rfl⟩ := h
  have hp' := hp.trans (.step hm (.refl r))
  rw [List.append_nil] at hp'
  exact ⟨hx, hs' ++ hs, r, hp', List.forall_mem_append.mpr ⟨hhs', hhs⟩, by simp⟩

end Member

/-! ## What a run can show that has no functions to call -/

/-- No event of a function, and no call in a dry run. -/
def Happening.IsPlain (settings : Settings) : Happening → Prop
  | .emitted .function _ => False
  | .published _ _ _ _ => settings.dryRun = false
  | _ => True

def Frame.IsPlain (settings : Settings) : Frame → Prop
  | .deeds _ => False
  | .send _ _ _ _ _ => settings.dryRun = false
  | _ => True

namespace Run

variable {settings : Settings} {r r' q : Run} {hs : History} {c : Context} {failure : Option Fault}

theorem plain_settledFrames_append (s : Settlement) {f : Frame} (hf : f.IsPlain settings) :
    ∀ g ∈ settledFrames c s ++ [f] ++ [], g.IsPlain settings := by
  rw [List.append_nil]
  exact List.forall_mem_append.mpr
    ⟨forall_settledFrames (fun _ => trivial) (fun _ => trivial) s, List.forall_mem_singleton.mpr hf⟩

theorem plain_tasks (ts : List Task) : ∀ f ∈ ts.map Frame.task, f.IsPlain settings :=
  List.forall_mem_map.mpr fun _ _ => trivial

theorem plain_of_served {f : Frame} {u : Upshot} (hf : f.IsPlain settings)
    (h : f.Served settings c failure hs u) (hhs : ∀ a ∈ hs, a.Unaided) :
    (∀ g ∈ (u.run c failure []).control, g.IsPlain settings) ∧ ∀ a ∈ hs, a.IsPlain settings := by
  cases h with
  | called => exact (hhs _ List.mem_cons_self).elim
  | finished | became | emitted | paused | inspected => exact hf.elim
  | dispatch _ _ _ hd => exact ⟨List.forall_mem_singleton.mpr hd, List.forall_mem_nil _⟩
  | sent => exact ⟨List.forall_mem_singleton.mpr hf, List.forall_mem_singleton.mpr hf⟩
  | turn body =>
    refine ⟨?_, List.forall_mem_nil _⟩
    simp only [Upshot.run, List.append_nil]
    exact List.forall_mem_append.mpr ⟨plain_tasks body, by simp [Frame.IsPlain]⟩
  | sentAtOnce => exact ⟨plain_settledFrames_append _ hf, List.forall_mem_singleton.mpr hf⟩
  | settled => exact ⟨plain_settledFrames_append _ hf, List.forall_mem_singleton.mpr trivial⟩
  | _ => simp [Upshot.run, Frame.IsPlain, Happening.IsPlain]

theorem plain_of_path (h : Path settings r hs q) (hr : ∀ f ∈ r.control, f.IsPlain settings)
    (hhs : ∀ a ∈ hs, a.Unaided) : ∀ a ∈ hs, a.IsPlain settings := by
  induction h with
  | refl => exact List.forall_mem_nil _
  | step hm _ ih =>
    obtain ⟨hhs₁, hhs₂⟩ := List.forall_mem_append.mp hhs
    obtain ⟨hnext, hplain⟩ := hm.forall_control hr fun hf hu => plain_of_served hf hu hhs₁
    exact List.forall_mem_append.mpr ⟨hplain, ih hnext hhs₂⟩

theorem plain_ofScenario (name : String) (tasks : List Task) :
    ∀ f ∈ (ofScenario settings name tasks c).control, f.IsPlain settings := by
  refine List.forall_mem_append.mpr ⟨List.forall_mem_append.mpr ⟨?_, plain_tasks tasks⟩, ?_⟩ <;>
    simp [setup, Frame.IsPlain]

end Run
end Engine
namespace Command

open Engine

structure Stage where
  metrics : Metrics := {}
  /-- All runs that have been begun. -/
  members : List Member := []
  /-- The places of the runs that made a move, one move after another. -/
  order : List Nat := []
  /-- What the command has written. -/
  lines : List Log.Line := []

/-- Something that is done on a stage: the results it may have, each with the stage as it is then. -/
structure Play (α : Type) where
  leads : Stage → α → Stage → Prop

namespace Play

variable {α β : Type} {s t : Stage}

theorem ext {p q : Play α} (h : ∀ s a t, p.leads s a t ↔ q.leads s a t) : p = q :=
  congrArg mk (funext fun s => funext fun a => funext fun t => propext (h s a t))

instance : Monad Play where
  pure a := ⟨fun s b t => b = a ∧ t = s⟩
  bind p f := ⟨fun s b t => ∃ a s', p.leads s a s' ∧ (f a).leads s' b t⟩

theorem pure_iff {a b : α} : (pure a : Play α).leads s b t ↔ b = a ∧ t = s := Iff.rfl

theorem bind_iff {p : Play α} {f : α → Play β} {b : β} :
    (p >>= f).leads s b t ↔ ∃ a s', p.leads s a s' ∧ (f a).leads s' b t := Iff.rfl

instance : LawfulMonad Play := by
  refine .mk' Play (fun p => ext fun s b t => ?_) (fun a f => ext fun s b t => ?_)
    fun p f g => ext fun s b t => ?_
  · constructor
    · rintro ⟨_, _, hp, rfl, rfl⟩
      exact hp
    · exact fun hp => ⟨_, _, hp, rfl, rfl⟩
  · simp [bind_iff, pure_iff]
  · simp only [bind_iff]
    constructor
    · rintro ⟨b', s', ⟨a, s'', hp, hf⟩, hg⟩
      exact ⟨a, s'', hp, b', s', hf, hg⟩
    · rintro ⟨a, s'', hp, b', s', hf, hg⟩
      exact ⟨b', s', ⟨a, s'', hp, hf⟩, hg⟩

theorem mapM_iff {p : α → Play β} (hp : ∀ {a s b t}, (p a).leads s b t → t = s) {as : List α}
    {bs : List β} :
    (as.mapM p).leads s bs t ↔ List.Forall₂ (fun a b => (p a).leads s b s) as bs ∧ t = s := by
  induction as generalizing bs with
  | nil => simp [pure_iff]
  | cons a as ih =>
    rw [List.mapM_cons, bind_iff]
    constructor
    · rintro ⟨b, s₁, hb, bs', s₂, hbs, rfl, rfl⟩
      obtain rfl := hp hb
      obtain ⟨hbs, rfl⟩ := ih.mp hbs
      exact ⟨.cons hb hbs, rfl⟩
    · rintro ⟨_ | ⟨hb, hbs⟩, rfl⟩
      exact ⟨_, _, hb, _, _, ih.mpr ⟨hbs, rfl⟩, rfl, rfl⟩

end Play

/-- A context as a virtual user is given it. -/
structure Seeded (vars : Keyed Json) (c : Context) : Prop where
  vars : c.vars = .ofList vars
  publisher : c.publisher = none
  state : c.state = .notStarted

namespace Stage

variable {s t : Stage}

def noted (s : Stage) (lines : List Log.Line) : Stage := { s with lines := s.lines ++ lines }

def begun (s : Stage) (settings : Settings) (runs : List Run) : Stage :=
  { s with members := s.members ++ runs.map fun r => { settings, run := r } }

def served (s : Stage) (ms : List Member) (x : Member) (ms' : List Member) (hs : History) (r : Run) :
    Stage :=
  { s with
    metrics := s.metrics.recordAll (hs.filterMap Happening.event?)
    members := ms ++ { x with run := r, shown := x.shown ++ hs } :: ms'
    order := s.order ++ [ms.length] }

inductive Next (s : Stage) : Stage → Prop where
  | moved {ms ms' : List Member} {x : Member} {hs : History} {r : Run}
    (hmembers : s.members = ms ++ x :: ms') (hlive : x.dropped = false)
    (hm : Run.Moves x.settings x.run hs r) (hhs : ∀ a ∈ hs, a.Unaided) :
    Next s (s.served ms x ms' hs r)

abbrev Later : Stage → Stage → Prop := Relation.ReflTransGen Next

def Over (s : Stage) : Prop := ∀ x ∈ s.members, x.run.control = []

/-- Runs that are joined are begun and make moves until all have ended or one of them breaks off. -/
def host : Host Play where
  note line := ⟨fun s _ t => t = s.noted [line]⟩
  context vars := ⟨fun s c t => Seeded vars c ∧ t = s⟩
  join settings runs := ⟨fun s o t => Later (s.begun settings runs) t ∧
    match o with
    | none => ¬ t.Over
    | some ended => t.Over ∧ ended = (t.members.drop s.members.length).map Member.run⟩
  metrics := ⟨fun s m t => m = s.metrics ∧ t = s⟩

@[simp] theorem noted_nil : s.noted [] = s := by simp [noted]

@[simp] theorem noted_noted (lines lines' : List Log.Line) :
    (s.noted lines).noted lines' = s.noted (lines ++ lines') := by simp [noted]

theorem forM_note_iff {α : Type} {line : α → Log.Line} {as : List α} {u : PUnit} :
    (as.forM fun a => host.note (line a)).leads s u t ↔ t = s.noted (as.map line) := by
  induction as generalizing s with
  | nil => simp [Play.pure_iff]
  | cons a as ih =>
    have hcons : (a :: as).forM (fun a => host.note (line a)) =
        (host.note (line a) >>= fun _ => as.forM fun a => host.note (line a)) := rfl
    rw [hcons, Play.bind_iff]
    constructor
    · rintro ⟨_, s', rfl, hrest⟩
      rw [ih.mp hrest, noted_noted]
      rfl
    · rintro rfl
      exact ⟨⟨⟩, s.noted [line a], rfl, ih.mpr (by simp)⟩

theorem report_iff {lines : List Log.Line} {u : PUnit} :
    (lines.forM host.note).leads s u t ↔ t = s.noted lines := by
  have hnote := @forM_note_iff s t Log.Line id lines u
  rwa [List.map_id] at hnote

/-! ## Runs that move -/

/-- Where all runs but the last ones have ended, only the last ones move. What relates them to something
and is kept by their moves, relates them to it later. -/
theorem Later.members {α : Type} {R : α → Member → Prop} {as : List α} {done new : List Member}
    (hR : ∀ {a : α} {x : Member} {hs : History} {r : Run}, Run.Moves x.settings x.run hs r →
      (∀ a ∈ hs, a.Unaided) → R a x → R a { x with run := r, shown := x.shown ++ hs })
    (h : Later s t) (hdone : ∀ x ∈ done, x.run.control = []) (hs : s.members = done ++ new)
    (hnew : List.Forall₂ R as new) : ∃ new' moved, t.members = done ++ new' ∧
      List.Forall₂ R as new' ∧ t.order = s.order ++ moved ∧
      (∀ i ∈ moved, done.length ≤ i ∧ i < done.length + as.length) ∧ t.lines = s.lines := by
  induction h with
  | refl => exact ⟨new, [], hs, hnew, (List.append_nil _).symm, List.forall_mem_nil _, rfl⟩
  | @tail t u _ hnext ih =>
    obtain ⟨new', moved, hmembers, hnew', horder, hmoved, hlines⟩ := ih
    obtain @⟨ms, ms', x, hs', r, hsplit, hlive, hm, hhs⟩ := hnext
    -- A run that has ended does not move, so the run that moves is one of the last.
    obtain ⟨front, rfl, rfl⟩ : ∃ front, ms = done ++ front ∧ new' = front ++ x :: ms' := by
      rcases List.append_eq_append_iff.mp (hmembers.symm.trans hsplit) with
        ⟨front, rfl, rfl⟩ | ⟨_ | ⟨y, back⟩, hback, hrest⟩
      · exact ⟨front, rfl, rfl⟩
      · exact ⟨[], by simpa using hback.symm, by simpa using hrest.symm⟩
      · obtain ⟨rfl, -⟩ := List.cons.inj hrest
        exact absurd (hdone x (by simp [hback])) hm.control_ne_nil
    have hlength : front.length < as.length := by
      have hall := hnew'.length_eq
      rw [List.length_append, List.length_cons] at hall
      omega
    refine ⟨_, moved ++ [(done ++ front).length], List.append_assoc .., forall₂_replace (hR hm hhs) hnew',
      by simp [served, horder], List.forall_mem_append.mpr ⟨hmoved, List.forall_mem_singleton.mpr ?_⟩, hlines⟩
    rw [List.length_append]
    omega

theorem Later.reached (h : Later s t) (hs : Reached s.metrics s.members) :
    Reached t.metrics t.members := by
  induction h with
  | refl => exact hs
  | tail _ hnext ih =>
    obtain ⟨hmembers, hlive, hm, -⟩ := hnext
    rw [hmembers] at ih
    exact ih.served hlive hm

theorem exists_later {ms ms' : List Member} {x y : Member} (hs : s.members = ms ++ x :: ms')
    (h : x.Becomes y) : ∃ t, Later s t ∧ t.members = ms ++ y :: ms' := by
  obtain ⟨hlive, hs', r, hp, hhs, rfl⟩ := h
  obtain ⟨settings, q, shown, dropped⟩ := x
  change Run.Path settings q hs' r at hp
  induction hp generalizing s shown with
  | refl q => exact ⟨s, .refl, by simpa using hs⟩
  | @step q q' _ hs₁ _ hm _ ih =>
    obtain ⟨hhs₁, hhs₂⟩ := List.forall_mem_append.mp hhs
    have hnext := Next.moved hs hlive hm hhs₁
    obtain ⟨t, hlater, ht⟩ := @ih (s.served ms ⟨settings, q, shown, dropped⟩ ms' hs₁ q') hhs₂
      (shown ++ hs₁) rfl hlive
    exact ⟨t, .head hnext hlater, by simpa using ht⟩

theorem exists_later_all {done xs ys : List Member} (hs : s.members = done ++ xs)
    (h : List.Forall₂ Member.Becomes xs ys) : ∃ t, Later s t ∧ t.members = done ++ ys := by
  induction h generalizing s done with
  | nil => exact ⟨s, .refl, hs⟩
  | @cons x y xs ys hxy _ ih =>
    obtain ⟨s', hfirst, hs'⟩ := exists_later hs hxy
    have hrest : s'.members = (done ++ [y]) ++ xs := by simpa using hs'
    obtain ⟨t, hlater, ht⟩ := ih hrest
    exact ⟨t, hfirst.trans hlater, by simpa using ht⟩

end Stage
end Command
end TopicLoad
