import Mathlib.Data.List.Forall2
import TopicLoad.Engine.Task

/-! What is asked of the builders while a flow is compiled. Steps are named by their places in the flow;
the loops and the pauses among them are built one by one, in post-order, and each from what the steps
below it were compiled to. -/
namespace TopicLoad

/-- Where a step stands in a flow: its number among the steps around it, behind the numbers of the loops
that it is in. Within a step the empty place is that of the step itself. -/
abbrev Place := List Nat

namespace Place

/-- Post-order: what stands in a loop comes before the loop, everything else in the order of its numbers. -/
inductive Before : Place → Place → Prop
  | inside (i : Nat) (p : Place) : Before (i :: p) []
  | earlier {i j : Nat} (h : i < j) (p q : Place) : Before (i :: p) (j :: q)
  | within (i : Nat) {p q : Place} (h : Before p q) : Before (i :: p) (i :: q)

theorem Before.ne {p q : Place} (h : Before p q) : p ≠ q := by
  induction h with
  | inside i p => simp
  | earlier h p q => simp [Nat.ne_of_lt h]
  | within i _ ih => simpa using ih

def next : Place → Place
  | [] => []
  | i :: p => (i + 1) :: p

theorem Before.next {p q : Place} (h : Before p q) : Before p.next q.next := by
  cases h with
  | inside i p => exact .inside (i + 1) p
  | earlier h p q => exact .earlier (by omega) p q
  | within i h => exact .within (i + 1) h

theorem next_eq_cons {p q : Place} {i : Nat} : p.next = i :: q ↔ ∃ j, i = j + 1 ∧ p = j :: q := by
  cases p with
  | nil => simp [Place.next]
  | cons k p =>
    simp only [Place.next, List.cons.injEq]
    constructor
    · rintro ⟨rfl, rfl⟩
      exact ⟨k, rfl, rfl, rfl⟩
    · rintro ⟨j, rfl, rfl, rfl⟩
      exact ⟨rfl, rfl⟩

end Place
namespace Step

def within? : Place → Step → Option Step
  | [], s => some s
  | i :: p, .loop steps _ => steps[i]?.bind (within? p)
  | _ :: _, _ => none

def at? (ss : List Step) : Place → Option Step
  | [] => none
  | i :: p => ss[i]?.bind (within? p)

/-- Loops and pauses are put together by builders. -/
def isBuilt : Step → Bool
  | .loop .. | .think _ => true
  | _ => false

mutual

/-- The places of the loops and the pauses within a step, in post-order. -/
def sites : Step → List Place
  | .loop steps _ => sitesAll steps ++ [[]]
  | .think _ => [[]]
  | _ => []

def sitesAll : List Step → List Place
  | [] => []
  | s :: ss => (sites s).map (0 :: ·) ++ (sitesAll ss).map Place.next

end

@[simp] theorem within?_nil (s : Step) : within? [] s = some s := by cases s <;> rfl

@[simp] theorem within?_loop (i : Nat) (p : Place) (steps : List Step) (count : LoopCount) :
    within? (i :: p) (.loop steps count) = at? steps (i :: p) := rfl

@[simp] theorem at?_nil (ss : List Step) : at? ss [] = none := rfl

@[simp] theorem at?_zero (s : Step) (ss : List Step) (p : Place) :
    at? (s :: ss) (0 :: p) = within? p s := by simp [at?]

@[simp] theorem at?_next (s : Step) (ss : List Step) (p : Place) :
    at? (s :: ss) p.next = at? ss p := by
  cases p <;> simp [at?, Place.next]

theorem at?_empty (p : Place) : at? [] p = none := by
  cases p <;> simp [at?]

theorem ne_nil_of_mem_sitesAll : ∀ {ss : List Step} {p : Place}, p ∈ sitesAll ss → p ≠ []
  | [], _, h => by simp [sitesAll] at h
  | s :: ss, p, h => by
    simp only [sitesAll, List.mem_append, List.mem_map] at h
    obtain ⟨q, -, rfl⟩ | ⟨q, hq, rfl⟩ := h
    · simp
    · have := ne_nil_of_mem_sitesAll hq
      cases q with
      | nil => exact absurd rfl this
      | cons i q => simp [Place.next]

mutual

theorem mem_sites_iff : ∀ (s : Step) (p : Place),
    p ∈ sites s ↔ ∃ t, within? p s = some t ∧ t.isBuilt = true
  | .loop _ _, [] => by simp [sites, isBuilt]
  | .loop steps _, i :: p => by simp [sites, mem_sitesAll_iff steps (i :: p)]
  | .think _, [] => by simp [sites, isBuilt]
  | .think _, _ :: _ => by simp [sites, within?]
  | .function _, [] | .log _, [] | .message _, [] | .unrecognized _, [] => by simp [sites, isBuilt]
  | .function _, _ :: _ | .log _, _ :: _ | .message _, _ :: _ | .unrecognized _, _ :: _ => by
    simp [sites, within?]

theorem mem_sitesAll_iff : ∀ (ss : List Step) (p : Place),
    p ∈ sitesAll ss ↔ ∃ t, at? ss p = some t ∧ t.isBuilt = true
  | [], p => by simp [sitesAll, at?_empty]
  | s :: ss, [] => by simpa using fun h => ne_nil_of_mem_sitesAll h rfl
  | s :: ss, 0 :: p => by
    have hnext (q : Place) : ¬ q.next = 0 :: p := by simp [Place.next_eq_cons]
    simp [sitesAll, hnext, mem_sites_iff s p]
  | s :: ss, (i + 1) :: p => by
    have hstep : at? (s :: ss) ((i + 1) :: p) = at? ss (i :: p) := rfl
    simp [sitesAll, Place.next_eq_cons, hstep, mem_sitesAll_iff ss (i :: p)]

end

mutual

theorem sites_ordered : ∀ s : Step, (sites s).Pairwise Place.Before
  | .loop steps _ => by
    refine List.pairwise_append.mpr ⟨sitesAll_ordered steps, List.pairwise_singleton _ _, ?_⟩
    intro p hp q hq
    obtain rfl := List.mem_singleton.mp hq
    obtain ⟨i, p, rfl⟩ := List.exists_cons_of_ne_nil (ne_nil_of_mem_sitesAll hp)
    exact .inside i p
  | .think _ => List.pairwise_singleton _ _
  | .function _ | .log _ | .message _ | .unrecognized _ => List.Pairwise.nil

theorem sitesAll_ordered : ∀ ss : List Step, (sitesAll ss).Pairwise Place.Before
  | [] => List.Pairwise.nil
  | s :: ss => by
    refine List.pairwise_append.mpr
      ⟨(sites_ordered s).map _ fun _ _ h => .within 0 h, (sitesAll_ordered ss).map _ fun _ _ h => h.next, ?_⟩
    intro p hp q hq
    obtain ⟨p, -, rfl⟩ := List.mem_map.mp hp
    obtain ⟨r, hr, rfl⟩ := List.mem_map.mp hq
    obtain ⟨i, r, rfl⟩ := List.exists_cons_of_ne_nil (ne_nil_of_mem_sitesAll hr)
    exact .earlier (Nat.succ_pos i) p r

end

end Step
namespace Engine

namespace Builders

variable {m : Type → Type}

inductive Call where
  | loop (count : LoopCount) (body : List Task)
  | think (d : Duration) (defaults : ThinkDefaults)

/-- The calls so far, each with what was built. -/
abbrev Record := List (Call × Task)

def ofAnswers (f : Call → m Task) : Builders m where
  loop count body := f (.loop count body)
  think d defaults := f (.think d defaults)

def answer (b : Builders m) : Call → m Task
  | .loop count body => b.loop count body
  | .think d defaults => b.think d defaults

/-- Builders whose calls are put on record. What they build may depend on all that is on it. -/
def recorded (build : Record → Call → Task) : Builders (StateM Record) :=
  ofAnswers fun call => do
    let record ← get
    let t := build record call
    set (record ++ [(call, t)])
    pure t

end Builders

/-- Something that is come to by calling builders, and in no other way. -/
inductive Building (α : Type) where
  | done (a : α)
  | call (c : Builders.Call) (next : Task → Building α)

namespace Building

variable {α β : Type} {m : Type → Type} [Monad m]

def bind : Building α → (α → Building β) → Building β
  | .done a, f => f a
  | .call c next, f => .call c fun t => (next t).bind f

instance : Monad Building where
  pure := .done
  bind := Building.bind

def run (b : Builders m) : Building α → m α
  | .done a => pure a
  | .call c next => b.answer c >>= fun t => (next t).run b

/-- Builders that leave every call to be answered later. -/
def deferred : Builders Building := .ofAnswers fun c => .call c .done

theorem run_bind [LawfulMonad m] (b : Builders m) (x : Building α) (f : α → Building β) :
    (x >>= f).run b = x.run b >>= fun a => (f a).run b := by
  induction x with
  | done a => exact (pure_bind a fun a => (f a).run b).symm
  | call c next ih =>
    change (b.answer c >>= fun t => ((next t).bind f).run b) =
      (b.answer c >>= fun t => (next t).run b) >>= fun a => (f a).run b
    rw [bind_assoc]
    exact bind_congr fun t => ih t

end Building

namespace Task

variable {m : Type → Type} [Monad m] [LawfulMonad m]

mutual

theorem compile_eq_run (b : Builders m) (defaults : ThinkDefaults) : ∀ s : Step,
    compile b defaults s = (compile Building.deferred defaults s).run b
  | .loop steps count => by
    rw [compile, compile, Building.run_bind, compileAll_eq_run b defaults steps]
    exact bind_congr fun body => (bind_pure (b.loop count body)).symm
  | .think d => by
    rw [compile]
    exact (bind_pure (b.think d defaults)).symm
  | .function _ | .log _ | .message _ | .unrecognized _ => rfl

/-- Compiling calls builders and does nothing else, whatever they do. -/
theorem compileAll_eq_run (b : Builders m) (defaults : ThinkDefaults) : ∀ ss : List Step,
    compileAll b defaults ss = (compileAll Building.deferred defaults ss).run b
  | [] => rfl
  | s :: ss => by
    rw [compileAll, compileAll, Building.run_bind, compile_eq_run b defaults s]
    refine bind_congr fun t => ?_
    rw [Building.run_bind, compileAll_eq_run b defaults ss]
    rfl

end

/-- What a step is compiled to that no builder is called for. -/
def plain? : Step → Option Task
  | .function name => some (.call name)
  | .log text => some (.mark text)
  | .message spec => some (.publish spec)
  | .unrecognized _ => some .skip
  | .loop .. | .think _ => none

/-- The builders' call for the step at a place. A loop is built from the forms of the steps below. -/
def call? (defaults : ThinkDefaults) (form : Place → Task) (p : Place) : Step → Option Builders.Call
  | .loop steps count => some (.loop count ((List.range steps.length).map fun i => form (p ++ [i])))
  | .think d => some (.think d defaults)
  | _ => none

/-- A call on record is the one for the step at a place, and what was built is its form. -/
def Answers (defaults : ThinkDefaults) (look : Place → Option Step) (form : Place → Task) (p : Place)
    (e : Builders.Call × Task) : Prop :=
  (look p).bind (call? defaults form p) = some e.1 ∧ form p = e.2

/-- The forms of the steps agree with the calls on record, which are those for the sites, one by one. The
steps that no builder is called for have their own forms. -/
structure Mirrors (defaults : ThinkDefaults) (look : Place → Option Step) (sites : List Place)
    (form : Place → Task) (record : Builders.Record) : Prop where
  plain : ∀ p s t, look p = some s → plain? s = some t → form p = t
  calls : List.Forall₂ (Answers defaults look form) sites record

section

variable {defaults : ThinkDefaults} {s : Step} {ss : List Step} {count : LoopCount} {d : Duration}
  {f g : Place → Task} {r r' : Builders.Record}

def above (t : Task) (g : Place → Task) : Place → Task
  | [] => t
  | p => g p

def ahead (f g : Place → Task) : Place → Task
  | 0 :: p => f p
  | (i + 1) :: p => g (i :: p)
  | [] => g []

theorem Mirrors.ofPlain {t : Task} (h : plain? s = some t) :
    Mirrors defaults (Step.within? · s) (Step.sites s) (fun _ => t) [] where
  plain p s' t' hp ht := by
    cases p with
    | nil =>
      obtain rfl : s = s' := by simpa using hp
      exact Option.some.inj (h.symm.trans ht)
    | cons i p => cases s <;> simp [Step.within?, plain?] at hp h
  calls := by cases s <;> simp [Step.sites, plain?] at h ⊢

theorem Mirrors.ofThink (t : Task) :
    Mirrors defaults (Step.within? · (.think d)) (Step.sites (.think d)) (fun _ => t)
      [(.think d defaults, t)] where
  plain p s t' hp ht := by
    cases p with
    | nil =>
      obtain rfl : Step.think d = s := by simpa using hp
      simp [plain?] at ht
    | cons i p => simp [Step.within?] at hp
  calls := by simp [Step.sites, Answers, call?]

theorem Mirrors.loop (t : Task) (h : Mirrors defaults (Step.at? ss) (Step.sitesAll ss) g r) :
    Mirrors defaults (Step.within? · (.loop ss count)) (Step.sites (.loop ss count)) (above t g)
      (r ++ [(.loop count ((List.range ss.length).map fun i => g [i]), t)]) where
  plain p s t' hp ht := by
    cases p with
    | nil =>
      obtain rfl : Step.loop ss count = s := by simpa using hp
      simp [plain?] at ht
    | cons i p => exact h.plain _ _ _ hp ht
  calls := by
    have hbody (p : Place) (e : Builders.Call × Task) (he : Answers defaults (Step.at? ss) g p e) :
        Answers defaults (Step.within? · (.loop ss count)) (above t g) p e := by
      cases p with
      | nil => simp [Answers] at he
      | cons i p => exact he
    exact List.rel_append (h.calls.imp hbody) (by simp [Answers, call?, above])

theorem Mirrors.cons (h : Mirrors defaults (Step.within? · s) (Step.sites s) f r)
    (h' : Mirrors defaults (Step.at? ss) (Step.sitesAll ss) g r') :
    Mirrors defaults (Step.at? (s :: ss)) (Step.sitesAll (s :: ss)) (ahead f g) (r ++ r') where
  plain p s' t hp ht := by
    match p with
    | [] => simp at hp
    | 0 :: p => exact h.plain p s' t (by simpa using hp) ht
    | (i + 1) :: p => exact h'.plain (i :: p) s' t hp ht
  calls := by
    have hfirst (p : Place) (e : Builders.Call × Task)
        (he : Answers defaults (Step.within? · s) f p e) :
        Answers defaults (Step.at? (s :: ss)) (ahead f g) (0 :: p) e := by
      rw [Answers, Step.at?_zero]
      exact he
    have hlater (p : Place) (e : Builders.Call × Task) (he : Answers defaults (Step.at? ss) g p e) :
        Answers defaults (Step.at? (s :: ss)) (ahead f g) p.next e := by
      cases p with
      | nil => simp [Answers] at he
      | cons i p => exact he
    exact List.rel_append (List.forall₂_map_left_iff.mpr (h.calls.imp hfirst))
      (List.forall₂_map_left_iff.mpr (h'.calls.imp hlater))

theorem map_ahead : (List.range (s :: ss).length).map (fun i => ahead f g [i]) =
    f [] :: (List.range ss.length).map fun i => g [i] := by
  rw [List.length_cons, List.range_succ_eq_map, List.map_cons, List.map_map]
  rfl

end

mutual

theorem compile_mirrors (build : Builders.Record → Builders.Call → Task) (defaults : ThinkDefaults) :
    ∀ (s : Step) (before : Builders.Record), ∃ form record,
      (compile (.recorded build) defaults s).run before = (form [], before ++ record) ∧
      Mirrors defaults (Step.within? · s) (Step.sites s) form record
  | .loop steps count, before => by
    obtain ⟨form, record, hrun, hbody⟩ := compileAll_mirrors build defaults steps before
    let call := Builders.Call.loop count ((List.range steps.length).map fun i => form [i])
    let t := build (before ++ record) call
    refine ⟨above t form, record ++ [(call, t)], ?_, hbody.loop t⟩
    rw [compile, StateT.run_bind, hrun, ← List.append_assoc]
    rfl
  | .think d, before => ⟨fun _ => build before (.think d defaults), _, rfl, .ofThink _⟩
  | .function name, before => ⟨_, [], by rw [List.append_nil]; rfl, .ofPlain rfl⟩
  | .log text, before => ⟨_, [], by rw [List.append_nil]; rfl, .ofPlain rfl⟩
  | .message spec, before => ⟨_, [], by rw [List.append_nil]; rfl, .ofPlain rfl⟩
  | .unrecognized v, before => ⟨_, [], by rw [List.append_nil]; rfl, .ofPlain rfl⟩

theorem compileAll_mirrors (build : Builders.Record → Builders.Call → Task)
    (defaults : ThinkDefaults) : ∀ (ss : List Step) (before : Builders.Record), ∃ form record,
      (compileAll (.recorded build) defaults ss).run before =
        ((List.range ss.length).map (fun i => form [i]), before ++ record) ∧
      Mirrors defaults (Step.at? ss) (Step.sitesAll ss) form record
  | [], before => by
    refine ⟨fun _ => .skip, [], by rw [List.append_nil]; rfl, ⟨fun p s t hp => ?_, .nil⟩⟩
    simp [Step.at?_empty] at hp
  | s :: ss, before => by
    obtain ⟨f, r, hs, hf⟩ := compile_mirrors build defaults s before
    obtain ⟨g, r', hss, hg⟩ := compileAll_mirrors build defaults ss (before ++ r)
    refine ⟨ahead f g, r ++ r', ?_, hf.cons hg⟩
    have hrest : (compileAll (Builders.recorded build) defaults ss >>= fun ts =>
        pure (f [] :: ts)).run (before ++ r) =
          (f [] :: (List.range ss.length).map fun i => g [i], before ++ r ++ r') := by
      rw [StateT.run_bind, hss]
      rfl
    rw [compileAll, StateT.run_bind, hs, map_ahead, ← List.append_assoc]
    exact hrest

end

/-- Compiling a flow calls a builder once for each loop and each pause in it, at whatever depth, in
post-order, and for nothing else. A loop is built from its count and the forms of the steps of its body in
their order, a pause from its duration and the defaults; the flow becomes the forms of its steps in their
order. This is so for builders that put together anything, and compiling does nothing but call them. -/
theorem compiling_builds_each_site_once (defaults : ThinkDefaults) (ss : List Step) :
    (Step.sitesAll ss).Nodup ∧
    (∀ p, p ∈ Step.sitesAll ss ↔ ∃ s, Step.at? ss p = some s ∧ s.isBuilt = true) ∧
    (Step.sitesAll ss).Pairwise Place.Before ∧
    (∀ build : Builders.Record → Builders.Call → Task, ∃ form record,
      (compileAll (.recorded build) defaults ss).run [] =
        ((List.range ss.length).map (fun i => form [i]), record) ∧
      Mirrors defaults (Step.at? ss) (Step.sitesAll ss) form record) ∧
    ∀ (m : Type → Type) [Monad m] [LawfulMonad m] (b : Builders m),
      compileAll b defaults ss = (compileAll Building.deferred defaults ss).run b := by
  have hordered := Step.sitesAll_ordered ss
  refine ⟨hordered.imp Place.Before.ne, Step.mem_sitesAll_iff ss, hordered, fun build => ?_,
    fun m _ _ b => compileAll_eq_run b defaults ss⟩
  exact compileAll_mirrors build defaults ss []

/-- The builders number what they build. The inner loop is built before the outer one, and the message
without a template needs no builder. -/
theorem inner_loop_built_first :
    let defaults : ThinkDefaults := ⟨some 50.0⟩
    let flow : List Step :=
      [ .message {},
        .loop [.think ⟨1⟩, .loop [.log "inner", .think ⟨2⟩] (.times 3), .function "name"] .infinite,
        .think ⟨4⟩ ]
    let numbered (n : Nat) : Task := .pause ⟨⟨n⟩, none⟩
    let b := Builders.recorded fun record _ => numbered record.length
    LawfulMonad (StateM Builders.Record) ∧
    compileAll b defaults flow = (compileAll Building.deferred defaults flow).run b ∧
    Step.sitesAll flow = [[1, 0], [1, 1, 1], [1, 1], [1], [2]] ∧
    (compileAll b defaults flow).run [] =
      ([.publish {}, numbered 3, numbered 4],
        [ (.think ⟨1⟩ defaults, numbered 0), (.think ⟨2⟩ defaults, numbered 1),
          (.loop (.times 3) [.mark "inner", numbered 1], numbered 2),
          (.loop .infinite [numbered 0, numbered 2, .call "name"], numbered 3),
          (.think ⟨4⟩ defaults, numbered 4) ]) := by
  intro defaults flow numbered b
  obtain ⟨-, -, -, -, honly⟩ := compiling_builds_each_site_once defaults flow
  exact ⟨inferInstance, honly (StateM Builders.Record) b, rfl, rfl⟩

end Task
end Engine
end TopicLoad
