import TopicLoad.Proofs.Stage

/-! What the command makes of a script. The chosen scenarios are run one after another, each once for every
virtual user; the verdict and the collector account for all of these runs. -/
namespace TopicLoad
namespace Command

open Engine

/-! ## The runs there are to be -/

/-- A scenario is to be run: it is for this engine, and of the name that is asked for. -/
def Arguments.Chooses (a : Arguments) (sc : Scenario) : Prop :=
  (sc.engine = none ∨ sc.engine = some engineName) ∧ (a.scenario = none ∨ sc.name = a.scenario)

instance (a : Arguments) (sc : Scenario) : Decidable (a.Chooses sc) :=
  inferInstanceAs (Decidable (_ ∧ _))

def Arguments.chosen (a : Arguments) (script : Script) : List Scenario :=
  script.scenarios.filter (a.Chooses ·)

/-- A run of a scenario for one of the virtual users. -/
def RunsFor (settings : Settings) (config : Script.Config) (sc : Scenario) (x : Member) : Prop :=
  ∃ c, Seeded config.vars c ∧ Member.Becomes
    { settings, run := .ofScenario settings sc.displayName (Task.ofSteps config.think sc.steps) c } x

def RanFor (settings : Settings) (config : Script.Config) (sc : Scenario) (x : Member) : Prop :=
  RunsFor settings config sc x ∧ x.run.control = []

def Stage.failed (s : Stage) : Nat := s.members.countP fun x => x.run.failure.isSome

/-- What there is at the end, when all runs have ended. Every chosen scenario has been run once for each
virtual user, in the order of the script; the runs of one scenario have not moved before those of the
scenarios before it had ended; and the report and the verdict count all of them. -/
structure Accounts (a : Arguments) (script : Script) (settings : Settings) (v : Verdict) (t : Stage) :
    Prop where
  ran : List.Forall₂ (RanFor settings script.config)
    ((a.chosen script).flatMap (List.replicate a.users)) t.members
  apart : t.order.Pairwise fun i j => i / a.users ≤ j / a.users
  started : t.metrics.started = a.users * (a.chosen script).length % Metrics.counterLimit
  reported : a.chosen script ≠ [] →
    ∃ lines, t.lines = lines ++ t.metrics.report ++ [Log.shutdown "all scenarios finished"]
  idle : a.chosen script = [] → v = .idle a.script
  verdict : a.chosen script ≠ [] → v = if t.failed = 0 then .success else .failures t.failed
  succeeds : v.exitCode = 0 ↔ a.chosen script ≠ [] ∧ ∀ x ∈ t.members, x.run.failure = none
  told : a.chosen script ≠ [] → t.failed ≠ 0 →
    v.message? = some s!"{t.failed} scenario run(s) failed"

section

variable {settings : Settings} {config : Script.Config} {sc : Scenario} {x : Member} {a : Arguments}
  {script : Script}

theorem selected_eq : Campaign.selected a script = a.chosen script := by
  refine List.filter_congr fun sc _ => ?_
  rw [Bool.eq_iff_iff]
  cases he : sc.engine <;> cases hn : a.scenario <;>
    simp [Arguments.Chooses, Scenario.targetsEngine, he, hn]

theorem dryRun_of_ofConfig {base : Settings} (h : Settings.ofConfig config = .ok base) :
    base.dryRun = config.dryRun := by
  rw [Settings.ofConfig] at h
  cases hp : Settings.required "project" config.project with
  | error f => simp [hp, bind, Except.bind] at h
  | ok project =>
    cases ht : Settings.required "topic" config.topic with
    | error f => simp [hp, ht, bind, Except.bind] at h
    | ok topic =>
      simp only [hp, ht, bind, Except.bind, Except.ok.injEq] at h
      rw [← h]

theorem RunsFor.plain (h : RunsFor settings config sc x) : ∀ a ∈ x.shown, a.IsPlain settings := by
  obtain ⟨c, -, -, hs, r, hp, hhs, rfl⟩ := h
  exact Run.plain_of_path hp (Run.plain_ofScenario _ _) hhs

theorem RunsFor.dry (h : RunsFor settings config sc x) (hd : settings.dryRun = true) :
    x.shown.filterMap Happening.call? = [] := by
  refine List.filterMap_eq_nil_iff.mpr fun a ha => ?_
  have hplain := h.plain a ha
  cases a with
  | published => exact absurd hd (Bool.eq_false_iff.mp hplain)
  | _ => rfl

end

/-! ## One scenario -/

section

variable {settings : Settings} {config : Script.Config} {sc : Scenario} {a : Arguments} {s t : Stage}

theorem contexts_iff {vars : Keyed Json} {n : Nat} {cs : List Context} :
    ((List.range n).mapM fun _ => Stage.host.context vars).leads s cs t ↔
      cs.length = n ∧ (∀ c ∈ cs, Seeded vars c) ∧ t = s := by
  have hleaves {s t : Stage} {c : Context} (h : (Stage.host.context vars).leads s c t) : t = s := h.2
  rw [Play.mapM_iff hleaves, ← and_assoc]
  refine and_congr_left fun _ => ⟨fun h => ?_, fun ⟨hlength, hcs⟩ => ?_⟩
  · refine ⟨by simpa using h.length_eq.symm, fun c hc => ?_⟩
    obtain ⟨-, hseeded⟩ := exists_of_forall₂ h c hc
    exact hseeded.1
  · refine List.forall₂_iff_get.mpr ⟨by simp [hlength], fun i _ hi => ?_⟩
    exact ⟨hcs _ (List.get_mem cs ⟨i, hi⟩), rfl⟩

def runOn (settings : Settings) (config : Script.Config) (sc : Scenario) (c : Context) : Run :=
  .ofScenario settings sc.displayName (Task.ofSteps config.think sc.steps) c

/-- What comes of running a scenario: contexts are made, the runs on them are begun and move, and if all of
them end it is told which of them have failed. -/
theorem runScenario_iff {o : Option Nat} :
    (Campaign.runScenario Stage.host a config settings sc).leads s o t ↔
      ∃ (cs : List Context) (line : Log.Line) (t' : Stage),
        line = Campaign.announcement settings a sc.displayName
          (Task.ofSteps config.think sc.steps).length ∧
        cs.length = a.users ∧ (∀ c ∈ cs, Seeded config.vars c) ∧
        Stage.Later ((s.noted [line]).begun settings (cs.map (runOn settings config sc))) t' ∧
        (¬ t'.Over ∧ o = none ∧ t = t' ∨
          ∃ ended, t'.Over ∧ ended = (t'.members.drop s.members.length).map Member.run ∧
            o = some (ended.countP fun r => r.failure.isSome) ∧
            t = t'.noted (ended.map (Campaign.outcomeLine sc.displayName))) := by
  constructor
  · rintro ⟨_, s₁, rfl, cs, s₂, hcs, o', t', ⟨hlater, ho'⟩, hrest⟩
    obtain ⟨hlength, hseeded, rfl⟩ := contexts_iff.mp hcs
    refine ⟨cs, _, t', rfl, hlength, hseeded, hlater, ?_⟩
    cases o' with
    | none =>
      obtain ⟨rfl, rfl⟩ := hrest
      exact Or.inl ⟨ho', rfl, rfl⟩
    | some ended =>
      obtain ⟨_, t'', hnoted, rfl, rfl⟩ := hrest
      exact Or.inr ⟨ended, ho'.1, ho'.2, rfl, Stage.forM_note_iff.mp hnoted⟩
  · rintro ⟨cs, _, t', rfl, hlength, hseeded, hlater, ⟨hover, rfl, rfl⟩ | ⟨ended, hover, rfl, rfl, rfl⟩⟩
    · exact ⟨⟨⟩, _, rfl, cs, _, contexts_iff.mpr ⟨hlength, hseeded, rfl⟩, none, _, ⟨hlater, hover⟩,
        rfl, rfl⟩
    · exact ⟨⟨⟩, _, rfl, cs, _, contexts_iff.mpr ⟨hlength, hseeded, rfl⟩, some _, t',
        ⟨hlater, hover, rfl⟩, ⟨⟩, _, Stage.forM_note_iff.mpr rfl, rfl, rfl⟩

/-- What the stage is like when some scenarios have been run. -/
structure Settled (a : Arguments) (settings : Settings) (config : Script.Config) (scs : List Scenario)
    (s : Stage) : Prop where
  ran : List.Forall₂ (RanFor settings config) (scs.flatMap (List.replicate a.users)) s.members
  apart : s.order.Pairwise fun i j => i / a.users ≤ j / a.users
  within : ∀ i ∈ s.order, i < s.members.length
  reached : Reached s.metrics s.members

/-- A run has broken off: not all runs have ended, but all are runs for a virtual user. -/
structure Disturbed (settings : Settings) (config : Script.Config) (s : Stage) : Prop where
  broken : ¬ s.Over
  runs : ∀ x ∈ s.members, ∃ sc, RunsFor settings config sc x

variable {scs : List Scenario}

theorem settled_empty : Settled a settings config [] {} := ⟨.nil, .nil, by simp, .nil⟩

theorem Settled.noted (h : Settled a settings config scs s) (lines : List Log.Line) :
    Settled a settings config scs (s.noted lines) := ⟨h.ran, h.apart, h.within, h.reached⟩

theorem Settled.over (h : Settled a settings config scs s) : s.Over := fun x hx => by
  obtain ⟨_, hran⟩ := exists_of_forall₂ h.ran x hx
  exact hran.2

theorem Settled.length (h : Settled a settings config scs s) :
    s.members.length = scs.length * a.users := by
  rw [← h.ran.length_eq]
  simp [List.length_flatMap]

theorem RunsFor.moves {x : Member} {hs : History} {r : Run} (h : RunsFor settings config sc x)
    (hm : Run.Moves x.settings x.run hs r) (hhs : ∀ a ∈ hs, a.Unaided) :
    RunsFor settings config sc { x with run := r, shown := x.shown ++ hs } := by
  obtain ⟨c, hc, hx⟩ := h
  exact ⟨c, hc, hx.moves hm hhs⟩

theorem runsFor_begun {cs : List Context} (hcs : ∀ c ∈ cs, Seeded config.vars c) :
    List.Forall₂ (RunsFor settings config) (List.replicate cs.length sc)
      ((cs.map (runOn settings config sc)).map fun r => { settings, run := r }) := by
  induction cs with
  | nil => exact .nil
  | cons c cs ih =>
    obtain ⟨hc, hcs⟩ := List.forall_mem_cons.mp hcs
    exact .cons ⟨c, hc, .refl rfl⟩ (ih hcs)

theorem ranFor_of_over {scs : List Scenario} {ms : List Member}
    (h : List.Forall₂ (RunsFor settings config) scs ms) (hover : ∀ x ∈ ms, x.run.control = []) :
    List.Forall₂ (RanFor settings config) scs ms := by
  induction h with
  | nil => exact .nil
  | cons hx _ ih =>
    obtain ⟨hxover, hover⟩ := List.forall_mem_cons.mp hover
    exact .cons ⟨hx, hxover⟩ (ih hover)

theorem reached_begun {m : Metrics} {ms : List Member} (h : Reached m ms) (cs : List Context) :
    Reached m (ms ++ (cs.map (runOn settings config sc)).map fun r => { settings, run := r }) := by
  induction cs generalizing ms with
  | nil => simpa using h
  | cons c cs ih =>
    have hrest := ih (h.begun settings sc.displayName (Task.ofSteps config.think sc.steps) c)
    simpa [runOn] using hrest

theorem div_le_div_of_within {n k i j : Nat} (hi : i < k * n + n) (hj : k * n ≤ j) : i / n ≤ j / n := by
  have hpos : 0 < n := by
    rcases Nat.eq_zero_or_pos n with rfl | hpos
    · omega
    · exact hpos
  have hlow : k ≤ j / n := (Nat.le_div_iff_mul_le hpos).mpr hj
  have hhigh : i / n < k + 1 := (Nat.div_lt_iff_lt_mul hpos).mpr (by rwa [Nat.succ_mul])
  omega

theorem Settled.runScenario {o : Option Nat} (h : Settled a settings config scs s)
    (hrun : (Campaign.runScenario Stage.host a config settings sc).leads s o t) :
    o = none ∧ Disturbed settings config t ∨
    ∃ n, o = some n ∧ Settled a settings config (scs ++ [sc]) t ∧ t.failed = s.failed + n := by
  obtain ⟨cs, line, t', -, hlength, hcs, hlater, hcases⟩ := runScenario_iff.mp hrun
  have hbegun : List.Forall₂ (RunsFor settings config) (List.replicate cs.length sc) _ :=
    runsFor_begun hcs
  rw [hlength] at hbegun
  obtain ⟨new, moved, hmembers, hnew, horder, hmoved, -⟩ :=
    hlater.members (R := RunsFor settings config) (fun hm hhs hx => hx.moves hm hhs) h.over rfl hbegun
  have hold : ∀ x ∈ s.members, ∃ sc, RunsFor settings config sc x := fun x hx => by
    obtain ⟨sc, hran⟩ := exists_of_forall₂ h.ran x hx
    exact ⟨sc, hran.1⟩
  rcases hcases with ⟨hover, rfl, rfl⟩ | ⟨ended, hover, rfl, rfl, rfl⟩
  · refine Or.inl ⟨rfl, hover, ?_⟩
    rw [hmembers]
    exact List.forall_mem_append.mpr ⟨hold, exists_of_forall₂ hnew⟩
  · refine Or.inr ⟨_, rfl, .noted ?_ _, ?_⟩
    · have hreached := hlater.reached (reached_begun h.reached cs)
      have hnewlength : new.length = a.users := by simpa using hnew.length_eq.symm
      have hbehind : ∀ i ∈ s.order, i < scs.length * a.users := h.length ▸ h.within
      rw [h.length, List.length_replicate] at hmoved
      refine ⟨?_, ?_, ?_, hreached⟩
      · rw [hmembers, List.flatMap_append, List.flatMap_singleton]
        exact List.rel_append h.ran (ranFor_of_over hnew fun x hx => hover x (by simp [hmembers, hx]))
      · rw [horder]
        -- All new runs have their places in one block, behind those of the scenarios before.
        refine List.pairwise_append.mpr ⟨h.apart, ?_, fun i hi j hj => ?_⟩
        · refine List.Pairwise.imp_of_mem (fun hi hj _ => ?_) (List.pairwise_of_forall fun _ _ => trivial)
          exact div_le_div_of_within (hmoved _ hi).2 (hmoved _ hj).1
        · exact div_le_div_of_within (Nat.lt_add_right _ (hbehind i hi)) (hmoved j hj).1
      · rw [horder, hmembers, List.length_append, h.length, hnewlength]
        exact List.forall_mem_append.mpr ⟨fun i hi => Nat.lt_add_right _ (hbehind i hi),
          fun i hi => (hmoved i hi).2⟩
    · rw [hmembers, List.drop_left, List.countP_map]
      exact (congrArg (List.countP _) hmembers).trans List.countP_append

theorem exists_contexts {n : Nat} {ms : List Member}
    (h : List.Forall₂ (RanFor settings config) (List.replicate n sc) ms) :
    ∃ cs : List Context, cs.length = n ∧ (∀ c ∈ cs, Seeded config.vars c) ∧ List.Forall₂ Member.Becomes
      ((cs.map (runOn settings config sc)).map fun r => { settings, run := r }) ms := by
  induction n generalizing ms with
  | zero =>
    cases h
    exact ⟨[], rfl, List.forall_mem_nil _, .nil⟩
  | succ n ih =>
    obtain _ | ⟨⟨⟨c, hc, hx⟩, -⟩, hrest⟩ := h
    obtain ⟨cs, hlength, hcs, hbecome⟩ := ih hrest
    exact ⟨c :: cs, congrArg (· + 1) hlength, List.forall_mem_cons.mpr ⟨hc, hcs⟩, .cons hx hbecome⟩

/-- Whatever the runs of one more scenario may come to, each for itself, they can come to together. -/
theorem Settled.exists_runScenario {goals : List Member} (h : Settled a settings config scs s)
    (hgoals : List.Forall₂ (RanFor settings config) (List.replicate a.users sc) goals) :
    ∃ n t, (Campaign.runScenario Stage.host a config settings sc).leads s (some n) t ∧
      t.members = s.members ++ goals := by
  obtain ⟨cs, hlength, hcs, hbecome⟩ := exists_contexts hgoals
  -- One run after the other is one of the orders in which they may move.
  obtain ⟨t, hlater, hmembers⟩ := Stage.exists_later_all
    (s := (s.noted [Campaign.announcement settings a sc.displayName
      (Task.ofSteps config.think sc.steps).length]).begun settings
        (cs.map (runOn settings config sc))) rfl hbecome
  have hover : t.Over := by
    intro x hx
    rw [hmembers] at hx
    rcases List.mem_append.mp hx with hx | hx
    · exact h.over x hx
    · obtain ⟨sc, hran⟩ := exists_of_forall₂ hgoals x hx
      exact hran.2
  exact ⟨_, _, runScenario_iff.mpr ⟨cs, _, t, rfl, hlength, hcs, hlater, Or.inr ⟨_, hover, rfl, rfl, rfl⟩⟩,
    hmembers⟩

/-! ## All scenarios -/

theorem Settled.runAll {o : Option Nat} {scs' : List Scenario} (h : Settled a settings config scs s)
    (hrun : (Campaign.runAll Stage.host a config settings scs').leads s o t) :
    o = none ∧ Disturbed settings config t ∨
    ∃ n, o = some n ∧ Settled a settings config (scs ++ scs') t ∧ t.failed = s.failed + n := by
  induction scs' generalizing scs s o t with
  | nil =>
    obtain ⟨rfl, rfl⟩ := hrun
    exact Or.inr ⟨0, rfl, (List.append_nil scs).symm ▸ h, rfl⟩
  | cons sc scs' ih =>
    obtain ⟨o', s', hfirst, hrest⟩ := hrun
    rcases h.runScenario hfirst with ⟨rfl, hdisturbed⟩ | ⟨n, rfl, h', hn⟩
    · obtain ⟨rfl, rfl⟩ := hrest
      exact Or.inl ⟨rfl, hdisturbed⟩
    · obtain ⟨o'', s'', hothers, hsum⟩ := hrest
      rcases ih h' hothers with ⟨rfl, hdisturbed⟩ | ⟨k, rfl, h'', hk⟩
      · obtain ⟨rfl, rfl⟩ := hsum
        exact Or.inl ⟨rfl, hdisturbed⟩
      · obtain ⟨rfl, rfl⟩ := hsum
        rw [List.append_assoc] at h''
        exact Or.inr ⟨n + k, rfl, h'', by omega⟩

theorem Settled.exists_runAll {scs' : List Scenario} {goals : List Member}
    (h : Settled a settings config scs s)
    (hgoals : List.Forall₂ (RanFor settings config) (scs'.flatMap (List.replicate a.users)) goals) :
    ∃ n t, (Campaign.runAll Stage.host a config settings scs').leads s (some n) t ∧
      t.members = s.members ++ goals := by
  induction scs' generalizing scs s goals with
  | nil =>
    cases hgoals
    exact ⟨0, s, ⟨rfl, rfl⟩, (List.append_nil _).symm⟩
  | cons sc scs' ih =>
    rw [List.flatMap_cons] at hgoals
    have hfront := (List.forall₂_take_append _ _ _ hgoals.flip).flip
    have hback := (List.forall₂_drop_append _ _ _ hgoals.flip).flip
    obtain ⟨n, s', hfirst, hs'⟩ := h.exists_runScenario hfront
    rcases h.runScenario hfirst with ⟨hnone, -⟩ | ⟨_, -, h', -⟩
    · cases hnone
    · obtain ⟨k, t, hothers, ht⟩ := ih h' hback
      refine ⟨n + k, t, ⟨some n, s', hfirst, some k, t, hothers, rfl, rfl⟩, ?_⟩
      rw [ht, hs', List.append_assoc, List.take_append_drop]

theorem Settled.started (h : Settled a settings config scs s) :
    s.metrics.started = scs.length * a.users % Metrics.counterLimit := by
  have hrest : ∀ x ∈ s.members, x.run.AtRest x.settings := fun x hx => by
    simp [Run.AtRest, Run.act, h.over x hx]
  have hplain : ∀ e, Happening.emitted .function e ∈ Member.history s.members → e.entry.starts = 0 := by
    intro e he
    obtain ⟨x, hx, he⟩ := List.mem_flatMap.mp he
    obtain ⟨_, hran⟩ := exists_of_forall₂ h.ran x hx
    exact (hran.1.plain _ he).elim
  rw [h.reached.tallies.started, weight_history h.reached.books hrest hplain, History.weight_due,
    h.length]
  simp [Entry.starts]

end

/-! ## The whole command -/

section

variable {a : Arguments} {contents : Except String ByteArray} {script : Script} {base : Settings}
  {s t : Stage} {v : Verdict}

theorem perform_iff (hload : Script.ofFile a.script contents = .ok script)
    (hconfig : Settings.ofConfig script.config = .ok base) :
    (Campaign.perform Stage.host a contents).leads s v t ↔
      ∃ line, line = Log.startup s!"pubsub-engine with {a.script}" ∧
        (a.chosen script = [] ∧ v = .idle a.script ∧ t = s.noted [line] ∨
        a.chosen script ≠ [] ∧ ∃ o t',
          (Campaign.runAll Stage.host a script.config (Campaign.settingsFor a base)
            (a.chosen script)).leads (s.noted [line]) o t' ∧
          (o = none ∧ v = .broken ∧ t = t' ∨
            ∃ n, o = some n ∧ v = (if n = 0 then .success else .failures n) ∧
              t = t'.noted (t'.metrics.report ++ [Log.shutdown "all scenarios finished"]))) := by
  simp only [Campaign.perform, hload, Play.bind_iff, Campaign.run, hconfig, selected_eq]
  cases hc : a.chosen script with
  | nil => simp [Stage.host, Play.pure_iff]
  | cons sc scs =>
    constructor
    · rintro ⟨_, _, rfl, o, t', hall, hrest⟩
      refine ⟨_, rfl, Or.inr ⟨by simp, o, t', hall, ?_⟩⟩
      cases o with
      | none =>
        obtain ⟨rfl, rfl⟩ := hrest
        exact Or.inl ⟨rfl, rfl, rfl⟩
      | some n =>
        obtain ⟨_, _, ⟨rfl, rfl⟩, _, _, hlines, _, _, rfl, rfl, rfl⟩ := hrest
        obtain rfl := Stage.report_iff.mp hlines
        exact Or.inr ⟨n, rfl, rfl, by simp⟩
    · rintro ⟨_, rfl, ⟨hnil, -⟩ | ⟨-, o, t', hall, ⟨rfl, rfl, rfl⟩ | ⟨n, rfl, rfl, rfl⟩⟩⟩
      · cases hnil
      · exact ⟨⟨⟩, _, rfl, none, _, hall, rfl, rfl⟩
      · exact ⟨⟨⟩, _, rfl, some n, t', hall, _, _, ⟨rfl, rfl⟩, ⟨⟩, _, Stage.report_iff.mpr rfl, ⟨⟩, _,
          rfl, rfl, by simp⟩

theorem Stage.failed_eq_zero_iff : s.failed = 0 ↔ ∀ x ∈ s.members, x.run.failure = none := by
  simp [Stage.failed, List.countP_eq_zero]

theorem Settled.accounts {settings : Settings}
    (h : Settled a settings script.config (a.chosen script) s) (hchosen : a.chosen script ≠ []) :
    Accounts a script settings (if s.failed = 0 then .success else .failures s.failed)
      (s.noted (s.metrics.report ++ [Log.shutdown "all scenarios finished"])) where
  ran := h.ran
  apart := h.apart
  started := by
    rw [Nat.mul_comm]
    exact h.started
  reported _ := ⟨s.lines, (List.append_assoc ..).symm⟩
  idle hnone := absurd hnone hchosen
  verdict _ := rfl
  succeeds := by
    rw [show (s.noted _).members = s.members from rfl, ← Stage.failed_eq_zero_iff]
    split <;> simp [*]
  told _ hfailed := by
    have hfailed' : s.failed ≠ 0 := hfailed
    rw [if_neg hfailed']
    rfl

theorem accounts_idle {settings : Settings} (hchosen : a.chosen script = []) (line : Log.Line) :
    Accounts a script settings (.idle a.script) (Stage.noted {} [line]) where
  ran := by
    rw [hchosen]
    exact .nil
  apart := .nil
  started := by
    rw [hchosen]
    rfl
  reported h := absurd hchosen h
  idle _ := rfl
  verdict h := absurd hchosen h
  succeeds := by simp [hchosen, Verdict.exitCode]
  told h := absurd hchosen h

/-- The command accounts for every run. Without calls in a dry run, and however the runs are served, once
all of them have ended there has been one of every chosen scenario for each virtual user, and verdict and
report count all of them; and whatever these runs may come to, each for itself, they can come to
together. -/
theorem campaign_accounts_for_every_run (a : Arguments) (contents : Except String ByteArray)
    (script : Script) (base : Settings) (hload : Script.ofFile a.script contents = .ok script)
    (hconfig : Settings.ofConfig script.config = .ok base) :
    (∀ v t, (Campaign.perform Stage.host a contents).leads {} v t →
      (script.config.dryRun = true ∨ a.dryRun = true →
        ∀ x ∈ t.members, x.shown.filterMap Happening.call? = []) ∧
      (t.Over → Accounts a script (Campaign.settingsFor a base) v t)) ∧
    ∀ goals, List.Forall₂ (RanFor (Campaign.settingsFor a base) script.config)
        ((a.chosen script).flatMap (List.replicate a.users)) goals →
      ∃ v t, (Campaign.perform Stage.host a contents).leads {} v t ∧ t.members = goals := by
  refine ⟨fun v t hperform => ?_, fun goals hgoals => ?_⟩
  · obtain ⟨line, -, ⟨hchosen, rfl, rfl⟩ | ⟨hchosen, o, t', hall, hcases⟩⟩ :=
      (perform_iff hload hconfig).mp hperform
    · exact ⟨fun _ => by simp [Stage.noted], fun _ => accounts_idle hchosen line⟩
    have hdry : script.config.dryRun = true ∨ a.dryRun = true →
        (Campaign.settingsFor a base).dryRun = true := by
      rw [← dryRun_of_ofConfig hconfig]
      simp [Campaign.settingsFor]
    rcases (settled_empty.noted [line]).runAll hall with ⟨rfl, hdisturbed⟩ | ⟨n, rfl, hsettled, hn⟩
    · obtain ⟨rfl, rfl⟩ : v = .broken ∧ t = t' := by simpa using hcases
      refine ⟨fun hasked x hx => ?_, fun hover => absurd hover hdisturbed.broken⟩
      obtain ⟨sc, hx⟩ := hdisturbed.runs x hx
      exact hx.dry (hdry hasked)
    · obtain rfl : t'.failed = n := hn.trans (Nat.zero_add n)
      obtain ⟨rfl, rfl⟩ : v = (if t'.failed = 0 then .success else .failures t'.failed) ∧
          t = t'.noted (t'.metrics.report ++ [Log.shutdown "all scenarios finished"]) := by
        simpa using hcases
      refine ⟨fun hasked x hx => ?_, fun _ => hsettled.accounts hchosen⟩
      obtain ⟨sc, hx⟩ := exists_of_forall₂ hsettled.ran x hx
      exact hx.1.dry (hdry hasked)
  · by_cases hchosen : a.chosen script = []
    · rw [hchosen] at hgoals
      cases hgoals
      exact ⟨_, _, (perform_iff hload hconfig).mpr ⟨_, rfl, Or.inl ⟨hchosen, rfl, rfl⟩⟩, rfl⟩
    · obtain ⟨n, t, hall, hmembers⟩ := (settled_empty.noted _).exists_runAll hgoals
      exact ⟨_, _, (perform_iff hload hconfig).mpr
        ⟨_, rfl, Or.inr ⟨hchosen, _, t, hall, Or.inr ⟨n, rfl, rfl, rfl⟩⟩⟩, hmembers⟩

end

theorem ranFor_of_ends {settings : Settings} {config : Script.Config} {sc : Scenario} {c d : Context}
    {hs : History} {e : Option Fault} (hc : Seeded config.vars c)
    (h : Run.Ends settings (runOn settings config sc c) hs d e) (hhs : ∀ a ∈ hs, a.Unaided) :
    RanFor settings config sc ⟨settings, ⟨[], d, e⟩, hs, false⟩ :=
  ⟨⟨c, hc, rfl, hs, _, h, hhs, rfl⟩, rfl⟩

/-- Three scenarios: one that fails, one for another engine, and one without steps. -/
def sample : Script :=
  { config := { project := some "p", topic := some "t" }
    scenarios := [{ flow := some [.message {}] }, { engine := some "other" }, {}] }

def isSample : Script → Bool
  | ⟨⟨none, some "p", some "t", none, ⟨none⟩, []⟩,
      [⟨none, none, some [.message ⟨none, none, none⟩]⟩, ⟨none, some "other", none⟩,
        ⟨none, none, none⟩]⟩ => true
  | _ => false

theorem eq_sample {script : Script} (h : isSample script = true) : script = sample := by
  unfold isSample at h
  split at h
  · rfl
  · cases h

def sampleText : String :=
  "\x7b\"config\":\x7b\"project\":\"p\",\"topic\":\"t\"\x7d,\"scenarios\":" ++
    "[\x7b\"flow\":[\x7b\"message\":\x7b\x7d\x7d]\x7d,\x7b\"engine\":\"other\"\x7d,\x7b\x7d]\x7d"

theorem splitOn_of_single {separator : String} (h : separator = "/" ∨ separator = ".") :
    "s".splitOn separator = ["s"] := by
  rcases h with rfl | rfl
  all_goals
    rw [String.splitOn, if_neg (by decide), String.splitOnAux, if_neg (by decide), if_neg (by decide),
      String.splitOnAux, if_pos (by decide)]
    decide

theorem load_sample : Script.ofFile "s" (.ok sampleText.toUTF8) = .ok sample := by
  have hread : (Script.ofJsonText sampleText).toOption.any isSample = true := by decide +kernel
  have hbytes : String.fromUTF8? sampleText.toUTF8 = some sampleText := by decide +kernel
  have hname : Script.fileName? "s" = some "s" := by
    rw [Script.fileName?, splitOn_of_single (Or.inl rfl)]
    decide
  have hextension : Script.extension? "s" = none := by
    rw [Script.extension?, splitOn_of_single (Or.inr rfl)]
    rfl
  have hformat : Script.Format.ofPath "s" = .json := by
    simp [Script.Format.ofPath, hname, hextension]
  rw [Script.ofFile, hbytes]
  simp only [hformat, Script.ofText]
  cases hscript : Script.ofJsonText sampleText with
  | error f =>
    rw [hscript] at hread
    cases hread
  | ok script =>
    rw [hscript] at hread
    rw [eq_sample hread]

/-- Both runs of the first scenario fail in a dry run, and both of the last one are made all the same. -/
theorem failing_scenario_stops_no_other :
    let a : Arguments := { script := "s", users := 2, dryRun := true }
    ∃ base v t, Script.ofFile a.script (.ok sampleText.toUTF8) = .ok sample ∧
      Settings.ofConfig sample.config = .ok base ∧
      (Campaign.perform Stage.host a (.ok sampleText.toUTF8)).leads {} v t ∧ t.Over ∧
      t.members.map (fun x => x.run.failure) =
        [some .missingTemplate, some .missingTemplate, none, none] ∧
      (∀ x ∈ t.members, x.shown.filterMap Happening.call? = []) ∧
      t.metrics.started = 4 ∧ v = .failures 2 := by
  intro a
  have hconfig : Settings.ofConfig sample.config = .ok ⟨none, "p", "t", false⟩ := by decide
  have hchosen : a.chosen sample = [{ flow := some [.message {}] }, {}] := rfl
  let c : Context := ⟨.ofRandom 0, .ofList [], 0, none, .notStarted⟩
  have hc : Seeded sample.config.vars c := ⟨rfl, rfl, rfl⟩
  obtain ⟨x, hx, hxfailed⟩ : ∃ x, RanFor ⟨none, "p", "t", true⟩ sample.config
      { flow := some [.message {}] } x ∧ x.run.failure = some .missingTemplate :=
    ⟨_, ranFor_of_ends hc (.served (.emit .started) <| .served .enter <| .served (.note _) <|
      .served (.acquired _ ⟨"address", {}⟩) <| .served (.untemplated rfl) <|
      .served (.broken "unnamed" rfl) <| Run.ends_nil_iff.mpr ⟨rfl, rfl, rfl⟩)
      (by simp [Happening.Unaided]), rfl⟩
  obtain ⟨y, hy, hyfailed⟩ : ∃ y, RanFor ⟨none, "p", "t", true⟩ sample.config {} y ∧
      y.run.failure = none :=
    ⟨_, ranFor_of_ends hc (.served (.emit .started) <| .served .enter <| .served (.note _) <|
      .served (.acquired _ ⟨"address", {}⟩) <| .served (.completed "unnamed" rfl) <|
      Run.ends_nil_iff.mpr ⟨rfl, rfl, rfl⟩) (by simp [Happening.Unaided]), rfl⟩
  have hgoals : List.Forall₂ (RanFor ⟨none, "p", "t", true⟩ sample.config)
      ((a.chosen sample).flatMap (List.replicate a.users)) [x, x, y, y] := by
    rw [hchosen]
    exact .cons hx (.cons hx (.cons hy (.cons hy .nil)))
  obtain ⟨hall, hsome⟩ := campaign_accounts_for_every_run a (.ok sampleText.toUTF8) sample _
    load_sample hconfig
  obtain ⟨v, t, hperform, hmembers⟩ := hsome [x, x, y, y] hgoals
  obtain ⟨hdry, haccounts⟩ := hall v t hperform
  have hover : t.Over := by
    simp [Stage.Over, hmembers, hx.2, hy.2]
  have hfailed : t.failed = 2 := by simp [Stage.failed, hmembers, hxfailed, hyfailed]
  refine ⟨_, v, t, load_sample, hconfig, hperform, hover, by simp [hmembers, hxfailed, hyfailed],
    hdry (Or.inr rfl), (haccounts hover).started.trans (by simp [hchosen, a, Metrics.counterLimit, Limits.bits64]), ?_⟩
  rw [(haccounts hover).verdict (by simp [hchosen]), hfailed]
  rfl

end Command
end TopicLoad
