import TopicLoad.Proofs.Behaviour

/-! The behaviour of loops. A loop takes the loop variable away, takes its turns, each of which binds the
variable anew, and gives the variable back at the end, however it ends. -/
namespace TopicLoad
namespace Engine
namespace Run

variable {settings : Settings} {c : Context} {count : LoopCount} {turns : Nat} {body : List Task}

theorem work_loop : work settings [.task (.loop count body)] c =
    .Closing (work settings [.turn count 0 body] (c.setVar loopVar none)) fun d =>
      d.setVar loopVar (c.vars.get? loopVar) :=
  (behaviour_silent rfl).trans (work_rebind [.turn count 0 body] (c.vars.get? loopVar))

theorem work_turn_done (h : goesOn count turns = false) :
    work settings [.turn count turns body] c = .Idle c := by
  have hact : act settings ⟨[.turn count turns body], c, none⟩ = .silent ⟨[], c, none⟩ := by
    simp [act, h, goOn]
  exact (behaviour_silent hact).trans work_nil

theorem work_turn (h : goesOn count turns = true) :
    work settings [.turn count turns body] c =
      .AndThen (work settings (body.map .task) (c.setVar loopVar (some (.ofNat (turns + 1)))))
        (work settings [.surrender, .turn count (turns + 1) body]) := by
  have hact : act settings ⟨[.turn count turns body], c, none⟩ =
      .silent ⟨body.map .task ++ [.surrender, .turn count (turns + 1) body],
        c.setVar loopVar (some (.ofNat (turns + 1))), none⟩ := by
    simp [act, h, goWith]
  exact (behaviour_silent hact).trans (work_append (body.map .task) (by simp [Frame.survives]))

theorem work_tasks_append (ts ts' : List Task) :
    work settings ((ts ++ ts').map .task) c =
      .AndThen (work settings (ts.map .task) c) (work settings (ts'.map .task)) := by
  rw [List.map_append]
  exact work_append _ (filter_survives_tasks ts')

theorem work_tasks_cons (t : Task) (ts : List Task) :
    work settings ((t :: ts).map .task) c =
      .AndThen (work settings [.task t] c) (work settings (ts.map .task)) :=
  work_tasks_append [t] ts

theorem seen_surrender {allowed : Happening → Prop} {looked : Happening → Bool} {fs : List Frame}
    (ha : allowed .surrendered) (hl : looked .surrendered = false) :
    Behaviour.Seen allowed looked (work settings (.surrender :: fs) c) =
      .Seen allowed looked (work settings fs c) := by
  refine seen_unlooked (fun hm _ => ?_) ⟨_, ⟨rfl, rfl⟩, by simpa using ha⟩
  obtain ⟨rfl, rfl⟩ := hm
  exact ⟨by simp [hl], rfl⟩

/-- How the turns of a loop go: there are none left, or the body of a turn fails, or it is worked off and
others may go on before the next turn. -/
inductive Turns (settings : Settings) (count : LoopCount) (body : List Task) :
    Nat → Context → History → Context → Option Fault → Prop where
  | done {turns : Nat} (c : Context) (h : goesOn count turns = false) :
    Turns settings count body turns c [] c none
  | broken {turns : Nat} {c d : Context} {hs : History} {f : Fault} (h : goesOn count turns = true)
    (hbody : Ends settings ⟨body.map .task, c.setVar loopVar (some (.ofNat (turns + 1))), none⟩
      hs d (some f)) : Turns settings count body turns c hs d (some f)
  | next {turns : Nat} {c c' d : Context} {hs hs' : History} {e : Option Fault}
    (h : goesOn count turns = true)
    (hbody : Ends settings ⟨body.map .task, c.setVar loopVar (some (.ofNat (turns + 1))), none⟩
      hs c' none)
    (hrest : Turns settings count body (turns + 1) c' hs' d e) :
    Turns settings count body turns c (hs ++ .surrendered :: hs') d e

/-- A loop that comes to its end has taken its turns, however many it might have taken. By induction on
the path, which is either between two turns or within the body of one. -/
theorem turns_of_path {q q' : Run} {hs : History} (h : Path settings q hs q') (hq' : q'.control = []) :
    (∀ turns c, q = ⟨[.turn count turns body], c, none⟩ →
      Turns settings count body turns c hs q'.context q'.failure) ∧
    ∀ turns r, q = atop [.surrender, .turn count (turns + 1) body] r →
      (∃ f, q'.failure = some f ∧ Ends settings r hs q'.context (some f)) ∨
      ∃ hs₁ c' hs₂, Ends settings r hs₁ c' none ∧ hs = hs₁ ++ .surrendered :: hs₂ ∧
        Turns settings count body (turns + 1) c' hs₂ q'.context q'.failure := by
  induction h with
  | refl q =>
    obtain ⟨_, d, e⟩ := q
    obtain rfl : _ = [] := hq'
    refine ⟨fun turns c hq => ?_, fun turns r hq => Or.inl ?_⟩
    · simp at hq
    · obtain ⟨fs, c, failure⟩ := r
      simp only [atop, Run.mk.injEq] at hq
      obtain ⟨hfs, rfl, rfl⟩ := hq
      obtain ⟨rfl, hrest⟩ := List.append_eq_nil_iff.mp hfs.symm
      cases e with
      | none => cases hrest
      | some f => exact ⟨f, rfl, .refl _⟩
  | @step q q₁ q' hs hs' hm hp ih =>
    obtain ⟨ihhead, ihbody⟩ := ih hq'
    refine ⟨fun turns c hq => ?_, fun turns r hq => ?_⟩
    · subst hq
      obtain ⟨u, hu, rfl⟩ := moves_cons_iff.mp hm
      cases hu with
      | turn _ hn =>
        have hturn := ihbody turns ⟨body.map .task, c.setVar loopVar (some (.ofNat (turns + 1))), none⟩
          (by simp [atop, remaining, Upshot.run])
        rcases hturn with ⟨f, hf, hbody⟩ | ⟨hs₁, c', hs₂, hbody, rfl, hrest⟩
        · exact hf ▸ .broken hn hbody
        · exact .next hn hbody hrest
      | done _ hn =>
        obtain ⟨rfl, rfl⟩ := path_nil_iff.mp hp
        exact .done c hn
    · subst hq
      by_cases hr : r.control = []
      · obtain ⟨_, c, failure⟩ := r
        obtain rfl : _ = [] := hr
        cases failure with
        | some f => exact absurd hm not_moves_nil
        | none =>
          obtain ⟨rfl, rfl⟩ := hm
          exact Or.inr ⟨[], c, hs', .refl _, rfl, ihhead (turns + 1) c rfl⟩
      · obtain ⟨r', hm', rfl⟩ := (moves_atop_iff _ hr).mp hm
        rcases ihbody turns r' rfl with ⟨f, hf, hbody⟩ | ⟨hs₁, c', hs₂, hbody, rfl, hrest⟩
        · exact Or.inl ⟨f, hf, .step hm' hbody⟩
        · exact Or.inr ⟨hs ++ hs₁, c', hs₂, .step hm' hbody, (List.append_assoc ..).symm, hrest⟩

theorem turns_of_ends {turns : Nat} {hs : History} {d : Context} {e : Option Fault}
    (h : Ends settings ⟨[.turn count turns body], c, none⟩ hs d e) :
    Turns settings count body turns c hs d e := (turns_of_path h rfl).1 turns c rfl

end Run
end Engine
end TopicLoad
