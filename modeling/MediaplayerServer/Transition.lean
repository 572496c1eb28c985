set_option autoImplicit false

namespace MediaplayerServer.Transition

variable {σ α : Type}

/-- Take the listed steps in order; `none` as soon as one of them is not enabled. A label carries
every choice the environment makes, so that a run is the list of its labels. -/
def run (step : σ → α → Option σ) : σ → List α → Option σ
  | state, [] => some state
  | state, action :: rest => (step state action).bind fun next => run step next rest

@[simp] theorem run_nil (step : σ → α → Option σ) (state : σ) :
    run step state [] = some state := rfl

theorem run_cons (step : σ → α → Option σ) (state : σ) (action : α) (rest : List α) :
    run step state (action :: rest) =
      (step state action).bind fun next => run step next rest := rfl

theorem run_cons_iff (step : σ → α → Option σ) (state final : σ) (action : α)
    (rest : List α) :
    run step state (action :: rest) = some final ↔
      ∃ next, step state action = some next ∧ run step next rest = some final := by
  rw [run_cons, Option.bind_eq_some_iff]

theorem run_append (step : σ → α → Option σ) (state : σ) (first second : List α) :
    run step state (first ++ second) =
      (run step state first).bind fun middle => run step middle second := by
  induction first generalizing state with
  | nil => rfl
  | cons action rest ih =>
      simp only [List.cons_append, run_cons, Option.bind_assoc, ih]

theorem run_append_iff (step : σ → α → Option σ) (state final : σ) (first second : List α) :
    run step state (first ++ second) = some final ↔
      ∃ middle, run step state first = some middle ∧ run step middle second = some final := by
  rw [run_append, Option.bind_eq_some_iff]

theorem run_snoc_iff (step : σ → α → Option σ) (state final : σ) (rest : List α) (action : α) :
    run step state (rest ++ [action]) = some final ↔
      ∃ middle, run step state rest = some middle ∧ step middle action = some final := by
  rw [run_append_iff]
  simp only [run_cons_iff, run_nil, Option.some.injEq, exists_eq_right]

/-- `guard` holds of every step the run takes, in the state the step is taken from. -/
def Along (step : σ → α → Option σ) (guard : σ → α → Prop) (state : σ) (actions : List α) :
    Prop :=
  ∀ before action after middle, actions = before ++ action :: after →
    run step state before = some middle → guard middle action

/-- `property` holds in every state the run goes through, the first one included. -/
def Throughout (step : σ → α → Option σ) (property : σ → Prop) (state : σ)
    (actions : List α) : Prop :=
  ∀ before after middle, actions = before ++ after →
    run step state before = some middle → property middle

theorem Along.left {step : σ → α → Option σ} {guard : σ → α → Prop} {state : σ}
    {first second : List α} (along : Along step guard state (first ++ second)) :
    Along step guard state first := by
  intro before action after middle split reached
  refine along before action (after ++ second) middle ?_ reached
  rw [split, List.append_assoc, List.cons_append]

theorem Along.right {step : σ → α → Option σ} {guard : σ → α → Prop} {state middle : σ}
    {first second : List α} (along : Along step guard state (first ++ second))
    (reached : run step state first = some middle) : Along step guard middle second := by
  intro before action after current split onward
  refine along (first ++ before) action after current ?_ ?_
  · rw [split, List.append_assoc]
  · exact (run_append_iff _ _ _ _ _).mpr ⟨middle, reached, onward⟩

theorem Throughout.right {step : σ → α → Option σ} {property : σ → Prop} {state middle : σ}
    {first second : List α} (throughout : Throughout step property state (first ++ second))
    (reached : run step state first = some middle) :
    Throughout step property middle second := by
  intro before after current split onward
  refine throughout (first ++ before) after current ?_ ?_
  · rw [split, List.append_assoc]
  · exact (run_append_iff _ _ _ _ _).mpr ⟨middle, reached, onward⟩

/-- Every step of the run leads to a state that has the property. -/
theorem Throughout.next {step : σ → α → Option σ} {property : σ → Prop} {state : σ}
    {actions : List α} (throughout : Throughout step property state actions) :
    Along step (fun state action => ∀ next, step state action = some next → property next)
      state actions := by
  intro before action after middle split reached next stepped
  refine throughout (before ++ [action]) after next ?_ ?_
  · rw [split, List.append_assoc, List.singleton_append]
  · exact (run_snoc_iff _ _ _ _ _).mpr ⟨middle, reached, stepped⟩

@[simp] theorem along_nil (step : σ → α → Option σ) (guard : σ → α → Prop) (state : σ) :
    Along step guard state [] := by
  intro before action after middle split
  simp at split

theorem along_cons_iff (step : σ → α → Option σ) (guard : σ → α → Prop) (state : σ)
    (action : α) (rest : List α) :
    Along step guard state (action :: rest) ↔
      guard state action ∧ ∀ next, step state action = some next →
        Along step guard next rest := by
  constructor
  · intro along
    refine ⟨along [] action rest state rfl rfl, fun next stepped => ?_⟩
    have single : run step state [action] = some next :=
      (run_cons_iff _ _ _ _ _).mpr ⟨next, stepped, rfl⟩
    exact (show Along step guard state ([action] ++ rest) from along).right single
  · rintro ⟨here, onward⟩ before current after middle split reached
    cases before with
    | nil =>
        rw [List.nil_append, List.cons.injEq] at split
        rw [run_nil, Option.some.injEq] at reached
        rwa [← split.1, ← reached]
    | cons first before =>
        rw [List.cons_append, List.cons.injEq] at split
        obtain ⟨next, stepped, further⟩ := (run_cons_iff _ _ _ _ _).mp reached
        rw [← split.1] at stepped
        exact onward next stepped before current after middle split.2 further

/-- The guard can be tested along a concrete run. -/
instance decidableAlong (step : σ → α → Option σ) (guard : σ → α → Prop)
    [∀ state action, Decidable (guard state action)] :
    ∀ state actions, Decidable (Along step guard state actions)
  | state, [] => isTrue (along_nil step guard state)
  | state, action :: rest =>
      match stepped : step state action with
      | none =>
          decidable_of_iff (guard state action) (by simp [along_cons_iff, stepped])
      | some next =>
          have := decidableAlong step guard next rest
          decidable_of_iff (guard state action ∧ Along step guard next rest)
            (by simp [along_cons_iff, stepped])

/-- The run rule: an invariant that every guarded step keeps holds at the end of
every guarded run. -/
theorem run_invariant {step : σ → α → Option σ} {guard : σ → α → Prop}
    {invariant : σ → Prop}
    (keeps : ∀ state action next, invariant state → guard state action →
      step state action = some next → invariant next)
    {state final : σ} {actions : List α} (start : invariant state)
    (along : Along step guard state actions)
    (reached : run step state actions = some final) : invariant final := by
  induction actions generalizing state with
  | nil =>
      rw [run_nil, Option.some.injEq] at reached
      rwa [← reached]
  | cons action rest ih =>
      obtain ⟨next, stepped, onward⟩ := (run_cons_iff _ _ _ _ _).mp reached
      obtain ⟨here, further⟩ := (along_cons_iff _ _ _ _ _).mp along
      exact ih (keeps state action next start here stepped) (further next stepped) onward

/-- The run rule for an invariant that every step keeps. -/
theorem run_invariant_of_step {step : σ → α → Option σ} {invariant : σ → Prop}
    (keeps : ∀ state action next, invariant state → step state action = some next →
      invariant next)
    {state final : σ} {actions : List α} (start : invariant state)
    (reached : run step state actions = some final) : invariant final :=
  have unguarded : Along step (fun _ _ => True) state actions := fun _ _ _ _ _ _ => trivial
  run_invariant
    (fun current action next holds _ stepped => keeps current action next holds stepped)
    start unguarded reached

/-- The run rule for an invariant that also tells of the steps taken so far. -/
theorem run_invariant_of_trace {step : σ → α → Option σ} {invariant : List α → σ → Prop}
    (keeps : ∀ actions state action next, invariant actions state →
      step state action = some next → invariant (actions ++ [action]) next)
    {state final : σ} {actions : List α} (start : invariant [] state)
    (reached : run step state actions = some final) : invariant actions final := by
  suffices onward : ∀ before state, invariant before state →
      run step state actions = some final → invariant (before ++ actions) final from
    onward [] state start reached
  clear start reached
  induction actions with
  | nil =>
      intro before state holds reached
      rw [run_nil, Option.some.injEq] at reached
      rwa [List.append_nil, ← reached]
  | cons action rest ih =>
      intro before state holds reached
      obtain ⟨next, stepped, onward⟩ := (run_cons_iff _ _ _ _ _).mp reached
      rw [← List.singleton_append, ← List.append_assoc]
      exact ih (before ++ [action]) next (keeps before state action next holds stepped) onward

/-- The run rule for a guard that looks at the labels alone. -/
theorem run_invariant_of_forall {step : σ → α → Option σ} {guard : α → Prop}
    {invariant : σ → Prop}
    (keeps : ∀ state action next, invariant state → guard action →
      step state action = some next → invariant next)
    {state final : σ} {actions : List α} (start : invariant state)
    (all : ∀ action ∈ actions, guard action)
    (reached : run step state actions = some final) : invariant final := by
  have along : Along step (fun _ action => guard action) state actions := by
    intro before action after middle split _
    exact all action (by rw [split]; simp)
  exact run_invariant keeps start along reached

theorem throughout_of_along {step : σ → α → Option σ} {guard : σ → α → Prop}
    {invariant property : σ → Prop}
    (keeps : ∀ state action next, invariant state → guard state action →
      step state action = some next → invariant next)
    (implies : ∀ state, invariant state → property state)
    {state : σ} {actions : List α} (start : invariant state)
    (along : Along step guard state actions) : Throughout step property state actions := by
  intro before after middle split reached
  subst split
  exact implies middle (run_invariant keeps start along.left reached)

/-- Under an invariant that a run's guarded steps keep, the steps meet whatever guard
the invariant gives them. -/
theorem along_of_invariant {step : σ → α → Option σ} {guard weak : σ → α → Prop}
    {invariant : σ → Prop}
    (keeps : ∀ state action next, invariant state → guard state action →
      step state action = some next → invariant next)
    (implies : ∀ state action next, invariant state → guard state action →
      step state action = some next → weak state action)
    {state final : σ} {actions : List α} (start : invariant state)
    (along : Along step guard state actions)
    (reached : run step state actions = some final) : Along step weak state actions := by
  intro before action after middle split onward
  subst split
  have valid := run_invariant keeps start along.left onward
  rw [run_append, onward, Option.bind_some] at reached
  obtain ⟨next, stepped, -⟩ := (run_cons_iff _ _ _ _ _).mp reached
  exact implies middle action next valid
    (along before action after middle rfl onward) stepped

/-- Where one step keeps the property exactly if it meets the guard, a run has the
property in all its states exactly if all its steps meet the guard. -/
theorem throughout_iff_along {step : σ → α → Option σ} {guard : σ → α → Prop}
    {invariant property : σ → Prop}
    (keeps : ∀ state action next, invariant state → step state action = some next →
      invariant next)
    (exact : ∀ state action next, invariant state → property state →
      step state action = some next → (property next ↔ guard state action))
    {state final : σ} {actions : List α} (start : invariant state) (holds : property state)
    (reached : run step state actions = some final) :
    Throughout step property state actions ↔ Along step guard state actions := by
  constructor
  · intro throughout before action after middle split onward
    have rest : run step middle (action :: after) = some final := by
      rw [split, run_append, onward] at reached
      exact reached
    obtain ⟨next, stepped, -⟩ := (run_cons_iff _ _ _ _ _).mp rest
    have here := throughout before (action :: after) middle split onward
    have there := throughout.next before action after middle split onward next stepped
    have valid := run_invariant_of_step keeps start onward
    exact (exact middle action next valid here stepped).mp there
  · intro along
    have both : ∀ current action next, invariant current ∧ property current →
        guard current action → step current action = some next →
        invariant next ∧ property next := by
      intro current action next valid met stepped
      exact ⟨keeps current action next valid.1 stepped,
        (exact current action next valid.1 valid.2 stepped).mpr met⟩
    exact throughout_of_along both (fun _ valid => valid.2) ⟨start, holds⟩ along

/-- Some run from the state ends where the goal holds. -/
def CanReach (step : σ → α → Option σ) (goal : σ → Prop) (state : σ) : Prop :=
  ∃ actions final, run step state actions = some final ∧ goal final

theorem canReach_here {step : σ → α → Option σ} {goal : σ → Prop} {state : σ}
    (holds : goal state) : CanReach step goal state :=
  ⟨[], state, rfl, holds⟩

theorem canReach_step {step : σ → α → Option σ} {goal : σ → Prop} {state next : σ} {action : α}
    (stepped : step state action = some next) (onward : CanReach step goal next) :
    CanReach step goal state := by
  obtain ⟨actions, final, reached, holds⟩ := onward
  exact ⟨action :: actions, final, (run_cons_iff _ _ _ _ _).mpr ⟨next, stepped, reached⟩, holds⟩

/-- A goal that an invariant excludes cannot be reached from where the invariant holds. -/
theorem not_canReach {step : σ → α → Option σ} {goal invariant : σ → Prop} {state : σ}
    (keeps : ∀ state action next, invariant state → step state action = some next →
      invariant next)
    (excludes : ∀ state, invariant state → ¬goal state) (start : invariant state) :
    ¬CanReach step goal state := by
  rintro ⟨actions, final, reached, holds⟩
  exact excludes final (run_invariant_of_step keeps start reached) holds

end MediaplayerServer.Transition
