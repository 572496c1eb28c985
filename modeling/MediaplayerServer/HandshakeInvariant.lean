import MediaplayerServer.Handshake

set_option autoImplicit false

namespace MediaplayerServer.Handshake

open Transition

/-- What init waits for: it returns only after the callback has run, and once the
callback has run it is not left asleep. -/
structure Sound (state : State) : Prop where
  returned : state.init = .returned → state.callback = .finished
  awake : ¬(state.callback = .finished ∧ state.init = .parked ∧ state.pending = false)

/-- The callback notifies only once init has entered its wait, and cv.wait wakes up
without a notification only while the callback is already inside its lock. -/
def Timely (state : State) : Action → Prop
  | .notifyOne => state.init = .parked ∨ state.init = .relock
  | .wake => state.pending = true ∨ state.callback = .locked
  | _ => True

instance (state : State) (action : Action) : Decidable (Timely state action) := by
  unfold Timely
  split <;> infer_instance

/-- init starts to wait only before the callback is through, and leaves its wait only
after. -/
def Orderly (state : State) : Action → Prop
  | .wait => state.callback ≠ .finished
  | .relock => state.callback = .finished
  | _ => True

/-- Each thread holds mtx exactly between its lock and its unlock. -/
structure Exclusive (state : State) : Prop where
  main : state.init = .wait → state.mtx = some .main
  dispatcher : state.callback = .locked ∨ state.callback = .notified →
    state.mtx = some .dispatcher

theorem initial_exclusive : Exclusive initial := by
  constructor <;> decide

theorem step_exclusive (state : State) (action : Action) (next : State)
    (valid : Exclusive state) (stepped : step state action = some next) : Exclusive next := by
  obtain ⟨main, dispatcher⟩ := valid
  cases action <;>
    simp only [step, Option.ite_none_right_eq_some, Option.some.injEq] at stepped <;>
    obtain ⟨enabled, rfl⟩ := stepped <;>
    constructor <;> grind

/-- A notification is pending exactly while it was sent to a parked init that has not
woken up. -/
structure Notified (state : State) : Prop where
  exclusive : Exclusive state
  parked : state.pending = true → state.init = .parked
  pending : state.callback = .notified → state.init = .parked → state.pending = true

theorem initial_notified : Notified initial :=
  ⟨initial_exclusive, nofun, nofun⟩

theorem step_notified (state : State) (action : Action) (next : State)
    (valid : Notified state) (stepped : step state action = some next) : Notified next := by
  have exclusive := step_exclusive state action next valid.exclusive stepped
  obtain ⟨⟨main, dispatcher⟩, parked, pending⟩ := valid
  cases action <;>
    simp only [step, Option.ite_none_right_eq_some, Option.some.injEq] at stepped <;>
    obtain ⟨enabled, rfl⟩ := stepped <;>
    refine ⟨exclusive, ?_, ?_⟩ <;> grind

/-- One step keeps the handshake sound exactly if it is orderly. -/
theorem step_sound (state : State) (action : Action) (next : State) (valid : Notified state)
    (sound : Sound state) (stepped : step state action = some next) :
    Sound next ↔ Orderly state action := by
  obtain ⟨⟨main, dispatcher⟩, parked, pending⟩ := valid
  obtain ⟨returned, awake⟩ := sound
  cases action <;>
    simp only [step, Option.ite_none_right_eq_some, Option.some.injEq] at stepped <;>
    obtain ⟨enabled, rfl⟩ := stepped
  case wait =>
    constructor
    · intro after finished
      have silent : state.pending = false := by grind
      exact after.awake ⟨finished, rfl, silent⟩
    · intro early
      exact ⟨nofun, fun asleep => early asleep.1⟩
  case relock =>
    constructor
    · intro after
      exact after.returned rfl
    · intro done
      refine ⟨fun _ => done, ?_⟩
      rintro ⟨-, asleep, -⟩
      cases asleep
  all_goals
    refine iff_of_true ⟨?_, ?_⟩ trivial <;> grind

/-- What timely steps keep: init leaves its wait only under the callback's lock or
after it, and the callback's notification stays visible until init has used it. -/
structure Invariant (state : State) : Prop where
  exclusive : Exclusive state
  woken : state.init = .relock →
    state.callback = .locked ∨ state.callback = .notified ∨ state.callback = .finished
  sent : state.pending = true → state.callback = .notified ∨ state.callback = .finished
  last : state.init = .returned → state.callback = .finished
  after : state.callback = .notified ∨ state.callback = .finished →
    state.init = .parked ∧ state.pending = true ∨ state.init = .relock ∨ state.init = .returned

theorem initial_invariant : Invariant initial := by
  constructor
  · exact initial_exclusive
  all_goals decide

theorem step_invariant (state : State) (action : Action) (next : State)
    (valid : Invariant state) (timely : Timely state action)
    (stepped : step state action = some next) : Invariant next := by
  have exclusive := step_exclusive state action next valid.exclusive stepped
  obtain ⟨⟨main, dispatcher⟩, woken, sent, last, after⟩ := valid
  cases action <;>
    simp only [step, Option.ite_none_right_eq_some, Option.some.injEq] at stepped <;>
    obtain ⟨enabled, rfl⟩ := stepped
  case notifyOne =>
    refine ⟨exclusive, fun _ => Or.inr (Or.inl rfl), fun _ => Or.inl rfl, ?_, fun _ => ?_⟩
    · intro returned
      have early := last returned
      rw [enabled] at early
      cases early
    · rcases timely with parked | relock
      · exact Or.inl ⟨parked, by simp only [parked, decide_true]⟩
      · exact Or.inr (Or.inl relock)
  case wake =>
    refine ⟨exclusive, fun _ => ?_, nofun, nofun, fun _ => Or.inr (Or.inl rfl)⟩
    rcases timely with pending | locked
    · exact Or.inr (sent pending)
    · exact Or.inl locked
  case relock =>
    -- mtx is free, so the callback is past its unlock
    have done : state.callback = .finished := by
      rcases woken enabled.1 with locked | notified | done
      · have taken := dispatcher (Or.inl locked)
        rw [enabled.2] at taken
        cases taken
      · have taken := dispatcher (Or.inr notified)
        rw [enabled.2] at taken
        cases taken
      · exact done
    exact ⟨exclusive, nofun, sent, fun _ => done, fun _ => Or.inr (Or.inr rfl)⟩
  case unlockCallback =>
    exact ⟨exclusive, fun _ => Or.inr (Or.inr rfl), fun _ => Or.inr rfl, fun _ => rfl,
      fun _ => after (Or.inl enabled)⟩
  all_goals
    refine ⟨exclusive, ?_, ?_, ?_, ?_⟩ <;> grind

/-- In a run of timely steps init waits and returns in order. -/
theorem orderly_of_timely (actions : List Action) (state : State)
    (reached : run step initial actions = some state)
    (timely : Along step Timely initial actions) : Along step Orderly initial actions := by
  refine along_of_invariant step_invariant ?_ initial_invariant timely reached
  intro before action next valid timely stepped
  have after := step_invariant before action next valid timely stepped
  cases action with
  | wait =>
      intro finished
      simp only [step, Option.ite_none_right_eq_some, Option.some.injEq] at stepped
      have late := valid.after (Or.inr finished)
      simp [stepped.1] at late
  | relock =>
      simp only [step, Option.ite_none_right_eq_some, Option.some.injEq] at stepped
      obtain ⟨enabled, rfl⟩ := stepped
      exact after.last rfl
  | _ => trivial

/-- cv.wait wakes up before any bus name was acquired, and init returns. -/
def spuriousWakeup : List Action :=
  [.startThread, .registerMediaplayerServer, .registerMediainfoServer, .addTimer, .lock, .wait,
    .wake, .relock]

/-- The callback runs to its end before init takes mtx; its notification is lost. -/
def lostNotification : List Action :=
  [.startThread, .registerMediaplayerServer, .onMediaplayerBusAcquired, .lockCallback,
    .notifyOne, .unlockCallback, .registerMediainfoServer, .addTimer, .lock, .wait]

theorem init_misses_callback :
    (∃ state, run step initial spuriousWakeup = some state ∧ ¬Sound state) ∧
      (∃ state, run step initial lostNotification = some state ∧ ¬Sound state) := by
  refine ⟨⟨_, rfl, fun sound => ?_⟩, ⟨_, rfl, fun sound => ?_⟩⟩
  · exact absurd (sound.returned rfl) (by decide)
  · exact sound.awake ⟨rfl, rfl, rfl⟩

/-- In every run, the handshake is sound in all states exactly if every wait begins
before the callback is through and every wait is left after it; and it is so in every
timely run. -/
theorem handshake_sound_iff (actions : List Action) (state : State)
    (reached : run step initial actions = some state) :
    (Throughout step Sound initial actions ↔ Along step Orderly initial actions) ∧
      (Along step Timely initial actions → Throughout step Sound initial actions) := by
  have start : Sound initial := by
    constructor <;> decide
  have exact : Throughout step Sound initial actions ↔ Along step Orderly initial actions :=
    throughout_iff_along step_notified step_sound initial_notified start reached
  exact ⟨exact, fun timely => exact.mpr (orderly_of_timely actions state reached timely)⟩

/-- The order init is written for. -/
def punctual : List Action :=
  [.startThread, .registerMediaplayerServer, .registerMediainfoServer, .addTimer, .lock, .wait,
    .onMediaplayerBusAcquired, .lockCallback, .notifyOne, .wake, .unlockCallback, .relock]

theorem punctual_run_sound :
    ∃ state, run step initial punctual = some state ∧ state.init = .returned ∧
      Throughout step Sound initial punctual :=
  ⟨_, rfl, rfl, (handshake_sound_iff punctual _ rfl).2 (by decide)⟩

end MediaplayerServer.Handshake
