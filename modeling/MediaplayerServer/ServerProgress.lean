import MediaplayerServer.ServerLedger

set_option autoImplicit false

namespace MediaplayerServer

open Transition

namespace Handshake

/-- init has added the updateProgress timer. -/
def State.armed (state : State) : Bool :=
  match state.init with
  | .startThread => false
  | .ownMediaplayer => false
  | .ownMediainfo => false
  | .addTimer => false
  | .lock => true
  | .wait => true
  | .parked => true
  | .relock => true
  | .returned => true

theorem step_armed (state : State) (action : Action) (next : State)
    (stepped : step state action = some next) :
    next.armed = (state.armed || decide (action = .addTimer)) := by
  cases action <;>
    simp only [step, Option.ite_none_right_eq_some, Option.some.injEq] at stepped <;>
    obtain ⟨enabled, rfl⟩ := stepped <;>
    simp_all [State.armed]

theorem addTimer_unarmed (state next : State) (stepped : step state .addTimer = some next) :
    state.armed = false := by
  simp only [step, Option.ite_none_right_eq_some] at stepped
  simp only [State.armed, stepped.1]

end Handshake

namespace Server

/-- updateProgress runs only once a player is registered. -/
def TickRegistered (server : Server) : Action → Prop
  | .tickPosition _ => server.mMediaPlayer = true
  | _ => True

instance (server : Server) (action : Action) : Decidable (TickRegistered server action) := by
  unfold TickRegistered
  split <;> infer_instance

/-- Everything a step can do to the timer source and to the registration. -/
inductive TimerChange (server next : Server) (action : Action) : Prop
  | startup (inner : Handshake.Action) (asked : action = .startup inner)
      (stepped : Handshake.step server.handshake inner = some next.handshake)
      (timer : next.timer = (server.timer || decide (inner = .addTimer)))
      (registered : next.mMediaPlayer = server.mMediaPlayer)
  | construct (returned : server.handshake.init = .returned)
      (handshake : next.handshake = server.handshake) (timer : next.timer = server.timer)
  | removed (tick : ∃ position, action = .tickPosition position)
      (unregistered : server.mMediaPlayer = false) (installed : server.timer = true)
      (handshake : next.handshake = server.handshake) (timer : next.timer = false)
      (registered : next.mMediaPlayer = server.mMediaPlayer)
  | kept (handshake : next.handshake = server.handshake) (timer : next.timer = server.timer)
      (registered : next.mMediaPlayer = server.mMediaPlayer)

theorem step_timer (server next : Server) (action : Action)
    (stepped : step server action = some next) : TimerChange server next action := by
  cases stepped_of_step server next action stepped with
  | startup inner handshake begins moved => exact .startup inner rfl moved rfl rfl
  | construct main returned => exact .construct returned rfl rfl
  | removed position free installed unregistered =>
      exact .removed ⟨position, rfl⟩ unregistered installed rfl rfl rfl
  | _ => exact .kept rfl rfl rfl

/-- The source is installed, and a player registered, only after init added the timer. -/
structure Armed (server : Server) : Prop where
  timer : server.timer = true → server.handshake.armed = true
  registered : server.mMediaPlayer = true → server.handshake.armed = true

theorem initial_armed : Armed initial := by
  constructor <;> nofun

theorem step_armed (server : Server) (action : Action) (next : Server) (valid : Armed server)
    (stepped : step server action = some next) : Armed next := by
  rcases step_timer server next action stepped with
    ⟨inner, -, moved, timer, registered⟩ | ⟨returned, handshake, timer⟩ |
      ⟨-, -, -, handshake, timer, registered⟩ | ⟨handshake, timer, registered⟩
  · have armed := Handshake.step_armed _ _ _ moved
    constructor
    · intro installed
      rw [timer, Bool.or_eq_true] at installed
      rw [armed, Bool.or_eq_true]
      exact installed.imp_left valid.timer
    · intro known
      rw [registered] at known
      rw [armed, valid.registered known, Bool.true_or]
  · have armed : server.handshake.armed = true := by
      simp only [Handshake.State.armed, returned]
    rw [← handshake] at armed
    exact ⟨fun _ => armed, fun _ => armed⟩
  · constructor
    · intro installed
      rw [timer] at installed
      cases installed
    · intro known
      rw [registered] at known
      rw [handshake]
      exact valid.registered known
  · constructor
    · intro installed
      rw [timer] at installed
      rw [handshake]
      exact valid.timer installed
    · intro known
      rw [registered] at known
      rw [handshake]
      exact valid.registered known

/-- While every tick finds a registered player, the source stays from init on. -/
def Installed (server : Server) : Prop :=
  server.handshake.armed = true → server.timer = true

theorem step_installed (server : Server) (action : Action) (next : Server)
    (installed : Installed server) (tick : TickRegistered server action)
    (stepped : step server action = some next) : Installed next := by
  intro after
  rcases step_timer server next action stepped with
    ⟨inner, -, moved, timer, -⟩ | ⟨-, handshake, timer⟩ |
      ⟨⟨position, asked⟩, unregistered, -, -, -, -⟩ | ⟨handshake, timer, -⟩
  · rw [Handshake.step_armed _ _ _ moved, Bool.or_eq_true] at after
    rw [timer, Bool.or_eq_true]
    exact after.imp_left installed
  · rw [handshake] at after
    rw [timer]
    exact installed after
  · subst asked
    rw [TickRegistered, unregistered] at tick
    cases tick
  · rw [handshake] at after
    rw [timer]
    exact installed after

/-- The source is gone although init is past the statement that adds it. -/
structure Lost (server : Server) : Prop where
  armed : server.handshake.armed = true
  timer : server.timer = false

theorem step_lost (server : Server) (action : Action) (next : Server) (lost : Lost server)
    (stepped : step server action = some next) : Lost next := by
  obtain ⟨armed, gone⟩ := lost
  rcases step_timer server next action stepped with
    ⟨inner, -, moved, timer, -⟩ | ⟨-, handshake, timer⟩ | ⟨-, -, -, handshake, timer, -⟩ |
      ⟨handshake, timer, -⟩
  · have later : inner ≠ .addTimer := by
      rintro rfl
      rw [Handshake.addTimer_unarmed _ _ moved] at armed
      cases armed
    constructor
    · rw [Handshake.step_armed _ _ _ moved, armed, Bool.true_or]
    · simp only [timer, gone, later, decide_false, Bool.or_self]
  · exact ⟨by rw [handshake]; exact armed, timer.trans gone⟩
  · exact ⟨by rw [handshake]; exact armed, timer⟩
  · exact ⟨by rw [handshake]; exact armed, timer.trans gone⟩

/-- A tick that finds no player takes the source away for the rest of the run. -/
theorem lost_of_early_tick (server next final : Server) (position : Option Int)
    (rest : List Action) (valid : Armed server) (unregistered : server.mMediaPlayer = false)
    (stepped : step server (.tickPosition position) = some next)
    (reached : run step next rest = some final) : final.timer = false := by
  obtain ⟨⟨-, installed⟩, choice⟩ := (step_tickPosition_iff _ _ _).mp stepped
  have lost : Lost next := by
    rcases choice with ⟨registered, -⟩ | ⟨-, rfl⟩
    · rw [unregistered] at registered
      cases registered
    · exact ⟨valid.timer installed, rfl⟩
  exact (run_invariant_of_step step_lost lost reached).timer

theorem timer_iff (actions : List Action) (server : Server)
    (reached : run step initial actions = some server)
    (registered : server.mMediaPlayer = true) :
    server.timer = true ↔ Along step TickRegistered initial actions := by
  have valid := run_invariant_of_step step_armed initial_armed reached
  constructor
  · intro installed before action after middle split onward
    cases action with
    | tickPosition position =>
        rw [TickRegistered]
        by_contra unregistered
        rw [Bool.not_eq_true] at unregistered
        rw [split, run_append, onward, Option.bind_some] at reached
        obtain ⟨next, stepped, further⟩ := (run_cons_iff _ _ _ _ _).mp reached
        have armed := run_invariant_of_step step_armed initial_armed onward
        have gone := lost_of_early_tick middle next server position after armed unregistered
          stepped further
        rw [gone] at installed
        cases installed
    | _ => trivial
  · intro ticks
    have start : Installed initial := nofun
    exact run_invariant step_installed start ticks reached (valid.registered registered)

/-- Everything a step can do to an updateProgress under way. -/
inductive TickChange (server next : Server) (action : Action) : Prop
  | kept (same : next.dispatcher = server.dispatcher)
      (other : ∀ duration, action ≠ .tickDuration duration)
  | begun (position : Option Int) (asked : action = .tickPosition position)
      (registered : server.mMediaPlayer = true) (idle : server.dispatcher = .idle)
      (reading : next.dispatcher = .ticking (server.player.getPosition position))
  | ended (duration : Option Int) (asked : action = .tickDuration duration)
      (idle : next.dispatcher = .idle)
  | elsewhere (before : ∀ read, server.dispatcher ≠ .ticking read)
      (after : ∀ read, next.dispatcher ≠ .ticking read)

theorem step_tickChange (server next : Server) (action : Action)
    (stepped : step server action = some next) : TickChange server next action := by
  cases stepped_of_step server next action stepped with
  | begun position free installed registered =>
      exact .begun position rfl registered free.1 rfl
  | ended duration read ticking => exact .ended duration rfl rfl
  | popped element message rest free created watch queue =>
      refine .elsewhere (by rw [free.1]; nofun) ?_
      cases ends : message.type.ends <;> nofun
  | notified message busy => exact .elsewhere (by rw [busy]; nofun) nofun
  | quit message busy => exact .elsewhere (by rw [busy]; nofun) nofun
  | _ => exact .kept rfl nofun

/-- Between its two reads the dispatcher thread does nothing else. -/
theorem step_ticking (server : Server) (action : Action) (next : Server) (position : Int)
    (ticking : server.dispatcher = .ticking position)
    (other : ∀ duration, action ≠ .tickDuration duration)
    (stepped : step server action = some next) :
    next.dispatcher = .ticking position := by
  rcases step_tickChange server next action stepped with
    ⟨same, -⟩ | ⟨_, -, -, idle, -⟩ | ⟨duration, asked, -⟩ | ⟨before, -⟩
  · exact same.trans ticking
  · rw [ticking] at idle
    cases idle
  · exact absurd asked (other duration)
  · exact absurd ticking (before position)

theorem tick_begins (first begun : Server) (position : Option Int)
    (registered : first.mMediaPlayer = true)
    (stepped : step first (.tickPosition position) = some begun) :
    begun = { first with dispatcher := .ticking (first.player.getPosition position) } := by
  obtain ⟨-, ⟨-, rfl⟩ | ⟨unregistered, -⟩⟩ := (step_tickPosition_iff _ _ _).mp stepped
  · rfl
  · rw [registered] at unregistered
    cases unregistered

theorem run_ticking {begun second : Server} {between : List Action} {read : Int}
    (ticking : begun.dispatcher = .ticking read)
    (apart : ∀ action ∈ between, ∀ duration, action ≠ .tickDuration duration)
    (reached : run step begun between = some second) : second.dispatcher = .ticking read :=
  run_invariant_of_forall
    (fun state action next still other stepped =>
      step_ticking state action next read still other stepped)
    ticking apart reached

/-- The seconds a successful query yields, after the `int` local. -/
def seconds (time : Int) : Int := MediaPlayer.toInt (MediaPlayer.gstTimeAsSeconds time)

/-- From this state on, a tick at which both queries succeed emits notifyProgress, the
skeleton being there and neither time converting to -1, which reads as a failure. The
steps `between` fall between its two reads; a query succeeds on an element only. -/
def Reports (server : Server) : Prop :=
  ∀ position duration begun between middle done,
    step server (.tickPosition (some position)) = some begun →
    (∀ action ∈ between, ∀ query, action ≠ .tickDuration query) →
    run step begun between = some middle →
    step middle (.tickDuration (some duration)) = some done →
    server.element ≠ none → middle.element ≠ none →
    (done.signals =
        .notifyProgress (MediaPlayer.toUint (seconds position))
          (MediaPlayer.toUint (seconds duration)) :: middle.signals ↔
      middle.handshake.mMediaplayerInterface = true ∧
        seconds position ≠ -1 ∧ seconds duration ≠ -1)

theorem querySeconds_some (server : Server) (time : Int) (held : server.element ≠ none) :
    server.player.querySeconds (some time) = seconds time := by
  unfold MediaPlayer.querySeconds
  cases present : server.player.element with
  | none => exact absurd present held
  | some element => rfl

/-- updateProgress emits unless a read failed or the skeleton is missing. -/
theorem progress_iff (server : Server) (position duration : Int) :
    server.progress position duration =
        .notifyProgress (MediaPlayer.toUint position) (MediaPlayer.toUint duration) ::
          server.signals ↔
      server.handshake.mMediaplayerInterface = true ∧ position ≠ -1 ∧ duration ≠ -1 := by
  unfold progress emit
  split
  · rename_i known
    split
    · rename_i created
      exact iff_of_true rfl ⟨created, known⟩
    · rename_i missing
      exact iff_of_false (by simp) (fun created => missing created.1)
  · rename_i unknown
    exact iff_of_false (by simp) (fun known => unknown known.2)

theorem reports_of_registered (server : Server) (registered : server.mMediaPlayer = true) :
    Reports server := by
  intro position duration begun between middle done ticked apart onward finished first second
  have reading : begun.dispatcher = .ticking (seconds position) := by
    rw [tick_begins server begun (some position) registered ticked, MediaPlayer.getPosition,
      querySeconds_some server position first]
  have still := run_ticking reading apart onward
  obtain ⟨read, ticking, rfl⟩ := (step_tickDuration_iff _ _ _).mp finished
  rw [still, Dispatcher.ticking.injEq] at ticking
  subst ticking
  dsimp only [MediaPlayer.getDuration]
  rw [querySeconds_some middle duration second]
  exact progress_iff middle _ _

/-- The source is removed while init is still on its way to the player. -/
def earlyTick : List Action :=
  [.startup .startThread, .startup .registerMediaplayerServer,
    .startup .registerMediainfoServer, .startup .addTimer, .tickPosition none,
    .startup .lock, .startup .wait, .startup .onMediaplayerBusAcquired,
    .startup .lockCallback, .startup .notifyOne, .startup .wake, .startup .unlockCallback,
    .startup .relock, .construct]

theorem early_tick_loses_progress :
    ∃ server, run step initial earlyTick = some server ∧
      server.mMediaPlayer = true ∧ server.timer = false :=
  ⟨_, rfl, rfl, rfl⟩

/-- In every reached state with a registered player, the source is installed exactly if
no tick was dispatched before the registration, and later ticks then report. -/
theorem progress_survives_iff (actions : List Action) (server : Server)
    (reached : run step initial actions = some server)
    (registered : server.mMediaPlayer = true) :
    (server.timer = true ↔ Along step TickRegistered initial actions) ∧ Reports server :=
  ⟨timer_iff actions server reached registered, reports_of_registered server registered⟩

theorem first_session_reports :
    ∃ server, run step initial firstSession = some server ∧ server.mMediaPlayer = true ∧
      server.timer = true ∧ Reports server := by
  have both := progress_survives_iff firstSession _ rfl rfl
  exact ⟨_, rfl, rfl, both.1.mpr (by decide), both.2⟩

end Server

end MediaplayerServer
