import MediaplayerServer.ServerThreads

set_option autoImplicit false

/- The server with its two threads, and handle_message's test behind STATE_CHANGED. It has no
effect, but it reads mpPlaybin without mtx, so that main may come between its readings. -/
namespace MediaplayerServer

open Handshake LockedObject Transition

/-- The next one of handle_message's readings of mpPlaybin: the test of the pointer, and the two
times it takes the element behind it. -/
inductive Reading
  | test
  | element
  | source
  deriving DecidableEq, Repr

/-- The reading that follows, if any; no outcome is that of a null pointer that is used. -/
def Reading.next (player : MediaPlayer) : Reading → Option (Option Reading)
  | .test => some (if player.mpPlaybin.isSome then some .element else none)
  | .element =>
      player.mpPlaybin.map fun wrapper => if wrapper.mElement.isSome then some .source else none
  | .source => player.mpPlaybin.map fun _ => none

namespace ThreadedServer

def Action.thread : Action → Option Thread
  | .direct action => action.thread
  | .call thread _ => some thread
  | .lock thread => some thread
  | .execute thread => some thread
  | .unlock thread => some thread
  | .finish thread => some thread

/-- The reading that handle_message begins with, if it gets to one. -/
def begins (self : ThreadedServer) : Action → Option Reading
  | .direct (.pop element) =>
      match (self.server.playbin element).queue with
      | ⟨_, _, .stateChanged _⟩ :: _ => some .test
      | _ => none
  | _ => none

/-- Main is about to execute the statement of teardown that sets mpPlaybin to null. -/
def Nulls (self : ThreadedServer) : Prop :=
  ∃ defined effect, self.lock.phase .main = .inside .teardown (.last defined effect) ∧
    (effect self.lock.object).1.mpPlaybin = none

end ThreadedServer

structure ServerProcess where
  threads : ThreadedServer
  reading : Option Reading

namespace ServerProcess

def initial : ServerProcess where
  threads := ThreadedServer.initial
  reading := none

inductive Action
  | threads (action : ThreadedServer.Action)
  | read
  deriving DecidableEq, Repr

def player (self : ServerProcess) : MediaPlayer := self.threads.server.player

def step (self : ServerProcess) : Action → Option ServerProcess
  | .threads action =>
      -- until handle_message returns, the dispatcher does nothing else
      if action.thread = some .dispatcher → self.reading = none then
        (self.threads.step action).map fun next =>
          ⟨next, (self.threads.begins action).or self.reading⟩
      else none
  | .read =>
      self.reading.bind fun reading =>
        (reading.next self.player).map fun after => { self with reading := after }

/-- handle_message uses a null mpPlaybin next. -/
def Wrong (self : ServerProcess) : Prop :=
  ∃ reading, self.reading = some reading ∧ reading.next self.player = none

/-- Main sets mpPlaybin to null between handle_message's test and a use. -/
def Races (self : ServerProcess) (action : Action) : Prop :=
  action = .threads (.execute .main) ∧ self.threads.Nulls ∧
    ∃ reading, self.reading = some reading ∧ reading ≠ .test

end ServerProcess

namespace ThreadedServer

/-- Only the last statement of teardown sets mpPlaybin to null. -/
abbrev Retains (lock : PlayerLock) : Prop :=
  lock.Within (fun _ => MediaPlayerLock.Keeps) fun method effect =>
    method ≠ .teardown → MediaPlayerLock.Keeps fun self => (effect self).1

theorem step_retains (self next : ThreadedServer) (action : Action) (retains : Retains self.lock)
    (stepped : self.step action = some next) : Retains next.lock := by
  cases stepped_of_step self next action stepped with
  | direct action server direct rests taken => exact retains
  | moved move lock calls stays own taken =>
      exact step_within _ _ MediaPlayerLock.body_keeps retains taken
  | finished thread result lock returns taken =>
      exact step_within _ _ MediaPlayerLock.body_keeps retains taken

/-- What the server does by itself, and GStreamer, leave mpPlaybin alone. -/
theorem direct_keeps (self : ThreadedServer) (action : Server.Action) (server : Server)
    (direct : self.server.direct action = true) (taken : self.server.step action = some server) :
    server.player.mpPlaybin = self.server.player.mpPlaybin := by
  obtain ⟨change, moved, -⟩ := self.server.step_settled server action direct taken
  cases change with
  | none => rw [show server.player = self.server.player from moved]
  | some change => exact congrArg Prod.fst (MediaPlayerLock.background_keeps change _ _ moved)

/-- Only main calls teardown. -/
theorem teardown_of_main (self : ThreadedServer) (coherent : self.Coherent) (thread : Thread)
    (code : Code MediaPlayer MediaPlayer.Returned)
    (runs : self.lock.phase thread = .inside .teardown code) : thread = .main := by
  have calls := coherent.called thread .teardown (congrArg asked runs)
  cases thread with
  | main => rfl
  | dispatcher => cases calls

/-- A move after which mpPlaybin is null is the last statement of a teardown. -/
theorem teardown_of_nulled (lock next : PlayerLock)
    (move : Move MediaPlayer.Method Background Thread) (retains : Retains lock)
    (own : ∀ change, move ≠ .change change)
    (taken : lock.step MediaPlayerLock.body MediaPlayer.background move = some next)
    (present : lock.object.mpPlaybin.isSome = true) (gone : next.object.mpPlaybin = none) :
    ∃ thread, move = .execute thread ∧
      ∃ defined effect, lock.phase thread = .inside .teardown (.last defined effect) ∧
        (effect lock.object).1.mpPlaybin = none := by
  have changed : lock.object.mpPlaybin ≠ next.object.mpPlaybin := by
    intro same
    rw [same, gone] at present
    cases present
  cases moved_of_step _ _ _ _ _ taken with
  | called thread method free => exact absurd rfl changed
  | locked thread method waits free => exact absurd rfl changed
  | stepped thread method defined effect rest runs =>
      have onward := (retains thread method _ runs).1 lock.object present
      rw [show (effect lock.object).mpPlaybin = none from gone] at onward
      cases onward
  | ended thread method defined effect runs =>
      by_cases last : method = .teardown
      · subst last
        exact ⟨thread, rfl, defined, effect, runs, gone⟩
      · have onward := retains thread method _ runs last lock.object present
        rw [show (effect lock.object).1.mpPlaybin = none from gone] at onward
        cases onward
  | unlocked thread result leaves => exact absurd rfl changed
  | finished thread result returns => exact absurd rfl changed
  | changed env object happens => exact absurd rfl (own env)

/-- A step after which mpPlaybin is null was main's in teardown, or it was null before. -/
theorem nulled_of_step (self next : ThreadedServer) (action : Action) (coherent : self.Coherent)
    (retains : Retains self.lock) (stepped : self.step action = some next)
    (present : self.server.player.mpPlaybin.isSome = true)
    (gone : next.server.player.mpPlaybin = none) :
    action = .execute .main ∧ self.Nulls := by
  have held : self.lock.object.mpPlaybin.isSome = true := by
    rw [← coherent.player]
    exact present
  cases action with
  | direct action =>
      obtain ⟨⟨direct, -⟩, moved⟩ := Option.ite_none_right_eq_some.mp stepped
      obtain ⟨server, taken, rfl⟩ := Option.map_eq_some_iff.mp moved
      rw [← self.direct_keeps action server direct taken, gone] at present
      cases present
  | call thread method =>
      obtain ⟨-, moved⟩ := Option.ite_none_right_eq_some.mp stepped
      obtain ⟨lock, taken, rfl⟩ := Option.map_eq_some_iff.mp moved
      obtain ⟨-, ⟨⟩, -⟩ :=
        teardown_of_nulled _ lock (.call thread method) retains nofun taken held gone
  | lock thread =>
      obtain ⟨lock, taken, rfl⟩ := Option.map_eq_some_iff.mp stepped
      obtain ⟨-, ⟨⟩, -⟩ := teardown_of_nulled _ lock (.lock thread) retains nofun taken held gone
  | unlock thread =>
      obtain ⟨lock, taken, rfl⟩ := Option.map_eq_some_iff.mp stepped
      obtain ⟨-, ⟨⟩, -⟩ := teardown_of_nulled _ lock (.unlock thread) retains nofun taken held gone
  | finish thread =>
      dsimp only [step] at stepped
      split at stepped
      · obtain ⟨middle, moved, rfl⟩ := Option.map_eq_some_iff.mp stepped
        obtain ⟨lock, taken, rfl⟩ := Option.map_eq_some_iff.mp moved
        rw [Server.resume_keeps] at gone
        obtain ⟨-, ⟨⟩, -⟩ :=
          teardown_of_nulled _ lock (.finish thread) retains nofun taken held gone
      · cases stepped
  | execute thread =>
      obtain ⟨lock, taken, rfl⟩ := Option.map_eq_some_iff.mp stepped
      obtain ⟨_, ⟨⟩, defined, effect, runs, nulls⟩ :=
        teardown_of_nulled _ lock (.execute thread) retains nofun taken held gone
      obtain rfl := self.teardown_of_main coherent thread _ runs
      exact ⟨rfl, defined, effect, runs, nulls⟩

/-- And main's in teardown sets it to null. -/
theorem nulls_step (self next : ThreadedServer) (nulls : self.Nulls)
    (stepped : self.step (.execute .main) = some next) :
    next.server.player.mpPlaybin = none := by
  obtain ⟨defined, effect, runs, gone⟩ := nulls
  obtain ⟨lock, taken, rfl⟩ := Option.map_eq_some_iff.mp stepped
  cases moved_of_step _ _ _ _ _ taken with
  | stepped thread method defined' effect' rest runs' =>
      rw [runs] at runs'
      cases runs'
  | ended thread method defined' effect' runs' =>
      rw [runs] at runs'
      cases runs'
      exact gone

end ThreadedServer

namespace ServerProcess

theorem begins_cases (threads : ThreadedServer) (action : ThreadedServer.Action) :
    threads.begins action = none ∨ threads.begins action = some .test := by
  unfold ThreadedServer.begins
  split
  · split
    · exact Or.inr rfl
    · exact Or.inl rfl
  · exact Or.inl rfl

theorem next_eq_none_iff (player : MediaPlayer) (reading : Reading) :
    reading.next player = none ↔ reading ≠ .test ∧ player.mpPlaybin = none := by
  cases reading with
  | test => simp [Reading.next]
  | element => simp [Reading.next]
  | source => simp [Reading.next]

/-- After a reading that went well there is another one only while there is a player. -/
theorem present_of_next (player : MediaPlayer) (reading after : Reading)
    (read : reading.next player = some (some after)) : player.mpPlaybin ≠ none := by
  intro absent
  cases reading with
  | test => simp [Reading.next, absent] at read
  | element => simp [Reading.next, absent] at read
  | source => simp [Reading.next] at read

theorem step_threads_iff (self next : ServerProcess) (action : ThreadedServer.Action) :
    step self (.threads action) = some next ↔
      (action.thread = some .dispatcher → self.reading = none) ∧
        ∃ threads, self.threads.step action = some threads ∧
          ⟨threads, (self.threads.begins action).or self.reading⟩ = next := by
  simp only [step, Option.ite_none_right_eq_some, Option.map_eq_some_iff]

theorem step_read_iff (self next : ServerProcess) :
    step self .read = some next ↔
      ∃ reading, self.reading = some reading ∧
        ∃ after, reading.next self.player = some after ∧ { self with reading := after } = next := by
  simp only [step, Option.bind_eq_some_iff, Option.map_eq_some_iff]

/-- What holds of the threads whether or not handle_message reads. -/
structure Valid (process : ServerProcess) : Prop where
  coherent : process.threads.Coherent
  retains : ThreadedServer.Retains process.threads.lock

theorem initial_valid : initial.Valid where
  coherent := ThreadedServer.initial_coherent
  retains := initial_within _ _ _

theorem step_valid (self : ServerProcess) (action : Action) (next : ServerProcess)
    (valid : self.Valid) (stepped : self.step action = some next) : next.Valid := by
  cases action with
  | threads action =>
      obtain ⟨-, threads, taken, rfl⟩ := (step_threads_iff _ _ _).mp stepped
      exact ⟨self.threads.step_coherent threads action valid.coherent taken,
        self.threads.step_retains threads action valid.retains taken⟩
  | read =>
      obtain ⟨reading, -, after, -, rfl⟩ := (step_read_iff _ _).mp stepped
      exact ⟨valid.coherent, valid.retains⟩

/-- A step leads to the use of a null pointer exactly if it is the race. -/
theorem step_wrong_iff (self : ServerProcess) (action : Action) (next : ServerProcess)
    (valid : self.Valid) (right : ¬self.Wrong) (stepped : self.step action = some next) :
    next.Wrong ↔ self.Races action := by
  cases action with
  | threads action =>
      obtain ⟨-, threads, taken, rfl⟩ := (step_threads_iff _ _ _).mp stepped
      constructor
      · rintro ⟨reading, reads, stuck⟩
        obtain ⟨late, gone⟩ := (next_eq_none_iff _ _).mp stuck
        -- handle_message has begun to read before this step
        have before : self.reading = some reading := by
          rcases begins_cases self.threads action with none | test
          · rwa [none, Option.none_or] at reads
          · rw [test, Option.some_or, Option.some.injEq] at reads
            exact absurd reads.symm late
        have present : self.player.mpPlaybin.isSome = true := by
          refine Option.isSome_iff_ne_none.mpr fun absent => right ⟨reading, before, ?_⟩
          exact (next_eq_none_iff _ _).mpr ⟨late, absent⟩
        obtain ⟨rfl, nulls⟩ := self.threads.nulled_of_step threads action valid.coherent
          valid.retains taken present gone
        exact ⟨rfl, nulls, reading, before, late⟩
      · rintro ⟨same, nulls, reading, before, late⟩
        cases same
        refine ⟨reading, before, (next_eq_none_iff _ _).mpr ⟨late, ?_⟩⟩
        exact self.threads.nulls_step threads nulls taken
  | read =>
      obtain ⟨reading, reads, after, read, rfl⟩ := (step_read_iff _ _).mp stepped
      constructor
      · rintro ⟨later, rfl, stuck⟩
        obtain ⟨-, gone⟩ := (next_eq_none_iff _ _).mp stuck
        exact absurd gone (present_of_next self.player reading later read)
      · rintro ⟨same, -⟩
        cases same

/-- What the threads do is a run of their own. -/
theorem run_threads (actions : List Action) (self : ServerProcess)
    (reached : run step initial actions = some self) :
    ∃ moves, run ThreadedServer.step ThreadedServer.initial moves = some self.threads := by
  have keeps : ∀ (self : ServerProcess) action next,
      (∃ moves, run ThreadedServer.step ThreadedServer.initial moves = some self.threads) →
        step self action = some next →
          ∃ moves, run ThreadedServer.step ThreadedServer.initial moves = some next.threads := by
    rintro self action next ⟨moves, ran⟩ stepped
    cases action with
    | threads action =>
        obtain ⟨-, threads, taken, rfl⟩ := (step_threads_iff _ _ _).mp stepped
        exact ⟨moves ++ [action], (run_snoc_iff _ _ _ _ _).mpr ⟨self.threads, ran, taken⟩⟩
    | read =>
        obtain ⟨reading, -, after, -, rfl⟩ := (step_read_iff _ _).mp stepped
        exact ⟨moves, ran⟩
  exact run_invariant_of_step keeps ⟨[], rfl⟩ reached

/-- A client's start comes in while main is in setup, and both threads are done when the
session ends; its last message is taken off the bus just before main closes it. -/
def lateStateChange : List ThreadedServer.Action :=
  Server.startupRun.map .direct ++
  [.call .main (.setup true ⟨.success, .ready⟩), .lock .main, .execute .main,
    .call .dispatcher (.serve (.start ⟨.async, .playing⟩))] ++
  List.replicate 10 (.execute .main) ++
  [.direct (.post 0 .eos), .direct (.post 0 (.stateChanged .playing)), .unlock .main,
    .lock .dispatcher] ++
  List.replicate 4 (.execute .dispatcher) ++
  [.finish .main, .direct .enterLoop, .unlock .dispatcher, .finish .dispatcher,
    .direct (.pop 0), .direct .notify, .direct .quit, .direct .leaveLoop, .direct (.pop 0)]

/-- Main stops the player and is in teardown until its lock is to be given back. -/
def closing : List ThreadedServer.Action :=
  [.call .main (.serve (.stop ⟨.success, .null⟩)), .lock .main] ++
  List.replicate 4 (.execute .main) ++
  [.unlock .main, .finish .main, .call .main .teardown, .lock .main] ++
  List.replicate 4 (.execute .main)

def lateReading : List Action :=
  lateStateChange.map .threads ++ [.read] ++ closing.map .threads

end ServerProcess

end MediaplayerServer
