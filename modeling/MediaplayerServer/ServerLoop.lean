import MediaplayerServer.ServerLedger
import MediaplayerServer.ServerMessages

set_option autoImplicit false

namespace MediaplayerServer.Server

open Transition

/-- Something can still end the session: mpPlaybin holds an element whose watch is
installed and none of whose ending messages has been handled. -/
def Live (server : Server) : Prop :=
  ∃ element, server.element = some element ∧ (server.playbin element).watch = true ∧
    ∀ message ∈ server.handled, message.src ≠ element

/-- main does not wait in g_main_loop_run for a quit that will not come. -/
def Awaited (server : Server) : Prop :=
  server.main = .inLoop → server.loop.running = true → Live server

def EntersLive (server : Server) : Action → Prop
  | .enterLoop => Live server
  | _ => True

/-- Every setup gets its element, and no message of the held pipeline quits the loop
between setup and g_main_loop_run. -/
def Prompt (server : Server) : Action → Prop
  | .setup made _ => made = true
  | .quit => server.main = .enterLoop →
      ∀ message ∈ server.inHand, server.element ≠ some message.src
  | _ => True

instance (server : Server) (action : Action) : Decidable (Prompt server action) := by
  unfold Prompt
  split <;> infer_instance

theorem entersLive_of_ne (server : Server) (action : Action) (other : action ≠ .enterLoop) :
    EntersLive server action := by
  cases action with
  | enterLoop => exact absurd rfl other
  | _ => trivial

/-- A step that neither replaces the element nor handles a message of it keeps it live. -/
theorem Live.step {server next : Server} {action : Action} (live : Live server)
    (valid : Held server) (stepped : step server action = some next)
    (other : action.replaces = false)
    (handled : ∀ message ∈ next.handled,
      message ∈ server.handled ∨ server.element ≠ some message.src) : Live next := by
  obtain ⟨element, held, watch, unhandled⟩ := live
  refine ⟨element, ?_, ?_, fun message done => ?_⟩
  · rw [step_element server next action stepped other]
    exact held
  · rw [(step_counts server next action element stepped (valid.created element held)).2]
    exact watch
  · rcases handled message done with before | foreign
    · exact unhandled message before
    · rintro rfl
      exact foreign held

theorem enterLoop_live_iff (server next : Server) (stepped : step server .enterLoop = some next) :
    Live next ↔ Live server := by
  obtain ⟨-, rfl⟩ := (step_enterLoop_iff _ _).mp stepped
  exact Iff.rfl

theorem step_awaited (server : Server) (action : Action) (next : Server) (valid : Held server)
    (awaited : Awaited server) (stepped : step server action = some next) :
    Awaited next ↔ EntersLive server action := by
  by_cases enters : action = .enterLoop
  · subst enters
    rw [EntersLive, ← enterLoop_live_iff server next stepped]
    obtain ⟨-, rfl⟩ := (step_enterLoop_iff _ _).mp stepped
    exact ⟨fun after => after rfl rfl, fun live _ _ => live⟩
  · refine iff_of_true ?_ (entersLive_of_ne server action enters)
    intro main running
    -- main was waiting before, and the step is no quit
    obtain ⟨before, other⟩ := (inLoop_before server next action stepped main).resolve_left enters
    obtain ⟨still, quit⟩ := running_before server next action stepped enters running
    refine (awaited before still).step valid stepped (replaces_of_ofMain action other) ?_
    intro message done
    rw [handled_iff server next action stepped] at done
    exact Or.inl (done.resolve_right fun now => quit now.1)

/-- What setup hands over to g_main_loop_run. -/
structure Entering (server : Server) : Prop where
  held : Held server
  traced : Traced server
  live : server.main = .enterLoop → Live server

theorem initial_entering : Entering initial :=
  ⟨initial_held, initial_traced, nofun⟩

theorem setup_live (server next : Server) (ready : StateChange) (traced : Traced server)
    (stepped : step server (.setup true ready) = some next) : Live next := by
  obtain ⟨held, installed⟩ := setup_step server next ready stepped
  refine ⟨server.gst.created, held, ?_, fun message done => ?_⟩
  · rw [installed]
    exact Playbin.installed_watch ready
  · obtain ⟨-, rfl⟩ := (step_setup_iff _ _ _ _).mp stepped
    exact Nat.ne_of_lt (traced.handled message done)

theorem step_entering (server : Server) (action : Action) (next : Server)
    (valid : Entering server) (prompt : Prompt server action)
    (stepped : step server action = some next) : Entering next := by
  refine ⟨step_held server action next valid.held stepped,
    step_traced server action next valid.traced stepped, fun main => ?_⟩
  rcases enterLoop_before server next action stepped main with
    ⟨made, ready, rfl⟩ | ⟨before, other⟩
  · rw [Prompt] at prompt
    subst prompt
    exact setup_live server next ready valid.traced stepped
  · refine (valid.live before).step valid.held stepped (replaces_of_ofMain action other) ?_
    intro message done
    rw [handled_iff server next action stepped] at done
    rcases done with done | ⟨rfl, hand⟩
    · exact Or.inl done
    · exact Or.inr (prompt before message hand)

theorem entersLive_of_prompt (actions : List Action) (server : Server)
    (reached : run step initial actions = some server)
    (prompt : Along step Prompt initial actions) : Along step EntersLive initial actions := by
  refine along_of_invariant step_entering ?_ initial_entering prompt reached
  intro state action next valid _ stepped
  cases action with
  | enterLoop =>
      obtain ⟨main, -⟩ := (step_enterLoop_iff _ _).mp stepped
      exact valid.live main
  | _ => trivial

/-- The pipeline fails while it goes to READY; its error is handled before main runs the
loop, and the quit has no effect. -/
def earlyError : List Action :=
  startupRun ++
    [.setup true ⟨.failure, .ready⟩, .post 0 (.error "no sink"), .pop 0, .notify, .quit,
      .enterLoop]

/-- playbin cannot be created, and main runs the loop all the same. -/
def failedSetup : List Action :=
  startupRun ++ [.setup false granted, .enterLoop]

theorem main_waits_forever :
    (∃ server, run step initial earlyError = some server ∧ ¬Awaited server) ∧
      (∃ server, run step initial failedSetup = some server ∧ ¬Awaited server) := by
  refine ⟨⟨_, rfl, fun awaited => ?_⟩, ⟨_, rfl, fun awaited => ?_⟩⟩
  · obtain ⟨element, held, -, unhandled⟩ := awaited rfl rfl
    have same : some 0 = some element := held
    rw [Option.some.injEq] at same
    exact unhandled ⟨0, 0, .error "no sink"⟩ (by decide) same
  · obtain ⟨element, held, -⟩ := awaited rfl rfl
    cases held

/-- In every run, main never waits in vain exactly if every loop is entered on a live
element, and so it is in every run where each setup gets its element and no message of
the new pipeline is handled before its loop is entered. -/
theorem awaited_iff (actions : List Action) (server : Server)
    (reached : run step initial actions = some server) :
    (Throughout step Awaited initial actions ↔ Along step EntersLive initial actions) ∧
      (Along step Prompt initial actions → Throughout step Awaited initial actions) := by
  have start : Awaited initial := nofun
  have exact : Throughout step Awaited initial actions ↔
      Along step EntersLive initial actions :=
    throughout_iff_along step_held step_awaited initial_held start reached
  exact ⟨exact, fun prompt => exact.mpr (entersLive_of_prompt actions server reached prompt)⟩

theorem quiet_session_awaited :
    ∃ server, run step initial quietSession = some server ∧
      Throughout step Awaited initial quietSession :=
  ⟨_, rfl, (awaited_iff quietSession _ rfl).2 (by decide)⟩

end MediaplayerServer.Server
