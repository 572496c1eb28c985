import MediaplayerServer.HandshakeInvariant
import MediaplayerServer.ServerInvariant

set_option autoImplicit false

namespace MediaplayerServer.Server

open Transition

/-- Every pipeline ever created that mpPlaybin no longer holds is in NULL. -/
def OrphansNull (server : Server) : Prop :=
  ∀ element, element < server.gst.created → server.element ≠ some element →
    (server.playbin element).state = .null

/-- main's teardown finds the pipeline in the state main's stop left it in. -/
def NullAtTeardown (server : Server) : Action → Prop
  | .teardown => ∀ element, server.element = some element →
      (server.playbin element).state = .null
  | _ => True

/-- No start or pause is served between main's stop and main's teardown. -/
def GapFree (server : Server) : Action → Prop
  | .request request => server.main = .teardown → request.raises = false
  | _ => True

instance (server : Server) (action : Action) : Decidable (GapFree server action) := by
  unfold GapFree
  split <;> infer_instance

theorem nullAtTeardown_of_ne (server : Server) (action : Action) (other : action ≠ .teardown) :
    NullAtTeardown server action := by
  cases action with
  | teardown => exact absurd rfl other
  | _ => trivial

theorem initial_orphansNull : OrphansNull initial := by
  intro element created
  cases created

/-- No step changes the state of a pipeline that mpPlaybin does not hold. -/
theorem step_orphan_state (server next : Server) (action : Action) (element : Nat)
    (stepped : step server action = some next) (existing : element < server.gst.created)
    (orphan : server.element ≠ some element) :
    (next.playbin element).state = (server.playbin element).state := by
  rcases step_playbin server next action element stepped with
    result | ⟨_, held, -, -⟩ | ⟨_, -, fresh, -⟩ | ⟨_, _, -, -, result⟩ | ⟨_, -, -, result⟩
  · rw [result]
  · exact absurd held orphan
  · omega
  · rw [result]
  · rw [result]

theorem teardown_orphansNull (server next : Server) (valid : Held server)
    (fine : OrphansNull server) (result : next.player = server.player.teardown.1) :
    OrphansNull next ↔ NullAtTeardown server .teardown := by
  have pipelines : next.gst = server.gst := by rw [gst, result, teardown_gst]
  have detached : next.element = none := by rw [element, result, teardown_element]
  constructor
  · intro after element held
    have orphan : next.element ≠ some element := by
      rw [detached]
      exact (Option.some_ne_none element).symm
    have existing : element < next.gst.created := by
      rw [pipelines]
      exact valid.created element held
    have null := after element existing orphan
    rwa [playbin, pipelines] at null
  · intro lowered element existing _
    rw [pipelines] at existing
    rw [playbin, pipelines]
    by_cases held : server.element = some element
    · exact lowered element held
    · exact fine element existing held

/-- One step keeps the orphans in NULL exactly if it is not a teardown of a pipeline
that has been raised again. -/
theorem step_orphansNull (server : Server) (action : Action) (next : Server)
    (valid : Held server) (fine : OrphansNull server)
    (stepped : step server action = some next) :
    OrphansNull next ↔ NullAtTeardown server action := by
  by_cases teardown : action = .teardown
  · subst teardown
    obtain ⟨-, result⟩ := (step_teardown_iff _ _).mp stepped
    exact teardown_orphansNull server next valid fine (by rw [← result])
  · refine iff_of_true ?_ (nullAtTeardown_of_ne server action teardown)
    intro element existing orphan
    have before := orphan_before server next action element valid stepped teardown orphan
    rcases created_cases server next action element stepped existing with older | ⟨fresh, made⟩
    · rw [step_orphan_state server next action element stepped older before]
      exact fine element older before
    · obtain ⟨ready, rfl⟩ := made
      have held := (setup_step server next ready stepped).1
      rw [fresh] at orphan
      exact absurd held orphan

/-- Between main's stop and main's teardown the held pipeline is in NULL. -/
def LoweredInGap (server : Server) : Prop :=
  server.main = .teardown → ∀ element, server.element = some element →
    (server.playbin element).state = .null

/-- Once main's stop has run, only a start or a pause can lift the pipeline again. -/
theorem step_loweredInGap (server : Server) (action : Action) (next : Server)
    (lowered : LoweredInGap server) (gapFree : GapFree server action)
    (stepped : step server action = some next) : LoweredInGap next := by
  intro main element held
  rcases teardown_before server next action stepped main with ⟨change, rfl⟩ | ⟨before, other⟩
  · rw [step_element server next (.stop change) stepped rfl] at held
    obtain ⟨-, rfl⟩ := (step_stop_iff _ _ _).mp stepped
    dsimp only [playbin, gst]
    rw [stop_eq_serve, serve_held server (.stop change) element held]
    rfl
  · have replaces := replaces_of_ofMain action other
    rw [step_element server next action stepped replaces] at held
    have null := lowered before element held
    rcases step_playbin server next action element stepped with
      result | ⟨request, -, asked, result⟩ | ⟨_, asked, -, -⟩ | ⟨_, _, -, -, result⟩ |
        ⟨_, -, -, result⟩
    · rwa [result]
    · have lowers : request.raises = false := by
        rcases asked with rfl | ⟨change, rfl, -⟩
        · exact gapFree before
        · cases other
      rw [result]
      exact Playbin.serve_null _ request null lowers
    · rw [asked] at replaces
      cases replaces
    · rwa [result]
    · rwa [result]

theorem nullAtTeardown_of_gapFree (actions : List Action) (server : Server)
    (reached : run step initial actions = some server)
    (gapFree : Along step GapFree initial actions) :
    Along step NullAtTeardown initial actions := by
  have start : LoweredInGap initial := nofun
  refine along_of_invariant step_loweredInGap ?_ start gapFree reached
  intro state action next lowered _ stepped
  cases action with
  | teardown =>
      obtain ⟨main, -⟩ := (step_teardown_iff _ _).mp stepped
      exact lowered main
  | _ => trivial

/-- main, with init returned and the player registered. -/
def startupRun : List Action :=
  Handshake.punctual.map Action.startup ++ [.construct]

def granted : StateChange := ⟨.success, .null⟩

/-- A session that ends, with a start served between main's stop and main's teardown. -/
def startInGap : List Action :=
  startupRun ++
    [.setup true granted, .enterLoop, .post 0 .eos, .pop 0, .notify, .quit, .leaveLoop,
      .stop granted, .request (.start granted), .teardown]

theorem start_in_gap_keeps_playing :
    ∃ server, run step initial startInGap = some server ∧ ¬OrphansNull server := by
  refine ⟨_, rfl, fun fine => ?_⟩
  have null := fine 0 (by decide) (by decide)
  exact absurd null (by decide)

/-- In every run, the pipelines left behind are in NULL in all states exactly if every
teardown finds its pipeline in NULL, and they are so in every run without a start or a
pause in a gap. -/
theorem orphans_null_iff (actions : List Action) (server : Server)
    (reached : run step initial actions = some server) :
    (Throughout step OrphansNull initial actions ↔
        Along step NullAtTeardown initial actions) ∧
      (Along step GapFree initial actions → Throughout step OrphansNull initial actions) := by
  have exact : Throughout step OrphansNull initial actions ↔
      Along step NullAtTeardown initial actions :=
    throughout_iff_along step_held step_orphansNull initial_held initial_orphansNull reached
  exact ⟨exact, fun gapFree => exact.mpr (nullAtTeardown_of_gapFree actions server reached gapFree)⟩

/-- A session that ends on its own EOS, with nothing served in its gap. -/
def quietSession : List Action :=
  startupRun ++
    [.setup true granted, .enterLoop, .request (.setFile "/a.mp3" (some "file:///a.mp3")),
      .request (.start granted), .post 0 .eos, .pop 0, .notify, .quit, .leaveLoop,
      .stop granted, .request (.seek 5 true), .teardown]

theorem quiet_session_orphans_null :
    ∃ server, run step initial quietSession = some server ∧ server.element = none ∧
      Throughout step OrphansNull initial quietSession :=
  ⟨_, rfl, rfl, (orphans_null_iff quietSession _ rfl).2 (by decide)⟩

end MediaplayerServer.Server
