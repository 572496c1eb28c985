import MediaplayerServer.ServerOrphans

set_option autoImplicit false

namespace MediaplayerServer.Server

open Transition

/-- Playbins whose reference the server has not given back. -/
def unreleased (server : Server) : Nat :=
  (List.range server.gst.created).countP fun element =>
    decide (0 < (server.playbin element).refs)

/-- Bus watches that are installed. -/
def watches (server : Server) : Nat :=
  (List.range server.gst.created).countP fun element => (server.playbin element).watch

/-- What a session holds: one playbin and one watch while mpPlaybin has an element. -/
def due (server : Server) : Nat :=
  match server.element with
  | some _ => 1
  | none => 0

theorem due_none (server : Server) (absent : server.element = none) : server.due = 0 := by
  simp only [due, absent]

theorem due_some (server : Server) (element : Nat) (held : server.element = some element) :
    server.due = 1 := by
  simp only [due, held]

structure Balanced (server : Server) : Prop where
  unreleased : server.unreleased = server.due
  watches : server.watches = server.due
  nullUnrefs : server.gst.nullUnrefs = 0

/-- No element that was created is ever torn down. -/
def NoLiveTeardown (server : Server) : Action → Prop
  | .teardown => server.element = none
  | _ => True

instance (server : Server) (action : Action) : Decidable (NoLiveTeardown server action) := by
  unfold NoLiveTeardown
  split <;> infer_instance

theorem noLiveTeardown_of_ne (server : Server) (action : Action) (other : action ≠ .teardown) :
    NoLiveTeardown server action := by
  cases action with
  | teardown => exact absurd rfl other
  | _ => trivial

/-- Nothing is ever given back: every playbin keeps its one reference and its watch. -/
structure Kept (server : Server) : Prop where
  refs : ∀ element, element < server.gst.created → (server.playbin element).refs = 1
  watch : ∀ element, element < server.gst.created → (server.playbin element).watch = true
  nullUnrefs : server.gst.nullUnrefs = 0

theorem initial_kept : Kept initial := by
  constructor
  · nofun
  · nofun
  · rfl

/-- A step leaves the references and the watch of every existing pipeline alone. -/
theorem step_counts (server next : Server) (action : Action) (element : Nat)
    (stepped : step server action = some next) (existing : element < server.gst.created) :
    (next.playbin element).refs = (server.playbin element).refs ∧
      (next.playbin element).watch = (server.playbin element).watch := by
  rcases step_playbin server next action element stepped with
    result | ⟨request, -, -, result⟩ | ⟨_, -, fresh, -⟩ | ⟨_, _, -, -, result⟩ | ⟨_, -, -, result⟩
  · rw [result]
    exact ⟨rfl, rfl⟩
  · rw [result]
    exact ⟨Playbin.serve_refs _ request, Playbin.serve_watch _ request⟩
  · omega
  · rw [result]
    exact ⟨rfl, rfl⟩
  · rw [result]
    exact ⟨rfl, rfl⟩

theorem step_nullUnrefs (server next : Server) (action : Action)
    (stepped : step server action = some next) :
    next.gst.nullUnrefs = server.gst.nullUnrefs := by
  rcases step_player server next action stepped with
    ⟨-, result⟩ | ⟨request, -, result⟩ | ⟨made, ready, -, result⟩ | ⟨-, result⟩ |
      ⟨_, _, _, -, -, -, result⟩ | ⟨_, _, -, -, -, result⟩
  · rw [gst, result]
  · rw [gst, result, serve_nullUnrefs]
  · rw [gst, result, setup_nullUnrefs]
  · rw [gst, result, teardown_gst]
  · rw [gst, result]
    rfl
  · rw [gst, result]
    rfl

theorem step_kept (server : Server) (action : Action) (next : Server) (valid : Kept server)
    (stepped : step server action = some next) : Kept next := by
  have counted (element : Nat) (existing : element < next.gst.created) :
      (next.playbin element).refs = 1 ∧ (next.playbin element).watch = true := by
    rcases created_cases server next action element stepped existing with older | ⟨rfl, made⟩
    · obtain ⟨refs, watch⟩ := step_counts server next action element stepped older
      rw [refs, watch]
      exact ⟨valid.refs element older, valid.watch element older⟩
    · obtain ⟨ready, rfl⟩ := made
      rw [(setup_step server next ready stepped).2]
      exact ⟨Playbin.installed_refs ready, Playbin.installed_watch ready⟩
  refine ⟨fun element existing => (counted element existing).1,
    fun element existing => (counted element existing).2, ?_⟩
  rw [step_nullUnrefs server next action stepped]
  exact valid.nullUnrefs

/-- The two counts are the number of playbins ever created. -/
theorem Kept.counts {server : Server} (valid : Kept server) :
    server.unreleased = server.gst.created ∧ server.watches = server.gst.created := by
  constructor
  · rw [Server.unreleased, List.countP_eq_length.mpr, List.length_range]
    intro element member
    rw [valid.refs element (List.mem_range.mp member)]
    rfl
  · rw [Server.watches, List.countP_eq_length.mpr, List.length_range]
    intro element member
    exact valid.watch element (List.mem_range.mp member)

theorem Kept.balanced_iff {server : Server} (valid : Kept server) :
    Balanced server ↔ server.gst.created = server.due := by
  obtain ⟨references, installed⟩ := valid.counts
  constructor
  · intro balanced
    rw [← references]
    exact balanced.unreleased
  · intro same
    exact ⟨references.trans same, installed.trans same, valid.nullUnrefs⟩

/-- One step keeps the ledger balanced exactly if it is not a teardown of an element. -/
theorem step_balanced (server : Server) (action : Action) (next : Server)
    (valid : Held server ∧ Kept server) (balanced : Balanced server)
    (stepped : step server action = some next) :
    Balanced next ↔ NoLiveTeardown server action := by
  have after := step_kept server action next valid.2 stepped
  have before := valid.2.balanced_iff.mp balanced
  rw [after.balanced_iff]
  by_cases replaces : action.replaces = true
  · cases action with
    | setup made ready =>
        obtain ⟨main, result⟩ := (step_setup_iff _ _ _ _).mp stepped
        have player : next.player = (server.player.setup made ready).1 := by rw [← result]
        rw [due_none server (valid.1.detached (Or.inr main))] at before
        refine iff_of_true ?_ trivial
        rw [gst, player, setup_created, before]
        cases made with
        | false =>
            have absent : next.element = none := by rw [element, player, setup_refused_element]
            rw [due_none next absent]
            rfl
        | true =>
            have held : next.element = some server.gst.created := by
              rw [element, player, setup_made_element]
            rw [due_some next _ held]
            rfl
    | teardown =>
        obtain ⟨-, result⟩ := (step_teardown_iff _ _).mp stepped
        have player : next.player = server.player.teardown.1 := by rw [← result]
        have absent : next.element = none := by rw [element, player, teardown_element]
        rw [due_none next absent, gst, player, teardown_gst, before, NoLiveTeardown]
        cases held : server.element with
        | none =>
            rw [due_none server held]
            exact iff_of_true rfl rfl
        | some element =>
            rw [due_some server element held]
            exact iff_of_false (by decide) (Option.some_ne_none element)
    | _ => cases replaces
  · rw [Bool.not_eq_true] at replaces
    have other : ∀ made ready, action ≠ .setup made ready := by
      rintro made ready rfl
      cases replaces
    have notTeardown : action ≠ .teardown := by
      rintro rfl
      cases replaces
    refine iff_of_true ?_ (noLiveTeardown_of_ne server action notTeardown)
    have same : next.gst.created = server.gst.created := by
      rcases step_created server next action stepped with ⟨same, -⟩ | ⟨ready, asked, -⟩
      · exact same
      · exact absurd asked (other true ready)
    rw [same, before, due, due, step_element server next action stepped replaces]

/-- One whole session: its playbin is created, runs and is torn down. -/
theorem session_leaks :
    ∃ server, run step initial quietSession = some server ∧ ¬Balanced server := by
  refine ⟨_, rfl, fun balanced => ?_⟩
  exact absurd balanced.unreleased (by decide)

/-- In every run, the ledger is balanced in all states exactly if no teardown finds an
element. -/
theorem ledger_balanced_iff (actions : List Action) (server : Server)
    (reached : run step initial actions = some server) :
    Throughout step Balanced initial actions ↔ Along step NoLiveTeardown initial actions := by
  have keeps : ∀ state action next, Held state ∧ Kept state →
      step state action = some next → Held next ∧ Kept next := by
    intro state action next valid stepped
    exact ⟨step_held state action next valid.1 stepped, step_kept state action next valid.2 stepped⟩
  have start : Balanced initial := initial_kept.balanced_iff.mpr rfl
  exact throughout_iff_along keeps step_balanced ⟨initial_held, initial_kept⟩ start reached

/-- The first session, still playing. -/
def firstSession : List Action :=
  startupRun ++
    [.setup true granted, .enterLoop, .request (.setFile "/a.mp3" (some "file:///a.mp3")),
      .request (.start granted), .tickPosition (some 0), .tickDuration (some 0)]

theorem first_session_balanced :
    ∃ server, run step initial firstSession = some server ∧ server.element = some 0 ∧
      Throughout step Balanced initial firstSession :=
  ⟨_, rfl, rfl, (ledger_balanced_iff firstSession _ rfl).mpr (by decide)⟩

end MediaplayerServer.Server
