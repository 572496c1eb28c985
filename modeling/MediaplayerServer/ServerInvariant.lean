import MediaplayerServer.ServerStep
import MediaplayerServer.Transition

set_option autoImplicit false

namespace MediaplayerServer

open Transition

namespace Server

/-- A served request changes the held pipeline only. -/
theorem serve_other (server : Server) (request : Request) (other : Nat)
    (orphan : server.element ≠ some other) :
    (server.player.serve request).1.gst.playbin other = server.playbin other := by
  rw [MediaPlayer.serve_eq]
  exact server.player.withElement_other _ other orphan

theorem serve_held (server : Server) (request : Request) (element : Nat)
    (held : server.element = some element) :
    (server.player.serve request).1.gst.playbin element =
      ((server.playbin element).serve request).1 := by
  rw [MediaPlayer.serve_eq]
  exact server.player.withElement_self _ element held

theorem serve_element (server : Server) (request : Request) :
    (server.player.serve request).1.element = server.element := by
  rw [MediaPlayer.serve_eq, MediaPlayer.withElement_element]

theorem serve_created (server : Server) (request : Request) :
    (server.player.serve request).1.gst.created = server.gst.created := by
  rw [MediaPlayer.serve_eq, MediaPlayer.withElement_created]

theorem serve_posted (server : Server) (request : Request) :
    (server.player.serve request).1.gst.posted = server.gst.posted := by
  rw [MediaPlayer.serve_eq, MediaPlayer.withElement_posted]

/-- Only setup and teardown change what mpPlaybin holds. -/
theorem step_element (server next : Server) (action : Action)
    (stepped : step server action = some next) (other : action.replaces = false) :
    next.element = server.element := by
  rcases step_player server next action stepped with
    ⟨-, result⟩ | ⟨request, -, result⟩ | ⟨made, ready, asked, -⟩ | ⟨asked, -⟩ |
      ⟨element, message, rest, -, -, -, result⟩ | ⟨element, type, -, -, -, result⟩
  · rw [element, result]
  · rw [element, result, serve_element]
  · rw [asked] at other
    cases other
  · rw [asked] at other
    cases other
  · rw [MediaplayerServer.Server.element, result]
    rfl
  · rw [MediaplayerServer.Server.element, result]
    rfl

theorem stop_eq_serve (server : Server) (change : StateChange) :
    server.player.stop change = server.player.serve (.stop change) := rfl

theorem pop_other (server : Server) (popped other : Nat) (differ : other ≠ popped) :
    (server.gst.pop popped).playbin other = server.playbin other :=
  Gst.set_other _ _ _ _ differ

theorem post_other (server : Server) (posted other : Nat) (type : GstMessageType)
    (differ : other ≠ posted) :
    (server.gst.post posted type).playbin other = server.playbin other :=
  Gst.set_other _ _ _ _ differ

theorem setup_refused_element (server : Server) (ready : StateChange) :
    (server.player.setup false ready).1.element = none := rfl

theorem setup_made_element (server : Server) (ready : StateChange) :
    (server.player.setup true ready).1.element = some server.gst.created := by
  rw [MediaPlayer.setup_made]
  rfl

/-- Whatever mpPlaybin held, it holds no element after teardown. -/
theorem teardown_element (server : Server) : server.player.teardown.1.element = none := by
  cases held : server.element with
  | none =>
      rw [MediaPlayer.teardown_none server.player held]
      exact held
  | some element =>
      rw [MediaPlayer.teardown_some server.player element held]
      rfl

/-- The inverted test in MyElement::teardown leaves every pipeline as it was. -/
theorem teardown_gst (server : Server) : server.player.teardown.1.gst = server.gst := by
  cases held : server.element with
  | none => rw [MediaPlayer.teardown_none server.player held]
  | some element => rw [MediaPlayer.teardown_some server.player element held]

/-- setup leaves the pipelines of earlier sessions alone. -/
theorem setup_other (server : Server) (made : Bool) (ready : StateChange) (other : Nat)
    (differ : other ≠ server.gst.created) :
    (server.player.setup made ready).1.gst.playbin other = server.playbin other := by
  cases made with
  | false => rfl
  | true =>
      rw [MediaPlayer.setup_made]
      exact Gst.set_other _ _ _ _ differ

theorem setup_new (server : Server) (ready : StateChange) :
    (server.player.setup true ready).1.gst.playbin server.gst.created =
      Playbin.installed ready := by
  rw [MediaPlayer.setup_made]
  exact Gst.set_self _ _ _

theorem setup_created (server : Server) (made : Bool) (ready : StateChange) :
    (server.player.setup made ready).1.gst.created =
      server.gst.created + if made then 1 else 0 := by
  cases made with
  | false => rfl
  | true =>
      rw [MediaPlayer.setup_made]
      rfl

theorem setup_posted (server : Server) (made : Bool) (ready : StateChange) :
    (server.player.setup made ready).1.gst.posted = server.gst.posted := by
  cases made with
  | false => rfl
  | true =>
      rw [MediaPlayer.setup_made]
      rfl

theorem setup_nullUnrefs (server : Server) (made : Bool) (ready : StateChange) :
    (server.player.setup made ready).1.gst.nullUnrefs = server.gst.nullUnrefs := by
  cases made with
  | false => rfl
  | true =>
      rw [MediaPlayer.setup_made]
      rfl

/-- Everything a step can do to one pipeline. -/
inductive PlaybinChange (server : Server) (action : Action) (element : Nat)
    (playbin : Playbin) : Prop
  | kept (result : playbin = server.playbin element)
  | served (request : Request) (held : server.element = some element)
      (asked : action = .request request ∨ ∃ change, action = .stop change ∧ request = .stop change)
      (result : playbin = ((server.playbin element).serve request).1)
  | installed (ready : StateChange) (asked : action = .setup true ready)
      (fresh : element = server.gst.created) (result : playbin = Playbin.installed ready)
  | popped (message : GstMessage) (rest : List GstMessage) (asked : action = .pop element)
      (queue : (server.playbin element).queue = message :: rest)
      (result : playbin = { server.playbin element with queue := rest })
  | posted (type : GstMessageType) (asked : action = .post element type)
      (opened : (server.playbin element).flushing = false)
      (result : playbin = { server.playbin element with
        queue := (server.playbin element).queue ++ [⟨element, server.gst.posted, type⟩] })

theorem step_playbin (server next : Server) (action : Action) (element : Nat)
    (stepped : step server action = some next) :
    PlaybinChange server action element (next.playbin element) := by
  rcases step_player server next action stepped with
    ⟨-, result⟩ | ⟨request, asked, result⟩ | ⟨made, ready, asked, result⟩ | ⟨-, result⟩ |
      ⟨popped, message, rest, asked, -, queue, result⟩ | ⟨posted, type, asked, -, opened, result⟩
  · refine .kept ?_
    rw [playbin, gst, result]
  · rw [playbin, gst, result]
    by_cases held : server.element = some element
    · exact .served request held asked (serve_held server request element held)
    · exact .kept (serve_other server request element held)
  · rw [playbin, gst, result]
    by_cases fresh : element = server.gst.created
    · cases made with
      | false => exact .kept rfl
      | true =>
          subst fresh
          exact .installed ready asked rfl (setup_new server ready)
    · exact .kept (setup_other server made ready element fresh)
  · refine .kept ?_
    rw [playbin, gst, result, teardown_gst]
  · rw [playbin, gst, result]
    by_cases same : element = popped
    · subst same
      refine .popped message rest asked queue ?_
      rw [Gst.pop, Gst.set_self, queue, List.tail_cons]
    · exact .kept (pop_other server popped element same)
  · rw [playbin, gst, result]
    by_cases same : element = posted
    · subst same
      exact .posted type asked opened (Gst.set_self _ _ _)
    · exact .kept (post_other server posted element type same)

theorem serve_nullUnrefs (server : Server) (request : Request) :
    (server.player.serve request).1.gst.nullUnrefs = server.gst.nullUnrefs := by
  rw [MediaPlayer.serve_eq, MediaPlayer.withElement_nullUnrefs]

/-- Only a setup that gets its element adds a pipeline. -/
theorem step_created (server next : Server) (action : Action)
    (stepped : step server action = some next) :
    next.gst.created = server.gst.created ∧ (∀ ready, action ≠ .setup true ready) ∨
      ∃ ready, action = .setup true ready ∧ next.gst.created = server.gst.created + 1 := by
  rcases step_player server next action stepped with
    ⟨other, result⟩ | ⟨request, asked, result⟩ | ⟨made, ready, asked, result⟩ |
      ⟨asked, result⟩ | ⟨element, _, _, asked, -, -, result⟩ | ⟨element, type, asked, -, -, result⟩
  · refine Or.inl ⟨by rw [gst, result], ?_⟩
    rintro ready rfl
    cases other
  · refine Or.inl ⟨by rw [gst, result, serve_created], ?_⟩
    rcases asked with rfl | ⟨change, rfl, -⟩ <;> nofun
  · cases made with
    | false =>
        refine Or.inl ⟨by rw [gst, result, setup_created]; rfl, ?_⟩
        rw [asked]
        nofun
    | true => exact Or.inr ⟨ready, asked, by rw [gst, result, setup_created]; rfl⟩
  · refine Or.inl ⟨by rw [gst, result, teardown_gst], ?_⟩
    rw [asked]
    nofun
  · refine Or.inl ⟨by rw [gst, result]; rfl, ?_⟩
    rw [asked]
    nofun
  · refine Or.inl ⟨by rw [gst, result]; rfl, ?_⟩
    rw [asked]
    nofun

/-- A pipeline that exists after a step existed before it, or is the one setup made. -/
theorem created_cases (server next : Server) (action : Action) (element : Nat)
    (stepped : step server action = some next) (existing : element < next.gst.created) :
    element < server.gst.created ∨
      element = server.gst.created ∧ ∃ ready, action = .setup true ready := by
  rcases step_created server next action stepped with ⟨same, -⟩ | ⟨ready, asked, more⟩
  · rw [same] at existing
    exact Or.inl existing
  · rw [more] at existing
    by_cases older : element < server.gst.created
    · exact Or.inl older
    · exact Or.inr ⟨by omega, ready, asked⟩

theorem setup_step (server next : Server) (ready : StateChange)
    (stepped : step server (.setup true ready) = some next) :
    next.element = some server.gst.created ∧
      next.playbin server.gst.created = Playbin.installed ready := by
  obtain ⟨-, rfl⟩ := (step_setup_iff _ _ _ _).mp stepped
  exact ⟨setup_made_element server ready, setup_new server ready⟩

/-- mpPlaybin holds an element that was created, and none before setup. -/
structure Held (server : Server) : Prop where
  created : ∀ element, server.element = some element → element < server.gst.created
  detached : server.main = .init ∨ server.main = .setup → server.element = none

theorem initial_held : Held initial := by
  constructor
  · nofun
  · exact fun _ => rfl

theorem step_held (server : Server) (action : Action) (next : Server) (valid : Held server)
    (stepped : step server action = some next) : Held next := by
  constructor
  · intro element held
    rcases step_player server next action stepped with
      ⟨-, result⟩ | ⟨request, -, result⟩ | ⟨made, ready, -, result⟩ | ⟨-, result⟩ |
        ⟨popped, message, rest, -, -, -, result⟩ | ⟨posted, type, -, -, -, result⟩
    · rw [Server.element, result] at held
      rw [gst, result]
      exact valid.created element held
    · rw [Server.element, result, serve_element] at held
      rw [gst, result, serve_created]
      exact valid.created element held
    · rw [Server.element, result] at held
      rw [gst, result, setup_created]
      cases made with
      | false =>
          rw [setup_refused_element] at held
          cases held
      | true =>
          rw [setup_made_element, Option.some.injEq] at held
          simp only [↓reduceIte]
          omega
    · rw [Server.element, result, teardown_element] at held
      cases held
    · rw [Server.element, result] at held
      rw [gst, result]
      exact valid.created element held
    · rw [Server.element, result] at held
      rw [gst, result]
      exact valid.created element held
  · intro before
    rcases step_mainChange server next action stepped with
      ⟨other, after⟩ | ⟨asked, main, -, -⟩ | ⟨_, _, -, -, after⟩ | ⟨-, -, after⟩ |
        ⟨-, -, -, after⟩ | ⟨_, -, -, after⟩ | ⟨asked, -, -⟩
    · rw [after] at before
      rw [step_element server next action stepped (replaces_of_ofMain action other)]
      exact valid.detached before
    · subst asked
      rw [step_element server next .construct stepped rfl]
      exact valid.detached (Or.inl main)
    · simp [after] at before
    · simp [after] at before
    · simp [after] at before
    · simp [after] at before
    · subst asked
      obtain ⟨-, rfl⟩ := (step_teardown_iff _ _).mp stepped
      exact teardown_element server

/-- After a step other than teardown, an orphan was an orphan before. -/
theorem orphan_before (server next : Server) (action : Action) (element : Nat)
    (valid : Held server) (stepped : step server action = some next)
    (other : action ≠ .teardown) (orphan : next.element ≠ some element) :
    server.element ≠ some element := by
  by_cases replaces : action.replaces = true
  · cases action with
    | setup made ready =>
        obtain ⟨main, -⟩ := (step_setup_iff _ _ _ _).mp stepped
        rw [valid.detached (Or.inr main)]
        nofun
    | teardown => exact absurd rfl other
    | _ => cases replaces
  · rw [Bool.not_eq_true] at replaces
    rwa [step_element server next action stepped replaces] at orphan

end Server

end MediaplayerServer
