import MediaplayerServer.AbstractPlayer
import MediaplayerServer.ServerRecovery

set_option autoImplicit false

namespace MediaplayerServer

namespace MediaPlayer

/-- The player that a client can tell. -/
def view (self : MediaPlayer) : Player :=
  self.element.map fun element => (self.gst.playbin element).settings

theorem view_none (self : MediaPlayer) (absent : self.element = none) : self.view = none := by
  rw [view, absent, Option.map_none]

theorem view_some (self : MediaPlayer) (element : Nat) (held : self.element = some element) :
    self.view = some (self.gst.playbin element).settings := by
  rw [view, held, Option.map_some]

theorem view_set (self : MediaPlayer) (element : Nat) (playbin : Playbin)
    (held : self.element = some element) :
    ({ self with gst := self.gst.set element playbin } : MediaPlayer).view =
      some playbin.settings := by
  have after := view_some { self with gst := self.gst.set element playbin } element held
  rwa [Gst.set_self] at after

/-- A request is a command of the player, with the same result. -/
theorem serve_view (self : MediaPlayer) (answers : Answers) (command : Command) :
    ((self.serve (command.request answers)).1.view,
      (self.serve (command.request answers)).2) = self.view.serve answers command := by
  rw [serve_eq]
  cases held : self.element with
  | none =>
      rw [view_none self held, withElement_none self _ held, view_none self held]
      rfl
  | some element =>
      have served := (self.gst.playbin element).serve_settings answers command
      rw [withElement_some self _ element held, view_some self element held, Player.serve, ← served]
      exact Prod.ext (view_set self element _ held) rfl

theorem stop_view (self : MediaPlayer) (change : StateChange) :
    (self.stop change).1.view = self.view.map Settings.halted := by
  have served := congrArg Prod.fst (self.serve_view ⟨change, none, false, none⟩ .stop)
  refine Eq.trans served ?_
  cases self.view <;> rfl

theorem setup_view (self : MediaPlayer) (made : Bool) (ready : StateChange) :
    (self.setup made ready).1.view = Player.opened made ready := by
  cases made with
  | false => rfl
  | true =>
      rw [setup_made, view_some _ self.gst.created rfl, Player.opened, if_pos rfl]
      rw [← Playbin.installed_settings]
      exact congrArg (some ∘ Playbin.settings) (Gst.set_self _ _ _)

/-- What happens to a queue or a watch does not show. -/
theorem set_view (self next : MediaPlayer) (element : Nat) (playbin : Playbin)
    (holder : next.mpPlaybin = self.mpPlaybin)
    (pipelines : next.gst.playbin = (self.gst.set element playbin).playbin)
    (same : playbin.settings = (self.gst.playbin element).settings) : next.view = self.view := by
  have held : next.element = self.element := congrArg (Option.bind · MyElement.mElement) holder
  rw [view, view, held, pipelines]
  refine congrArg (self.element.map ·) (funext fun other => ?_)
  by_cases own : other = element
  · subst own
    rw [Gst.set_self, same]
  · rw [Gst.set_other _ _ _ _ own]

end MediaPlayer

namespace Server

def view (server : Server) : Player := server.player.view

theorem unregistered_view (server : Server) (sane : Sane server)
    (unregistered : server.mMediaPlayer = false) : server.view = none := by
  refine server.player.view_none (sane.held.detached (Or.inl ?_))
  by_contra started
  obtain ⟨registered, -⟩ := sane.registered started
  rw [unregistered] at registered
  cases registered

/-- A request is a command of the player, whether or not one is registered. -/
theorem request_view (server next : Server) (answers : Answers) (command : Command)
    (sane : Sane server)
    (stepped : step server (.request (command.request answers)) = some next) :
    (next.view, server.reply (command.request answers)) = server.view.serve answers command := by
  obtain ⟨-, ⟨registered, rfl⟩ | ⟨unregistered, rfl⟩⟩ := (step_request_iff _ _ _).mp stepped
  · rw [reply, registered, Bool.true_and]
    exact server.player.serve_view answers command
  · rw [reply, unregistered, Bool.false_and, unregistered_view server sane unregistered]
    rfl

/-- Main's steps that a client can tell. -/
def Action.turn {α : Type} : Action → Option (Turn α)
  | .setup made ready => some (.opened made ready)
  | .stop _ => some .halted
  | .teardown => some .closed
  | _ => none

theorem Action.turn_map {α β : Type} (action : Action) (f : α → β) :
    (action.turn : Option (Turn β)) = action.turn.map (Turn.map f) := by
  cases action <;> rfl

/-- Main's turns serve no command. -/
theorem Action.turn_told (action : Action) (turn : Turn Command) (own : action.turn = some turn)
    (player : Player) : player.told turn = none := by
  cases action <;> cases own <;> rfl

/-- Whatever else the server does, its client sees a session open, halt or close at most. -/
theorem step_view (server next : Server) (action : Action)
    (internal : ∀ request, action ≠ .request request)
    (stepped : step server action = some next) :
    next.view = action.turn.elim server.view server.view.turn := by
  cases stepped_of_step server next action stepped with
  | setup made ready main => exact server.player.setup_view made ready
  | stop change main => exact server.player.stop_view change
  | teardown main => exact MediaPlayer.view_none _ (teardown_element server)
  | served request => exact absurd rfl (internal request)
  | unserved request => exact absurd rfl (internal request)
  | popped element message rest free created watch queue =>
      exact MediaPlayer.set_view server.player _ element
        { server.playbin element with queue := (server.playbin element).queue.tail } rfl rfl rfl
  | posted element type created opened =>
      exact MediaPlayer.set_view server.player _ element
        { server.playbin element with
          queue := (server.playbin element).queue ++ [⟨element, server.gst.posted, type⟩] }
        rfl rfl rfl
  | _ => rfl

end Server

end MediaplayerServer
