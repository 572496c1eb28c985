import MediaplayerServer.MediaPlayerResult

set_option autoImplicit false

namespace MediaplayerServer

/-- What a client asks for. -/
inductive Command
  | start
  | pause
  | stop
  | seek (secs : UInt32)
  | setRate (rate : Gdouble)
  | setFile (filepath : String)
  deriving DecidableEq, Repr

/-- What GStreamer answers while a command is served: the outcome of a state change, the
position of the pipeline, whether it takes a seek, and the URI of a path. -/
structure Answers where
  change : StateChange
  position : Option Int
  done : Bool
  uri : Option String
  deriving DecidableEq, Repr

def Command.request (answers : Answers) : Command → Request
  | .start => .start answers.change
  | .pause => .pause answers.change
  | .stop => .stop answers.change
  | .seek secs => .seek secs answers.done
  | .setRate rate => .setRate rate answers.position answers.done
  | .setFile filepath => .setFile filepath answers.uri

namespace Settings

/-- The settings of a new session, before its first state change. -/
def fresh : Settings where
  uri := none
  state := .null
  position := 0
  rate := .finite 1

/-- A refused change leaves the state that GStreamer falls back to. -/
def moved (settings : Settings) (target : GstState) (change : StateChange) : Settings × Bool :=
  if change.ret = .failure then ({ settings with state := change.left }, false)
  else ({ settings with state := target }, true)

def halted (settings : Settings) : Settings := { settings with state := .null }

def serve (settings : Settings) (answers : Answers) : Command → Settings × Bool
  | .start => settings.moved .playing answers.change
  | .pause => settings.moved .paused answers.change
  | .stop => (settings.halted, true)
  | .seek secs =>
      if answers.done then
        ({ settings with position := secs.toNat * MediaPlayer.gstSecond, rate := .finite 1 }, true)
      else (settings, false)
  | .setRate rate =>
      if answers.position ≠ none ∧ rate ≠ .finite 0 ∧ answers.done = true then
        ({ settings with position := answers.position.getD 0, rate := rate }, true)
      else (settings, false)
  | .setFile _ => ({ settings with uri := answers.uri }, true)

end Settings

/-- What happens to the player, one thing at a time: it serves a command, with what GStreamer
answers, or its session opens, halts or closes. -/
inductive Turn (α : Type)
  | served (command : α) (answers : Answers)
  | opened (made : Bool) (ready : StateChange)
  | halted
  | closed
  deriving DecidableEq, Repr

def Turn.map {α β : Type} (f : α → β) : Turn α → Turn β
  | .served command answers => .served (f command) answers
  | .opened made ready => .opened made ready
  | .halted => .halted
  | .closed => .closed

/-- The settings of the open session, if there is one. -/
abbrev Player := Option Settings

namespace Player

/-- Without a session every command fails. -/
def serve (player : Player) (answers : Answers) (command : Command) : Player × Bool :=
  match player with
  | none => (none, false)
  | some settings =>
      (some (settings.serve answers command).1, (settings.serve answers command).2)

/-- A new session comes up in READY, if there is an element for it. -/
def opened (made : Bool) (ready : StateChange) : Player :=
  if made then some (Settings.fresh.moved .ready ready).1 else none

def turn (player : Player) : Turn Command → Player
  | .served command answers => (player.serve answers command).1
  | .opened made ready => Player.opened made ready
  | .halted => player.map Settings.halted
  | .closed => none

/-- The command that a turn serves, with its result. -/
def told (player : Player) : Turn Command → Option (Command × Bool)
  | .served command answers => some (command, (player.serve answers command).2)
  | _ => none

def after (player : Player) (turns : List (Turn Command)) : Player := turns.foldl turn player

/-- The commands that are served on the way, with their results. -/
def results : Player → List (Turn Command) → List (Command × Bool)
  | _, [] => []
  | player, turn :: rest => (player.told turn).toList ++ (player.turn turn).results rest

theorem after_concat (player : Player) (turns : List (Turn Command)) (turn : Turn Command) :
    player.after (turns ++ [turn]) = (player.after turns).turn turn :=
  List.foldl_append

theorem results_concat (player : Player) (turns : List (Turn Command)) (turn : Turn Command) :
    player.results (turns ++ [turn]) =
      player.results turns ++ ((player.after turns).told turn).toList := by
  induction turns generalizing player with
  | nil => exact List.append_nil _
  | cons first rest ih =>
      rw [List.cons_append, results, ih, ← List.append_assoc]
      rfl

end Player

namespace Playbin

theorem changeState_moved (playbin : Playbin) (target : GstState) (change : StateChange)
    (other : target ≠ .null) :
    ((playbin.changeState target change).1.settings, (playbin.changeState target change).2) =
      playbin.settings.moved target change := by
  unfold changeState gstElementSetState Settings.moved
  rw [if_neg other]
  by_cases refused : change.ret = .failure
  · rw [if_pos refused, if_pos refused]
    rfl
  · rw [if_neg refused, if_neg refused]
    exact Prod.ext rfl (decide_eq_true refused)

/-- On its own pipeline a request does what its command does on the settings. -/
theorem serve_settings (playbin : Playbin) (answers : Answers) (command : Command) :
    ((playbin.serve (command.request answers)).1.settings,
      (playbin.serve (command.request answers)).2) =
      playbin.settings.serve answers command := by
  cases command with
  | start => exact playbin.changeState_moved .playing answers.change nofun
  | pause => exact playbin.changeState_moved .paused answers.change nofun
  | stop => rfl
  | seek secs =>
      rw [Command.request, serve, gstElementSeekSimple, Settings.serve]
      split <;> rfl
  | setRate rate =>
      rw [Command.request, serve, Operation.sendSeekEvent_eq, Settings.serve]
      split <;> rfl
  | setFile filepath => rfl

theorem installed_settings (ready : StateChange) :
    (installed ready).settings = (Settings.fresh.moved .ready ready).1 := by
  unfold installed gstElementSetState Settings.moved
  rw [if_neg (by decide)]
  split <;> rfl

end Playbin

end MediaplayerServer
