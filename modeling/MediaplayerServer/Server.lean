import MediaplayerServer.Handshake
import MediaplayerServer.MediaPlayer

set_option autoImplicit false

/- The whole server process: main's thread and the dispatcher thread over one
MediaPlayer, from process start on. Every method that takes mtx is one step;
handle_message takes no lock, so it is three steps (pop, notify, quit), and
updateProgress is two (one critical section for each query). -/
namespace MediaplayerServer

/-- The next statement of main; `init` covers DBusCallbacks::init, `inLoop` is inside
g_main_loop_run. -/
inductive MainPc
  | init
  | setup
  | enterLoop
  | inLoop
  | stop
  | teardown
  deriving DecidableEq, Repr

/-- What the dispatcher thread is in the middle of, the acquire callback apart. -/
inductive Dispatcher
  | idle
  | notifying (message : GstMessage)
  | quitting (message : GstMessage)
  | ticking (position : Int)
  deriving DecidableEq, Repr

/-- main's GMainLoop. `quitBy` remembers the message whose handler cleared the flag
since the loop was last entered. -/
structure GMainLoop where
  running : Bool
  quitBy : Option GstMessage
  deriving DecidableEq, Repr

def GMainLoop.run : GMainLoop := ⟨true, none⟩

/-- A quit on a loop that is not running has no later effect. -/
def GMainLoop.quit (loop : GMainLoop) (message : GstMessage) : GMainLoop :=
  if loop.running then ⟨false, some message⟩ else loop

/-- The D-Bus signals of the mediaplayer interface. -/
inductive Signal
  | notifyProgress (position duration : Nat)
  | notifyError (message : String)
  | notifyEOS
  deriving DecidableEq, Repr

/-- `mMediaPlayer` tells whether a player is registered, `timer` whether the
updateProgress source is installed, `handled` lists the messages whose handler has
called g_main_loop_quit (latest first), `signals` what was emitted (latest first). -/
structure Server where
  handshake : Handshake.State
  main : MainPc
  dispatcher : Dispatcher
  mMediaPlayer : Bool
  timer : Bool
  loop : GMainLoop
  player : MediaPlayer
  handled : List GstMessage
  signals : List Signal

namespace Server

def initial : Server where
  handshake := Handshake.initial
  main := .init
  dispatcher := .idle
  mMediaPlayer := false
  timer := false
  loop := ⟨false, none⟩
  player := MediaPlayer.initial
  handled := []
  signals := []

/-- The element mpPlaybin holds. -/
abbrev element (server : Server) : Option Nat := server.player.element

abbrev gst (server : Server) : Gst := server.player.gst

abbrev playbin (server : Server) (element : Nat) : Playbin := server.gst.playbin element

/-- The dispatcher thread may dispatch its next source. -/
def free (server : Server) : Prop :=
  server.dispatcher = .idle ∧ server.handshake.inCallback = false

instance (server : Server) : Decidable server.free :=
  inferInstanceAs (Decidable (_ ∧ _))

/-- The message handle_message is working on, from taking it off the bus to quitting
the loop. -/
def inHand (server : Server) : Option GstMessage :=
  match server.dispatcher with
  | .notifying message => some message
  | .quitting message => some message
  | .idle => none
  | .ticking _ => none

inductive Action
  | startup (action : Handshake.Action)
  | construct
  | setup (made : Bool) (ready : StateChange)
  | enterLoop
  | leaveLoop
  | stop (change : StateChange)
  | teardown
  | request (request : Request)
  | tickPosition (position : Option Int)
  | tickDuration (duration : Option Int)
  | pop (element : Nat)
  | notify
  | quit
  | post (element : Nat) (type : GstMessageType)
  deriving DecidableEq, Repr

/-- A signal goes out only once the skeleton exists. -/
def emit (server : Server) (signal : Signal) : List Signal :=
  if server.handshake.mMediaplayerInterface then signal :: server.signals else server.signals

/-- The client signal of an EOS or ERROR message. -/
def notification (server : Server) (message : GstMessage) : List Signal :=
  match message.type with
  | .error text => server.emit (.notifyError text)
  | .eos => server.emit .notifyEOS
  | .stateChanged _ => server.signals
  | .other => server.signals

/-- The second half of updateProgress, with both reads made. -/
def progress (server : Server) (position duration : Int) : List Signal :=
  if position ≠ -1 ∧ duration ≠ -1 then
    server.emit (.notifyProgress (MediaPlayer.toUint position) (MediaPlayer.toUint duration))
  else server.signals

/-- The result a request handler sends back: false when no player is registered. -/
def reply (server : Server) (request : Request) : Bool :=
  server.mMediaPlayer && (server.player.serve request).2

def step (server : Server) : Action → Option Server
  | .startup action =>
      if action.begins = true → server.free then
        (Handshake.step server.handshake action).map fun handshake =>
          { server with
            handshake := handshake
            timer := server.timer || decide (action = .addTimer) }
      else none
  | .construct =>
      if server.main = .init ∧ server.handshake.init = .returned then
        some { server with main := .setup, mMediaPlayer := true }
      else none
  | .setup made ready =>
      if server.main = .setup then
        some { server with main := .enterLoop, player := (server.player.setup made ready).1 }
      else none
  | .enterLoop =>
      if server.main = .enterLoop then
        some { server with main := .inLoop, loop := GMainLoop.run }
      else none
  | .leaveLoop =>
      if server.main = .inLoop ∧ server.loop.running = false then
        some { server with main := .stop }
      else none
  | .stop change =>
      if server.main = .stop then
        some { server with main := .teardown, player := (server.player.stop change).1 }
      else none
  | .teardown =>
      if server.main = .teardown then
        some { server with main := .setup, player := server.player.teardown.1 }
      else none
  | .request request =>
      if server.free ∧ server.handshake.mMediaplayerInterface = true then
        if server.mMediaPlayer then
          some { server with player := (server.player.serve request).1 }
        else some server
      else none
  | .tickPosition position =>
      if server.free ∧ server.timer = true then
        if server.mMediaPlayer then
          some { server with dispatcher := .ticking (server.player.getPosition position) }
        else some { server with timer := false }
      else none
  | .tickDuration duration =>
      match server.dispatcher with
      | .ticking position =>
          some { server with
            dispatcher := .idle
            signals := server.progress position (server.player.getDuration duration) }
      | _ => none
  | .pop element =>
      if server.free ∧ element < server.gst.created ∧ (server.playbin element).watch = true then
        match (server.playbin element).queue with
        | [] => none
        | message :: _ =>
            -- a STATE_CHANGED is only looked at; how that goes wrong is ServerProcess's matter
            some { server with
              player := { server.player with gst := server.gst.pop element }
              dispatcher := if message.type.ends then .notifying message else .idle }
      else none
  | .notify =>
      match server.dispatcher with
      | .notifying message =>
          some { server with
            dispatcher := .quitting message
            signals := server.notification message }
      | _ => none
  | .quit =>
      match server.dispatcher with
      | .quitting message =>
          some { server with
            dispatcher := .idle
            loop := server.loop.quit message
            handled := message :: server.handled }
      | _ => none
  | .post element type =>
      if element < server.gst.created ∧ (server.playbin element).flushing = false then
        some { server with
          player := { server.player with gst := server.gst.post element type } }
      else none

end Server

end MediaplayerServer
