import MediaplayerServer.Transition

set_option autoImplicit false

/- DBusCallbacks::init and the two bus-acquired callbacks, step by step: the
calling thread and the dispatcher thread it starts share one mutex and one
condition variable. -/
namespace MediaplayerServer.Handshake

/-- The next statement of init; `wait` holds mtx, `parked` is inside cv.wait and
`relock` has been woken there and still has to take mtx again. -/
inductive InitPc
  | startThread
  | ownMediaplayer
  | ownMediainfo
  | addTimer
  | lock
  | wait
  | parked
  | relock
  | returned
  deriving DecidableEq, Repr

/-- Where onMediaplayerBusAcquired stands; GLib calls it once. -/
inductive CallbackPc
  | notAcquired
  | exported
  | locked
  | notified
  | finished
  deriving DecidableEq, Repr

inductive Thread
  | main
  | dispatcher
  deriving DecidableEq, Repr

/-- `pending` is a notification sent to a parked thread that has not woken up yet. -/
structure State where
  init : InitPc
  callback : CallbackPc
  mtx : Option Thread
  pending : Bool
  mMediaplayerInterface : Bool
  mMediainfoInterface : Bool
  deriving DecidableEq, Repr

def initial : State where
  init := .startThread
  callback := .notAcquired
  mtx := none
  pending := false
  mMediaplayerInterface := false
  mMediainfoInterface := false

inductive Action
  | startThread
  | registerMediaplayerServer
  | registerMediainfoServer
  | addTimer
  | lock
  | wait
  | wake
  | relock
  | onMediaplayerBusAcquired
  | lockCallback
  | notifyOne
  | unlockCallback
  | onMediainfoBusAcquired
  deriving DecidableEq, Repr

/-- The actions of the dispatcher thread that begin a callback; the other three of
its actions continue one. -/
def Action.begins : Action → Bool
  | .onMediaplayerBusAcquired => true
  | .onMediainfoBusAcquired => true
  | _ => false

/-- The dispatcher thread is inside onMediaplayerBusAcquired. -/
def State.inCallback (state : State) : Bool :=
  match state.callback with
  | .exported => true
  | .locked => true
  | .notified => true
  | .notAcquired => false
  | .finished => false

/-- A bus name can be acquired once init has asked for it. -/
def State.requestedMediaplayer (state : State) : Bool :=
  match state.init with
  | .startThread => false
  | .ownMediaplayer => false
  | _ => true

def State.requestedMediainfo (state : State) : Bool :=
  match state.init with
  | .startThread => false
  | .ownMediaplayer => false
  | .ownMediainfo => false
  | _ => true

def step (state : State) : Action → Option State
  | .startThread =>
      if state.init = .startThread then some { state with init := .ownMediaplayer } else none
  | .registerMediaplayerServer =>
      if state.init = .ownMediaplayer then some { state with init := .ownMediainfo } else none
  | .registerMediainfoServer =>
      if state.init = .ownMediainfo then some { state with init := .addTimer } else none
  | .addTimer =>
      if state.init = .addTimer then some { state with init := .lock } else none
  | .lock =>
      if state.init = .lock ∧ state.mtx = none then
        some { state with init := .wait, mtx := some .main }
      else none
  | .wait =>
      if state.init = .wait then some { state with init := .parked, mtx := none } else none
  | .wake =>
      -- enabled without a pending notification too: cv.wait may wake spuriously
      if state.init = .parked then some { state with init := .relock, pending := false } else none
  | .relock =>
      -- lck goes out of scope at once: init returns and mtx is free again
      if state.init = .relock ∧ state.mtx = none then some { state with init := .returned }
      else none
  | .onMediaplayerBusAcquired =>
      if state.callback = .notAcquired ∧ state.requestedMediaplayer = true then
        some { state with callback := .exported, mMediaplayerInterface := true }
      else none
  | .lockCallback =>
      if state.callback = .exported ∧ state.mtx = none then
        some { state with callback := .locked, mtx := some .dispatcher }
      else none
  | .notifyOne =>
      if state.callback = .locked then
        some { state with callback := .notified, pending := decide (state.init = .parked) }
      else none
  | .unlockCallback =>
      if state.callback = .notified then
        some { state with callback := .finished, mtx := none }
      else none
  | .onMediainfoBusAcquired =>
      if state.mMediainfoInterface = false ∧ state.requestedMediainfo = true ∧
          state.inCallback = false then
        some { state with mMediainfoInterface := true }
      else none

end MediaplayerServer.Handshake
