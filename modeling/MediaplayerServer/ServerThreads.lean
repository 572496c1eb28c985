import MediaplayerServer.MediaPlayerLock
import MediaplayerServer.ServerOrphans

set_option autoImplicit false

/- The server with its two threads in the player's methods at the same time: a method is
called, waits for mtx, runs statement by statement and returns, and its caller goes on only
then. The server whose methods are made at once is what this amounts to. -/
namespace MediaplayerServer

open Handshake Linearizability LockedObject Transition

/-- The thread that takes a step of the startup. -/
def Handshake.Action.thread : Handshake.Action → Thread
  | .onMediaplayerBusAcquired => .dispatcher
  | .lockCallback => .dispatcher
  | .notifyOne => .dispatcher
  | .unlockCallback => .dispatcher
  | .onMediainfoBusAcquired => .dispatcher
  | _ => .main

/-- Main's next statement after a call of the player. -/
def MainPc.afterCall : MainPc → MainPc
  | .setup => .enterLoop
  | .stop => .teardown
  | .teardown => .setup
  | other => other

namespace Server

/-- The thread that takes a step; GStreamer's own threads post messages. -/
def Action.thread : Action → Option Thread
  | .startup action => some action.thread
  | .request _ => some .dispatcher
  | .tickPosition _ => some .dispatcher
  | .tickDuration _ => some .dispatcher
  | .pop _ => some .dispatcher
  | .notify => some .dispatcher
  | .quit => some .dispatcher
  | .post _ _ => none
  | _ => some .main

/-- The step calls no method of the player. -/
def direct (server : Server) : Action → Bool
  | .setup _ _ => false
  | .stop _ => false
  | .teardown => false
  | .request _ => !server.mMediaPlayer
  | .tickPosition _ => !server.mMediaPlayer
  | .tickDuration _ => false
  | _ => true

/-- The thread is at a call of the method. -/
def calls (server : Server) : Thread → MediaPlayer.Method → Bool
  | .main, .setup _ _ => decide (server.main = .setup)
  | .main, .serve (.stop _) => decide (server.main = .stop)
  | .main, .teardown => decide (server.main = .teardown)
  | .dispatcher, .serve _ =>
      decide server.free && server.handshake.mMediaplayerInterface && server.mMediaPlayer
  | .dispatcher, .getPosition _ => decide server.free && server.timer && server.mMediaPlayer
  | .dispatcher, .getDuration _ =>
      match server.dispatcher with
      | .ticking _ => true
      | _ => false
  | _, _ => false

/-- What a thread does next with the result of its call. Main does not look at it, and a
request's is sent back. -/
def resume (server : Server) (result : MediaPlayer.Returned) : Thread → Server
  | .main => { server with main := server.main.afterCall }
  | .dispatcher =>
      match result, server.dispatcher with
      | .bool _, _ => server
      | .seconds duration, .ticking position =>
          { server with dispatcher := .idle, signals := server.progress position duration }
      | .seconds position, _ => { server with dispatcher := .ticking position }

end Server

abbrev PlayerLock := System MediaPlayer MediaPlayer.Method MediaPlayer.Returned Thread

/-- The server, and where its threads are in the methods of the player. -/
structure ThreadedServer where
  server : Server
  lock : PlayerLock

namespace ThreadedServer

def initial : ThreadedServer where
  server := Server.initial
  lock := System.initial MediaPlayer.initial

inductive Action
  | direct (action : Server.Action)
  | call (thread : Thread) (method : MediaPlayer.Method)
  | lock (thread : Thread)
  | execute (thread : Thread)
  | unlock (thread : Thread)
  | finish (thread : Thread)
  deriving DecidableEq, Repr

/-- The thread is in no method of the player. -/
def idle (self : ThreadedServer) (thread : Thread) : Bool :=
  match self.lock.phase thread with
  | .idle => true
  | _ => false

def move (self : ThreadedServer) (move : Move MediaPlayer.Method Background Thread) :
    Option ThreadedServer :=
  (self.lock.step MediaPlayerLock.body MediaPlayer.background move).map fun lock =>
    ⟨{ self.server with player := lock.object }, lock⟩

def step (self : ThreadedServer) : Action → Option ThreadedServer
  | .direct action =>
      if self.server.direct action ∧ ∀ thread, action.thread = some thread → self.idle thread then
        (self.server.step action).map fun server =>
          ⟨server, { self.lock with object := server.player }⟩
      else none
  | .call thread method =>
      if self.server.calls thread method then self.move (.call thread method) else none
  | .lock thread => self.move (.lock thread)
  | .execute thread => self.move (.execute thread)
  | .unlock thread => self.move (.unlock thread)
  | .finish thread =>
      match self.lock.phase thread with
      | .returning result =>
          (self.move (.finish thread)).map fun next =>
            { next with server := next.server.resume result thread }
      | _ => none

end ThreadedServer

namespace Server

/-- The server once the threads have gone on with the results they are about to get. -/
def settled (server : Server) (main dispatcher : Option MediaPlayer.Returned) : Server :=
  let resumed := main.elim server (server.resume · .main)
  dispatcher.elim resumed (resumed.resume · .dispatcher)

/-- What a direct step does to the player. -/
def Moved (change : Option Background) (player next : MediaPlayer) : Prop :=
  match change with
  | none => next = player
  | some change => player.background change = some next

/-- A call takes effect as the step of the server in which it is made at once. -/
theorem step_of_calls (server : Server) (thread : Thread) (method : MediaPlayer.Method)
    (calls : server.calls thread method = true) :
    ∃ action, step server action =
      some { server.resume (MediaPlayer.call method server.player).2 thread with
        player := (MediaPlayer.call method server.player).1 } := by
  cases thread with
  | main =>
      cases method with
      | setup made ready =>
          have main : server.main = .setup := of_decide_eq_true calls
          refine ⟨.setup made ready, (step_setup_iff _ _ _ _).mpr ⟨main, ?_⟩⟩
          simp only [resume, main, MainPc.afterCall]
          rfl
      | teardown =>
          have main : server.main = .teardown := of_decide_eq_true calls
          refine ⟨.teardown, (step_teardown_iff _ _).mpr ⟨main, ?_⟩⟩
          simp only [resume, main, MainPc.afterCall]
          rfl
      | serve request =>
          cases request with
          | stop change =>
              have main : server.main = .stop := of_decide_eq_true calls
              refine ⟨.stop change, (step_stop_iff _ _ _).mpr ⟨main, ?_⟩⟩
              simp only [resume, main, MainPc.afterCall]
              rfl
          | _ => cases calls
      | _ => cases calls
  | dispatcher =>
      cases method with
      | serve request =>
          simp only [Server.calls, Bool.and_eq_true, decide_eq_true_eq] at calls
          obtain ⟨⟨free, skeleton⟩, registered⟩ := calls
          exact ⟨.request request,
            (step_request_iff _ _ _).mpr ⟨⟨free, skeleton⟩, Or.inl ⟨registered, rfl⟩⟩⟩
      | getPosition position =>
          simp only [Server.calls, Bool.and_eq_true, decide_eq_true_eq] at calls
          obtain ⟨⟨free, installed⟩, registered⟩ := calls
          refine ⟨.tickPosition position,
            (step_tickPosition_iff _ _ _).mpr ⟨⟨free, installed⟩, Or.inl ⟨registered, ?_⟩⟩⟩
          simp only [MediaPlayer.call, resume, free.1]
      | getDuration duration =>
          cases dispatcher : server.dispatcher with
          | ticking position =>
              refine ⟨.tickDuration duration,
                (step_tickDuration_iff _ _ _).mpr ⟨position, dispatcher, ?_⟩⟩
              simp only [MediaPlayer.call, resume, dispatcher]
          | _ => simp only [Server.calls, dispatcher, Bool.false_eq_true] at calls
      | _ => cases calls

/-- Main's steps in init create no skeleton and begin no callback. -/
theorem startup_of_main (state next : Handshake.State) (action : Handshake.Action)
    (main : action.thread = .main) (moved : Handshake.step state action = some next) :
    action.begins = false ∧ next.mMediaplayerInterface = state.mMediaplayerInterface ∧
      next.inCallback = state.inCallback := by
  cases action with
  | onMediaplayerBusAcquired => cases main
  | lockCallback => cases main
  | notifyOne => cases main
  | unlockCallback => cases main
  | onMediainfoBusAcquired => cases main
  | _ =>
      obtain ⟨-, ⟨⟩⟩ := Option.ite_none_right_eq_some.mp moved
      exact ⟨rfl, rfl, rfl⟩

/-- Main's own steps, while the dispatcher and the player may be anywhere. -/
structure OfMain (server next : Server) (action : Action) : Prop where
  dispatcher : next.dispatcher = server.dispatcher
  signals : next.signals = server.signals
  skeleton : next.handshake.mMediaplayerInterface = server.handshake.mMediaplayerInterface
  callback : next.handshake.inCallback = server.handshake.inCallback
  timer : server.timer = true → next.timer = true
  registered : server.mMediaPlayer = true → next.mMediaPlayer = true
  player : next.player = server.player
  anywhere : ∀ dispatcher signals player,
    step { server with dispatcher := dispatcher, signals := signals, player := player } action =
      some { next with dispatcher := dispatcher, signals := signals, player := player }

/-- A step of the dispatcher that calls no method, or of a pipeline, while main may be anywhere. -/
structure OfOthers (server next : Server) (action : Action) (change : Option Background) :
    Prop where
  main : next.main = server.main
  player : Moved change server.player next.player
  anywhere : ∀ main player after, Moved change player after →
    step { server with main := main, player := player } action =
      some { next with main := main, player := after }

theorem OfOthers.of_still {server next : Server} {action : Action}
    (main : next.main = server.main) (player : next.player = server.player)
    (anywhere : ∀ main player,
      step { server with main := main, player := player } action =
        some { next with main := main, player := player }) :
    OfOthers server next action none where
  main := main
  player := player
  anywhere := fun main player after same => by
    rw [show after = player from same]
    exact anywhere main player

theorem direct_of_main (server next : Server) (action : Action)
    (direct : server.direct action = true) (own : action.thread = some .main)
    (stepped : step server action = some next) : OfMain server next action := by
  cases stepped_of_step server next action stepped with
  | startup inner handshake begins moved =>
      obtain ⟨continues, skeleton, callback⟩ :=
        startup_of_main _ _ inner (Option.some.inj own) moved
      refine ⟨rfl, rfl, skeleton, callback, fun installed => ?_, id, rfl, fun _ _ _ => ?_⟩
      · exact Bool.or_eq_true_iff.mpr (Or.inl installed)
      · refine (step_startup_iff _ _ _).mpr ⟨fun begun => ?_, handshake, moved, rfl⟩
        rw [continues] at begun
        cases begun
  | construct main returned =>
      exact ⟨rfl, rfl, rfl, rfl, id, fun _ => rfl, rfl,
        fun _ _ _ => (step_construct_iff _ _).mpr ⟨⟨main, returned⟩, rfl⟩⟩
  | enterLoop main =>
      exact ⟨rfl, rfl, rfl, rfl, id, id, rfl,
        fun _ _ _ => (step_enterLoop_iff _ _).mpr ⟨main, rfl⟩⟩
  | leaveLoop main quit =>
      exact ⟨rfl, rfl, rfl, rfl, id, id, rfl,
        fun _ _ _ => (step_leaveLoop_iff _ _).mpr ⟨⟨main, quit⟩, rfl⟩⟩
  | setup => cases direct
  | stop => cases direct
  | teardown => cases direct
  | _ => cases own

theorem direct_of_dispatcher (server next : Server) (action : Action)
    (direct : server.direct action = true) (own : action.thread = some .dispatcher)
    (stepped : step server action = some next) :
    ∃ change, OfOthers server next action change := by
  cases stepped_of_step server next action stepped with
  | startup inner handshake begins moved =>
      exact ⟨none, .of_still rfl rfl fun _ _ =>
        (step_startup_iff _ _ _).mpr ⟨begins, handshake, moved, rfl⟩⟩
  | unserved request free skeleton unregistered =>
      exact ⟨none, .of_still rfl rfl fun _ _ =>
        (step_request_iff _ _ _).mpr ⟨⟨free, skeleton⟩, Or.inr ⟨unregistered, rfl⟩⟩⟩
  | removed position free installed unregistered =>
      exact ⟨none, .of_still rfl rfl fun _ _ =>
        (step_tickPosition_iff _ _ _).mpr ⟨⟨free, installed⟩, Or.inr ⟨unregistered, rfl⟩⟩⟩
  | notified message busy =>
      exact ⟨none, .of_still rfl rfl fun _ _ =>
        (step_notify_iff _ _).mpr ⟨message, busy, rfl⟩⟩
  | quit message busy =>
      exact ⟨none, .of_still rfl rfl fun _ _ => (step_quit_iff _ _).mpr ⟨message, busy, rfl⟩⟩
  | popped element message rest free created watch queue =>
      have waits : (server.playbin element).queue.head? = some message := by rw [queue]; rfl
      refine ⟨some (.pop element message), rfl, ?_, fun main player after happens => ?_⟩
      · exact congrArg (Option.map _) (if_pos ⟨created, watch, waits⟩)
      · obtain ⟨gst, popped, rfl⟩ := Option.map_eq_some_iff.mp happens
        obtain ⟨⟨created, watch, waits⟩, ⟨⟩⟩ := Option.ite_none_right_eq_some.mp popped
        obtain ⟨rest, queue⟩ := List.head?_eq_some_iff.mp waits
        exact (step_pop_iff _ _ _).mpr ⟨⟨free, created, watch⟩, message, rest, queue, rfl⟩
  | served request free skeleton registered =>
      simp only [Server.direct, registered, Bool.not_true, Bool.false_eq_true] at direct
  | begun position free installed registered =>
      simp only [Server.direct, registered, Bool.not_true, Bool.false_eq_true] at direct
  | ended => cases direct
  | _ => cases own

/-- What the dispatcher does with a result depends on where it is, not on main or the player. -/
theorem resume_dispatcher (server next : Server) (result : MediaPlayer.Returned)
    (dispatcher : next.dispatcher = server.dispatcher) (signals : next.signals = server.signals)
    (skeleton : next.handshake.mMediaplayerInterface = server.handshake.mMediaplayerInterface) :
    ∃ later told, server.resume result .dispatcher =
        { server with dispatcher := later, signals := told } ∧
      next.resume result .dispatcher = { next with dispatcher := later, signals := told } := by
  cases result with
  | bool value =>
      refine ⟨server.dispatcher, server.signals, rfl, ?_⟩
      rw [← dispatcher, ← signals]
      rfl
  | seconds value =>
      have progress : ∀ position,
          next.progress position value = server.progress position value := by
        intro position
        unfold progress emit
        rw [signals, skeleton]
      cases now : server.dispatcher with
      | ticking position =>
          refine ⟨.idle, server.progress position value, ?_, ?_⟩
          · simp only [resume, now]
          · simp only [resume, dispatcher, now, progress]
      | _ =>
          refine ⟨.ticking value, server.signals, ?_, ?_⟩
          · simp only [resume, now]
          · simp only [resume, dispatcher, now, ← signals]

theorem settled_player (server : Server) (main dispatcher : Option MediaPlayer.Returned)
    (player : MediaPlayer) :
    { server with player := player }.settled main dispatcher =
      { server.settled main dispatcher with player := player } := by
  have told : ∀ (server : Server) result,
      { server with player := player }.resume result .dispatcher =
        { server.resume result .dispatcher with player := player } := by
    intro server result
    obtain ⟨later, told, here, there⟩ :=
      resume_dispatcher server { server with player := player } result rfl rfl rfl
    rw [here, there]
  cases main with
  | none =>
      cases dispatcher with
      | none => rfl
      | some result => exact told server result
  | some other =>
      cases dispatcher with
      | none => rfl
      | some result => exact told (server.resume other .main) result

theorem settled_dispatcher (server next : Server) (dispatcher : Option MediaPlayer.Returned)
    (same : next.dispatcher = server.dispatcher) (signals : next.signals = server.signals)
    (skeleton : next.handshake.mMediaplayerInterface = server.handshake.mMediaplayerInterface) :
    ∃ later told, server.settled none dispatcher =
        { server with dispatcher := later, signals := told } ∧
      next.settled none dispatcher = { next with dispatcher := later, signals := told } := by
  cases dispatcher with
  | none =>
      refine ⟨server.dispatcher, server.signals, rfl, ?_⟩
      rw [← same, ← signals]
      rfl
  | some result => exact resume_dispatcher server next result same signals skeleton

theorem settled_main (server next : Server) (main : Option MediaPlayer.Returned)
    (same : next.main = server.main) :
    ∃ later, server.settled main none = { server with main := later } ∧
      next.settled main none = { next with main := later } := by
  cases main with
  | none =>
      refine ⟨server.main, rfl, ?_⟩
      rw [← same]
      rfl
  | some result =>
      refine ⟨server.main.afterCall, rfl, ?_⟩
      rw [← same]
      rfl

/-- A direct step is the same step once the other threads have gone on. -/
theorem step_settled (server next : Server) (action : Action)
    (direct : server.direct action = true) (stepped : step server action = some next) :
    ∃ change, Moved change server.player next.player ∧
      ∀ main dispatcher, (action.thread = some .main → main = none) →
        (action.thread = some .dispatcher → dispatcher = none) →
          ∀ player after, Moved change player after →
            step { server.settled main dispatcher with player := player } action =
              some { next.settled main dispatcher with player := after } := by
  match thread : action.thread with
  | none =>
      cases stepped_of_step server next action stepped with
      | posted element type created opened =>
          refine ⟨some (.post element type), ?_, fun main dispatcher _ _ player after happens => ?_⟩
          · exact congrArg (Option.map _) (if_pos ⟨created, opened⟩)
          · obtain ⟨gst, posted, rfl⟩ := Option.map_eq_some_iff.mp happens
            obtain ⟨guards, ⟨⟩⟩ := Option.ite_none_right_eq_some.mp posted
            rw [settled_player server main dispatcher
              { server.player with gst := server.gst.post element type }]
            exact (step_post_iff _ _ _ _).mpr ⟨guards, rfl⟩
      | _ => cases thread
  | some .main =>
      have own := direct_of_main server next action direct thread stepped
      refine ⟨none, own.player, fun main dispatcher still _ player after same => ?_⟩
      cases still rfl
      rw [show after = player from same]
      obtain ⟨later, told, here, there⟩ :=
        settled_dispatcher server next dispatcher own.dispatcher own.signals own.skeleton
      rw [here, there]
      exact own.anywhere later told player
  | some .dispatcher =>
      obtain ⟨change, other⟩ := direct_of_dispatcher server next action direct thread stepped
      refine ⟨change, other.player, fun main dispatcher _ still player after happens => ?_⟩
      cases still rfl
      obtain ⟨later, here, there⟩ := settled_main server next main other.main
      rw [here, there]
      exact other.anywhere later player after happens

theorem resume_player (server : Server) (result : MediaPlayer.Returned) (thread : Thread)
    (player : MediaPlayer) :
    { server with player := player }.resume result thread =
      { server.resume result thread with player := player } := by
  cases thread with
  | main => rfl
  | dispatcher => exact settled_player server none (some result) player

theorem resume_keeps (server : Server) (result : MediaPlayer.Returned) (thread : Thread) :
    (server.resume result thread).player = server.player := by
  cases thread with
  | main => rfl
  | dispatcher =>
      obtain ⟨later, told, here, -⟩ := resume_dispatcher server server result rfl rfl rfl
      rw [here]

/-- The threads go on independently. -/
theorem resume_comm (server : Server) (first second : MediaPlayer.Returned) :
    (server.resume first .dispatcher).resume second .main =
      (server.resume second .main).resume first .dispatcher := by
  obtain ⟨later, told, here, there⟩ :=
    resume_dispatcher server (server.resume second .main) first rfl rfl rfl
  rw [here, there]
  rfl

theorem calls_of_main (server next : Server) (method : MediaPlayer.Method)
    (same : next.main = server.main) :
    next.calls .main method = server.calls .main method := by
  cases method with
  | setup made ready => simp only [Server.calls, same]
  | serve request => cases request <;> simp only [Server.calls, same]
  | teardown => simp only [Server.calls, same]
  | getPosition position => rfl
  | getDuration duration => rfl

/-- The dispatcher stays at its call while main installs the timer or registers the player. -/
theorem calls_of_dispatcher (server next : Server) (action : Action) (method : MediaPlayer.Method)
    (own : OfMain server next action) (calls : server.calls .dispatcher method = true) :
    next.calls .dispatcher method = true := by
  have free : server.free → next.free := fun free =>
    ⟨own.dispatcher.trans free.1, own.callback.trans free.2⟩
  cases method with
  | setup made ready => cases calls
  | teardown => cases calls
  | serve request =>
      simp only [Server.calls, Bool.and_eq_true, decide_eq_true_eq] at calls ⊢
      exact ⟨⟨free calls.1.1, own.skeleton.trans calls.1.2⟩, own.registered calls.2⟩
  | getPosition position =>
      simp only [Server.calls, Bool.and_eq_true, decide_eq_true_eq] at calls ⊢
      exact ⟨⟨free calls.1.1, own.timer calls.1.2⟩, own.registered calls.2⟩
  | getDuration duration =>
      simp only [Server.calls, own.dispatcher] at calls ⊢
      exact calls

theorem calls_player (server : Server) (player : MediaPlayer) (thread : Thread)
    (method : MediaPlayer.Method) :
    { server with player := player }.calls thread method = server.calls thread method := by
  cases thread with
  | main => exact calls_of_main server _ method rfl
  | dispatcher => cases method <;> rfl

/-- No other thread's direct step takes a thread away from its call. -/
theorem calls_direct (server next : Server) (action : Action) (thread : Thread)
    (method : MediaPlayer.Method) (direct : server.direct action = true)
    (stepped : step server action = some next) (other : action.thread ≠ some thread)
    (calls : server.calls thread method = true) : next.calls thread method = true := by
  match taken : action.thread with
  | none =>
      cases stepped_of_step server next action stepped with
      | posted element type created opened =>
          rw [calls_player server { server.player with gst := server.gst.post element type }]
          exact calls
      | _ => cases taken
  | some .main =>
      cases thread with
      | main => exact absurd taken other
      | dispatcher =>
          have own := direct_of_main server next action direct taken stepped
          exact calls_of_dispatcher server next action method own calls
  | some .dispatcher =>
      cases thread with
      | dispatcher => exact absurd taken other
      | main =>
          obtain ⟨change, own⟩ := direct_of_dispatcher server next action direct taken stepped
          rw [calls_of_main server next method own.main]
          exact calls

theorem calls_resume (server : Server) (result : MediaPlayer.Returned) (thread other : Thread)
    (method : MediaPlayer.Method) (differ : thread ≠ other) :
    (server.resume result other).calls thread method = server.calls thread method := by
  cases thread with
  | main =>
      cases other with
      | main => exact absurd rfl differ
      | dispatcher =>
          refine calls_of_main server _ method ?_
          obtain ⟨later, told, here, -⟩ := resume_dispatcher server server result rfl rfl rfl
          rw [here]
  | dispatcher =>
      cases other with
      | dispatcher => exact absurd rfl differ
      | main => cases method <;> rfl

end Server

namespace ThreadedServer

/-- The result that a thread is about to go on with. -/
def pending : Phase MediaPlayer MediaPlayer.Method MediaPlayer.Returned →
    Option MediaPlayer.Returned
  | .leaving result => some result
  | .returning result => some result
  | _ => none

/-- The method that a thread has called and that has not taken effect. -/
def asked : Phase MediaPlayer MediaPlayer.Method MediaPlayer.Returned → Option MediaPlayer.Method
  | .waiting method => some method
  | .inside method _ => some method
  | _ => none

def settled (self : ThreadedServer) : Server :=
  self.server.settled (pending (self.lock.phase .main)) (pending (self.lock.phase .dispatcher))

abbrev Stands (lock : PlayerLock)
    (before : MediaPlayer) : Prop :=
  lock.Stands MediaPlayer.background MediaPlayerLock.view MediaPlayer.call before

/-- The server with its methods made at once is there, too: with calls that have taken effect
done, and without what the holder of the lock has done so far. -/
def Shows (self : ThreadedServer) (server : Server) : Prop :=
  ∃ before, Stands self.lock before ∧ server = { self.settled with player := before }

/-- A thread that has called a method is at its call. -/
structure Coherent (threaded : ThreadedServer) : Prop where
  player : threaded.server.player = threaded.lock.object
  explained : Explained MediaPlayer.background MediaPlayerLock.view MediaPlayer.call
    MediaPlayer.initial threaded.lock
  called : ∀ thread method, asked (threaded.lock.phase thread) = some method →
    threaded.server.calls thread method = true

theorem pending_enter (lock : PlayerLock)
    (thread : Thread) (phase : Phase MediaPlayer MediaPlayer.Method MediaPlayer.Returned)
    (same : pending phase = pending (lock.phase thread)) (other : Thread) :
    pending ((lock.enter thread phase).phase other) = pending (lock.phase other) :=
  forall_enter (fun other phase => pending phase = pending (lock.phase other)) lock thread phase
    (fun _ _ => rfl) same other

/-- A move that only concerns the lock and the player does not show. -/
theorem shows_of_pending (self : ThreadedServer)
    (lock : PlayerLock)
    (before : MediaPlayer) (stands : Stands lock before)
    (same : ∀ thread, pending (lock.phase thread) = pending (self.lock.phase thread)) :
    Shows ⟨{ self.server with player := lock.object }, lock⟩
      { self.settled with player := before } := by
  refine ⟨before, stands, ?_⟩
  unfold settled
  dsimp only
  rw [same, same, Server.settled_player self.server _ _ lock.object]

theorem pending_idle (self : ThreadedServer) (thread : Thread) (rests : self.idle thread = true) :
    pending (self.lock.phase thread) = none := by
  unfold idle at rests
  split at rests
  · rename_i idle
    rw [idle]
    rfl
  · cases rests

/-- A direct step takes place in the server it shows, too. -/
theorem direct_shows (self : ThreadedServer) (action : Server.Action) (server : Server)
    (before : MediaPlayer) (coherent : self.Coherent) (stands : Stands self.lock before)
    (direct : self.server.direct action = true)
    (rests : ∀ thread, action.thread = some thread → self.idle thread = true)
    (stepped : self.server.step action = some server) :
    ∃ after, Server.step { self.settled with player := before } action = some after ∧
      Shows ⟨server, { self.lock with object := server.player }⟩ after := by
  obtain ⟨change, moved, anywhere⟩ := self.server.step_settled server action direct stepped
  obtain ⟨after, happened, here⟩ : ∃ after, Server.Moved change before after ∧
      Stands { self.lock with object := server.player } after := by
    rw [coherent.player] at moved
    cases change with
    | none =>
        refine ⟨before, rfl, ?_⟩
        rw [show server.player = self.lock.object from moved]
        exact stands
    | some change => exact changed_stands stands MediaPlayerLock.reducible change moved
  refine ⟨_, anywhere _ _ ?_ ?_ before after happened, after, here, rfl⟩
  · exact fun own => self.pending_idle .main (rests .main own)
  · exact fun own => self.pending_idle .dispatcher (rests .dispatcher own)

/-- At its call a thread has no result yet, and the other's does not matter to it. -/
theorem calls_settled (self : ThreadedServer) (thread : Thread) (method : MediaPlayer.Method)
    (calls : self.server.calls thread method = true)
    (waits : pending (self.lock.phase thread) = none) :
    self.settled.calls thread method = true := by
  unfold settled
  cases thread with
  | main =>
      rw [waits]
      cases pending (self.lock.phase .dispatcher) with
      | none => exact calls
      | some result =>
          exact (self.server.calls_resume result .main .dispatcher method nofun).trans calls
  | dispatcher =>
      rw [waits]
      cases pending (self.lock.phase .main) with
      | none => exact calls
      | some result =>
          exact (self.server.calls_resume result .dispatcher .main method nofun).trans calls

/-- Where a call takes effect, its thread's result is the next one to go on with. -/
theorem settled_ended (self : ThreadedServer) (thread : Thread) (result : MediaPlayer.Returned)
    (lock : PlayerLock)
    (waits : pending (self.lock.phase thread) = none)
    (own : pending (lock.phase thread) = some result)
    (others : ∀ other, other ≠ thread →
      pending (lock.phase other) = pending (self.lock.phase other)) :
    settled ⟨self.server, lock⟩ = self.settled.resume result thread := by
  unfold settled
  dsimp only
  cases thread with
  | main =>
      rw [own, waits, others .dispatcher nofun]
      cases pending (self.lock.phase .dispatcher) with
      | none => rfl
      | some other => exact (self.server.resume_comm other result).symm
  | dispatcher =>
      rw [own, waits, others .main nofun]
      rfl

/-- Everything a step can do: a direct step of the server, a move inside a method, or a return. -/
inductive Stepped (self : ThreadedServer) : ThreadedServer → Prop
  | direct (action : Server.Action) (server : Server) (direct : self.server.direct action = true)
      (rests : ∀ thread, action.thread = some thread → self.idle thread = true)
      (taken : self.server.step action = some server) :
      Stepped self ⟨server, { self.lock with object := server.player }⟩
  | moved (move : Move MediaPlayer.Method Background Thread)
      (lock : PlayerLock)
      (calls : ∀ thread method, move = .call thread method →
        self.server.calls thread method = true)
      (stays : ∀ thread, move ≠ .finish thread) (own : ∀ change, move ≠ .change change)
      (taken : self.lock.step MediaPlayerLock.body MediaPlayer.background move = some lock) :
      Stepped self ⟨{ self.server with player := lock.object }, lock⟩
  | finished (thread : Thread) (result : MediaPlayer.Returned)
      (lock : PlayerLock)
      (returns : self.lock.phase thread = .returning result)
      (taken : self.lock.step MediaPlayerLock.body MediaPlayer.background (.finish thread) =
        some lock) :
      Stepped self ⟨{ self.server with player := lock.object }.resume result thread, lock⟩

theorem stepped_of_step (self next : ThreadedServer) (action : Action)
    (stepped : self.step action = some next) : Stepped self next := by
  cases action with
  | direct action =>
      obtain ⟨⟨direct, rests⟩, moved⟩ := Option.ite_none_right_eq_some.mp stepped
      obtain ⟨server, taken, rfl⟩ := Option.map_eq_some_iff.mp moved
      exact .direct action server direct rests taken
  | call thread method =>
      obtain ⟨calls, moved⟩ := Option.ite_none_right_eq_some.mp stepped
      obtain ⟨lock, taken, rfl⟩ := Option.map_eq_some_iff.mp moved
      refine .moved (.call thread method) lock (fun _ _ same => ?_) nofun nofun taken
      cases same
      exact calls
  | lock thread =>
      obtain ⟨lock, taken, rfl⟩ := Option.map_eq_some_iff.mp stepped
      exact .moved (.lock thread) lock nofun nofun nofun taken
  | execute thread =>
      obtain ⟨lock, taken, rfl⟩ := Option.map_eq_some_iff.mp stepped
      exact .moved (.execute thread) lock nofun nofun nofun taken
  | unlock thread =>
      obtain ⟨lock, taken, rfl⟩ := Option.map_eq_some_iff.mp stepped
      exact .moved (.unlock thread) lock nofun nofun nofun taken
  | finish thread =>
      dsimp only [step] at stepped
      split at stepped
      · rename_i result returns
        obtain ⟨middle, moved, rfl⟩ := Option.map_eq_some_iff.mp stepped
        obtain ⟨lock, taken, rfl⟩ := Option.map_eq_some_iff.mp moved
        exact .finished thread result lock returns taken
      · cases stepped

/-- A return is what the server shown has gone on with already. -/
theorem settled_finished (self : ThreadedServer) (thread : Thread) (result : MediaPlayer.Returned)
    (lock : PlayerLock)
    (returns : pending (self.lock.phase thread) = some result)
    (own : pending (lock.phase thread) = none)
    (others : ∀ other, other ≠ thread →
      pending (lock.phase other) = pending (self.lock.phase other)) :
    settled ⟨self.server.resume result thread, lock⟩ = self.settled := by
  unfold settled
  dsimp only
  cases thread with
  | main =>
      rw [own, returns, others .dispatcher nofun]
      rfl
  | dispatcher =>
      rw [own, returns, others .main nofun]
      cases pending (self.lock.phase .main) with
      | none => rfl
      | some other => exact self.server.resume_comm result other

/-- Executing the last statement of a method is the step in which it is made at once. -/
theorem ended_shows (self : ThreadedServer) (thread : Thread) (method : MediaPlayer.Method)
    (defined : MediaPlayer → Prop)
    (effect : MediaPlayer → MediaPlayer × MediaPlayer.Returned) (before : MediaPlayer)
    (log : List (LogEntry (Thread × Nat) MediaPlayer.Method MediaPlayer.Returned))
    (coherent : self.Coherent) (stands : Stands self.lock before)
    (runs : self.lock.phase thread = .inside method (.last defined effect)) :
    ∃ action after, Server.step { self.settled with player := before } action = some after ∧
      Shows ⟨{ self.server with player := (effect self.lock.object).1 },
        { self.lock.enter thread (.leaving (effect self.lock.object).2) with
          object := (effect self.lock.object).1, log := log }⟩ after := by
  obtain ⟨same, here⟩ :=
    ended_stands coherent.explained stands thread method defined effect log runs
  have waits : pending (self.lock.phase thread) = none := congrArg pending runs
  have calls := calls_settled self thread method
    (coherent.called thread method (congrArg asked runs)) waits
  rw [← Server.calls_player self.settled before] at calls
  obtain ⟨action, taken⟩ := Server.step_of_calls _ thread method calls
  refine ⟨action, _, taken, _, here, ?_⟩
  have settled := settled_ended self thread (effect self.lock.object).2
    { self.lock.enter thread (.leaving (effect self.lock.object).2) with
      object := (effect self.lock.object).1, log := log } waits
    (congrArg pending (Function.update_self thread _ self.lock.phase))
    (fun other differ => congrArg pending (Function.update_of_ne differ _ self.lock.phase))
  unfold ThreadedServer.settled at settled ⊢
  dsimp only at settled ⊢
  rw [Server.settled_player self.server _ _ (effect self.lock.object).1, settled,
    Server.resume_player _ _ thread before, same]

theorem finished_settled (self : ThreadedServer) (thread : Thread) (result : MediaPlayer.Returned)
    (returns : pending (self.lock.phase thread) = some result)
    (serial : Thread → Nat)
    (log : List (LogEntry (Thread × Nat) MediaPlayer.Method MediaPlayer.Returned)) :
    settled ⟨{ self.server with player := self.lock.object }.resume result thread,
        { self.lock.enter thread .idle with serial := serial, log := log }⟩ =
      { self.settled with player := self.lock.object } := by
  have settled := settled_finished self thread result
    { self.lock.enter thread .idle with serial := serial, log := log } returns
    (congrArg pending (Function.update_self thread _ self.lock.phase))
    (fun other differ => congrArg pending (Function.update_of_ne differ _ self.lock.phase))
  unfold ThreadedServer.settled at settled ⊢
  dsimp only at settled ⊢
  rw [Server.resume_player self.server _ _ self.lock.object,
    Server.settled_player (self.server.resume result thread) _ _ self.lock.object, settled]

theorem step_shows (self next : ThreadedServer) (action : Action) (server : Server)
    (coherent : self.Coherent) (shows : self.Shows server)
    (stepped : self.step action = some next) :
    next.Shows server ∨ ∃ action after, Server.step server action = some after ∧
      next.Shows after := by
  obtain ⟨before, stands, rfl⟩ := shows
  have explained := coherent.explained
  cases stepped_of_step self next action stepped with
  | direct action server direct rests taken =>
      exact Or.inr ⟨action, direct_shows self action server before coherent stands direct rests
        taken⟩
  | moved move lock calls stays own taken =>
      cases moved_of_step _ _ _ _ _ taken with
      | called thread method free =>
          refine Or.inl (shows_of_pending self _ before ?_ ?_)
          · exact outside_stands explained stands thread _ _ _ (congrArg Phase.holds free)
          · exact pending_enter _ _ _ (congrArg pending free).symm
      | locked thread method waits free =>
          refine Or.inl (shows_of_pending self _ before ?_ ?_)
          · exact locked_stands stands MediaPlayerLock.reducible thread method free
          · exact pending_enter _ _ _ (congrArg pending waits).symm
      | stepped thread method defined effect rest runs =>
          refine Or.inl (shows_of_pending self _ before ?_ ?_)
          · exact executed_stands explained stands thread method defined effect rest runs
          · exact pending_enter _ _ _ (congrArg pending runs).symm
      | ended thread method defined effect runs =>
          exact Or.inr (ended_shows self thread method defined effect before _ coherent stands runs)
      | unlocked thread result leaves =>
          refine Or.inl (shows_of_pending self _ before ?_ ?_)
          · exact unlocked_stands explained stands thread result leaves
          · exact pending_enter _ _ _ (congrArg pending leaves).symm
      | finished thread result returns => exact absurd rfl (stays thread)
      | changed change => exact absurd rfl (own change)
  | finished thread result lock returns taken =>
      cases moved_of_step _ _ _ _ _ taken with
      | finished _ _ leaves =>
          refine Or.inl ⟨before, ?_, ?_⟩
          · exact outside_stands explained stands thread _ _ _ (congrArg Phase.holds leaves)
          · exact (congrArg (fun server : Server => { server with player := before })
              (finished_settled self thread result (congrArg pending returns) _ _)).symm

theorem initial_coherent : initial.Coherent where
  player := rfl
  explained := explained_initial _ _ _ _
  called := fun _ _ => nofun

/-- The player changes in a direct step only as it may between any two statements. -/
theorem direct_explained (self : ThreadedServer) (action : Server.Action) (server : Server)
    (coherent : self.Coherent) (direct : self.server.direct action = true)
    (taken : self.server.step action = some server) :
    Explained MediaPlayer.background MediaPlayerLock.view MediaPlayer.call MediaPlayer.initial
      { self.lock with object := server.player } := by
  obtain ⟨change, moved, -⟩ := self.server.step_settled server action direct taken
  rw [coherent.player] at moved
  cases change with
  | none =>
      rw [show server.player = self.lock.object from moved]
      exact coherent.explained
  | some change =>
      have happens := step_of_moved MediaPlayerLock.body MediaPlayer.background self.lock _ _
        (.changed change server.player moved)
      exact step_explained coherent.explained happens MediaPlayerLock.reducible

theorem idle_asked (self : ThreadedServer) (thread : Thread) (rests : self.idle thread = true) :
    asked (self.lock.phase thread) = none := by
  unfold idle at rests
  split at rests
  · rename_i idle
    rw [idle]
    rfl
  · cases rests

theorem called_enter (self : ThreadedServer) (coherent : self.Coherent) (own : Thread)
    (phase : Phase MediaPlayer MediaPlayer.Method MediaPlayer.Returned)
    (here : ∀ method, asked phase = some method → self.server.calls own method = true)
    (thread : Thread) (method : MediaPlayer.Method)
    (called : asked ((self.lock.enter own phase).phase thread) = some method) :
    self.server.calls thread method = true :=
  forall_enter (fun thread phase => ∀ method, asked phase = some method →
      self.server.calls thread method = true)
    self.lock own phase (fun other _ => coherent.called other) here thread method called

/-- Inside its method a thread stays at the call of it. -/
theorem moved_called (self : ThreadedServer)
    (move : Move MediaPlayer.Method Background Thread) (lock : PlayerLock)
    (coherent : self.Coherent)
    (calls : ∀ thread method, move = .call thread method →
      self.server.calls thread method = true)
    (taken : self.lock.step MediaPlayerLock.body MediaPlayer.background move = some lock)
    (thread : Thread) (method : MediaPlayer.Method)
    (called : asked (lock.phase thread) = some method) :
    self.server.calls thread method = true := by
  cases moved_of_step _ _ _ _ _ taken with
  | called own op free =>
      refine called_enter self coherent own _ (fun method same => ?_) thread method called
      cases same
      exact calls own op rfl
  | locked own op waits free =>
      refine called_enter self coherent own _ (fun method same => ?_) thread method called
      exact coherent.called own method ((congrArg asked waits).trans same)
  | stepped own op defined effect rest runs =>
      refine called_enter self coherent own _ (fun method same => ?_) thread method called
      exact coherent.called own method ((congrArg asked runs).trans same)
  | ended own op defined effect runs =>
      refine called_enter self coherent own _ (fun method same => ?_) thread method called
      cases same
  | unlocked own result leaves =>
      refine called_enter self coherent own _ (fun method same => ?_) thread method called
      cases same
  | finished own result returns =>
      refine called_enter self coherent own _ (fun method same => ?_) thread method called
      cases same
  | changed change object happens => exact coherent.called thread method called

theorem step_coherent (self next : ThreadedServer) (action : Action) (coherent : self.Coherent)
    (stepped : self.step action = some next) : next.Coherent := by
  cases stepped_of_step self next action stepped with
  | direct action server direct rests taken =>
      refine ⟨rfl, direct_explained self action server coherent direct taken, ?_⟩
      intro thread method called
      refine self.server.calls_direct server action thread method direct taken ?_
        (coherent.called thread method called)
      intro own
      rw [idle_asked self thread (rests thread own)] at called
      cases called
  | moved move lock calls stays own taken =>
      refine ⟨rfl, step_explained coherent.explained taken MediaPlayerLock.reducible, ?_⟩
      intro thread method called
      rw [Server.calls_player self.server lock.object]
      exact moved_called self move lock coherent calls taken thread method called
  | finished thread result lock returns taken =>
      refine ⟨Server.resume_keeps _ result thread,
        step_explained coherent.explained taken MediaPlayerLock.reducible, ?_⟩
      intro other method called
      cases moved_of_step _ _ _ _ _ taken with
      | finished _ _ leaves =>
          by_cases own : other = thread
          · subst own
            dsimp only [System.enter] at called
            rw [Function.update_self] at called
            cases called
          · rw [Server.calls_resume _ _ _ _ _ own, Server.calls_player self.server]
            dsimp only [System.enter] at called
            rw [Function.update_of_ne own] at called
            exact coherent.called other method called

/-- Nothing is hidden while neither thread is in a method. -/
theorem shows_idle (self : ThreadedServer) (server : Server) (coherent : self.Coherent)
    (shows : self.Shows server) (idle : ∀ thread, self.idle thread = true) :
    server = self.server := by
  obtain ⟨before, stands, rfl⟩ := shows
  have free : self.lock.holder = none := by
    cases holder : self.lock.holder with
    | none => rfl
    | some thread =>
        have holds := (coherent.explained.held thread).mp holder
        have rests := idle thread
        unfold ThreadedServer.idle at rests
        split at rests
        · rename_i phase
          rw [phase] at holds
          cases holds
        · cases rests
  have same : self.lock.object = before := by
    unfold Stands System.Stands at stands
    rw [free] at stands
    exact stands
  unfold settled
  rw [self.pending_idle .main (idle .main), self.pending_idle .dispatcher (idle .dispatcher),
    ← same, ← coherent.player]
  rfl

theorem initial_shows : initial.Shows Server.initial :=
  ⟨MediaPlayer.initial, rfl, rfl⟩

/-- Step for step, what the threads do to each other's statements is what the server does. -/
theorem run_shows (actions : List Action) (threaded : ThreadedServer)
    (reached : run step initial actions = some threaded) :
    threaded.Coherent ∧ ∃ steps server, run Server.step Server.initial steps = some server ∧
      threaded.Shows server := by
  have keeps : ∀ current action next, (Coherent current ∧ ∃ steps server,
      run Server.step Server.initial steps = some server ∧ current.Shows server) →
      step current action = some next → Coherent next ∧ ∃ steps server,
        run Server.step Server.initial steps = some server ∧ next.Shows server := by
    rintro current action next ⟨coherent, steps, server, ran, shows⟩ stepped
    refine ⟨step_coherent current next action coherent stepped, ?_⟩
    rcases step_shows current next action server coherent shows stepped with
      same | ⟨further, after, taken, onward⟩
    · exact ⟨steps, server, ran, same⟩
    · exact ⟨steps ++ [further], after, (run_snoc_iff _ _ _ _ _).mpr ⟨server, ran, taken⟩, onward⟩
  exact run_invariant_of_step keeps
    ⟨initial_coherent, [], Server.initial, rfl, initial_shows⟩ reached

end ThreadedServer

end MediaplayerServer
