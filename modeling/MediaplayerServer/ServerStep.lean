import MediaplayerServer.MediaPlayerFacts
import MediaplayerServer.Server

set_option autoImplicit false

namespace MediaplayerServer.Server

theorem step_startup_iff (server next : Server) (action : Handshake.Action) :
    step server (.startup action) = some next ↔
      (action.begins = true → server.free) ∧
        ∃ handshake, Handshake.step server.handshake action = some handshake ∧
          { server with
            handshake := handshake
            timer := server.timer || decide (action = .addTimer) } = next := by
  simp only [step, Option.ite_none_right_eq_some, Option.map_eq_some_iff]

theorem step_construct_iff (server next : Server) :
    step server .construct = some next ↔
      (server.main = .init ∧ server.handshake.init = .returned) ∧
        { server with main := .setup, mMediaPlayer := true } = next := by
  simp only [step, Option.ite_none_right_eq_some, Option.some.injEq]

theorem step_setup_iff (server next : Server) (made : Bool) (ready : StateChange) :
    step server (.setup made ready) = some next ↔
      server.main = .setup ∧
        { server with main := .enterLoop, player := (server.player.setup made ready).1 } =
          next := by
  simp only [step, Option.ite_none_right_eq_some, Option.some.injEq]

theorem step_enterLoop_iff (server next : Server) :
    step server .enterLoop = some next ↔
      server.main = .enterLoop ∧
        { server with main := .inLoop, loop := GMainLoop.run } = next := by
  simp only [step, Option.ite_none_right_eq_some, Option.some.injEq]

theorem step_leaveLoop_iff (server next : Server) :
    step server .leaveLoop = some next ↔
      (server.main = .inLoop ∧ server.loop.running = false) ∧
        { server with main := .stop } = next := by
  simp only [step, Option.ite_none_right_eq_some, Option.some.injEq]

theorem step_stop_iff (server next : Server) (change : StateChange) :
    step server (.stop change) = some next ↔
      server.main = .stop ∧
        { server with main := .teardown, player := (server.player.stop change).1 } = next := by
  simp only [step, Option.ite_none_right_eq_some, Option.some.injEq]

theorem step_teardown_iff (server next : Server) :
    step server .teardown = some next ↔
      server.main = .teardown ∧
        { server with main := .setup, player := server.player.teardown.1 } = next := by
  simp only [step, Option.ite_none_right_eq_some, Option.some.injEq]

/-- An unregistered player leaves a request without effect. -/
theorem step_request_iff (server next : Server) (request : Request) :
    step server (.request request) = some next ↔
      (server.free ∧ server.handshake.mMediaplayerInterface = true) ∧
        (server.mMediaPlayer = true ∧
            { server with player := (server.player.serve request).1 } = next ∨
          server.mMediaPlayer = false ∧ server = next) := by
  simp only [step, Option.ite_none_right_eq_some]
  cases server.mMediaPlayer <;> simp

/-- Without a registered player updateProgress returns FALSE, which removes its source. -/
theorem step_tickPosition_iff (server next : Server) (position : Option Int) :
    step server (.tickPosition position) = some next ↔
      (server.free ∧ server.timer = true) ∧
        (server.mMediaPlayer = true ∧
            { server with dispatcher := .ticking (server.player.getPosition position) } = next ∨
          server.mMediaPlayer = false ∧ { server with timer := false } = next) := by
  simp only [step, Option.ite_none_right_eq_some]
  cases server.mMediaPlayer <;> simp

theorem step_tickDuration_iff (server next : Server) (duration : Option Int) :
    step server (.tickDuration duration) = some next ↔
      ∃ position, server.dispatcher = .ticking position ∧
        { server with
          dispatcher := .idle
          signals := server.progress position (server.player.getDuration duration) } = next := by
  simp only [step]
  cases server.dispatcher <;> simp

theorem step_pop_iff (server next : Server) (element : Nat) :
    step server (.pop element) = some next ↔
      (server.free ∧ element < server.gst.created ∧ (server.playbin element).watch = true) ∧
        ∃ message rest, (server.playbin element).queue = message :: rest ∧
          { server with
            player := { server.player with gst := server.gst.pop element }
            dispatcher := if message.type.ends then .notifying message else .idle } = next := by
  simp only [step, Option.ite_none_right_eq_some]
  cases (server.playbin element).queue <;> simp

theorem step_notify_iff (server next : Server) :
    step server .notify = some next ↔
      ∃ message, server.dispatcher = .notifying message ∧
        { server with
          dispatcher := .quitting message
          signals := server.notification message } = next := by
  simp only [step]
  cases server.dispatcher <;> simp

theorem step_quit_iff (server next : Server) :
    step server .quit = some next ↔
      ∃ message, server.dispatcher = .quitting message ∧
        { server with
          dispatcher := .idle
          loop := server.loop.quit message
          handled := message :: server.handled } = next := by
  simp only [step]
  cases server.dispatcher <;> simp

theorem step_post_iff (server next : Server) (element : Nat) (type : GstMessageType) :
    step server (.post element type) = some next ↔
      (element < server.gst.created ∧ (server.playbin element).flushing = false) ∧
        { server with
          player := { server.player with gst := server.gst.post element type } } = next := by
  simp only [step, Option.ite_none_right_eq_some, Option.some.injEq]

/-- Everything a step can do, with the guards it has passed. -/
inductive Stepped (server : Server) : Action → Server → Prop
  | startup (inner : Handshake.Action) (handshake : Handshake.State)
      (begins : inner.begins = true → server.free)
      (moved : Handshake.step server.handshake inner = some handshake) :
      Stepped server (.startup inner)
        { server with
          handshake := handshake
          timer := server.timer || decide (inner = .addTimer) }
  | construct (main : server.main = .init) (returned : server.handshake.init = .returned) :
      Stepped server .construct { server with main := .setup, mMediaPlayer := true }
  | setup (made : Bool) (ready : StateChange) (main : server.main = .setup) :
      Stepped server (.setup made ready)
        { server with main := .enterLoop, player := (server.player.setup made ready).1 }
  | enterLoop (main : server.main = .enterLoop) :
      Stepped server .enterLoop { server with main := .inLoop, loop := GMainLoop.run }
  | leaveLoop (main : server.main = .inLoop) (quit : server.loop.running = false) :
      Stepped server .leaveLoop { server with main := .stop }
  | stop (change : StateChange) (main : server.main = .stop) :
      Stepped server (.stop change)
        { server with main := .teardown, player := (server.player.stop change).1 }
  | teardown (main : server.main = .teardown) :
      Stepped server .teardown { server with main := .setup, player := server.player.teardown.1 }
  | served (request : Request) (free : server.free)
      (skeleton : server.handshake.mMediaplayerInterface = true)
      (registered : server.mMediaPlayer = true) :
      Stepped server (.request request)
        { server with player := (server.player.serve request).1 }
  | unserved (request : Request) (free : server.free)
      (skeleton : server.handshake.mMediaplayerInterface = true)
      (unregistered : server.mMediaPlayer = false) : Stepped server (.request request) server
  | begun (position : Option Int) (free : server.free) (installed : server.timer = true)
      (registered : server.mMediaPlayer = true) :
      Stepped server (.tickPosition position)
        { server with dispatcher := .ticking (server.player.getPosition position) }
  | removed (position : Option Int) (free : server.free) (installed : server.timer = true)
      (unregistered : server.mMediaPlayer = false) :
      Stepped server (.tickPosition position) { server with timer := false }
  | ended (duration : Option Int) (read : Int) (ticking : server.dispatcher = .ticking read) :
      Stepped server (.tickDuration duration)
        { server with
          dispatcher := .idle
          signals := server.progress read (server.player.getDuration duration) }
  | popped (element : Nat) (message : GstMessage) (rest : List GstMessage) (free : server.free)
      (created : element < server.gst.created)
      (watch : (server.playbin element).watch = true)
      (queue : (server.playbin element).queue = message :: rest) :
      Stepped server (.pop element)
        { server with
          player := { server.player with gst := server.gst.pop element }
          dispatcher := if message.type.ends then .notifying message else .idle }
  | notified (message : GstMessage) (busy : server.dispatcher = .notifying message) :
      Stepped server .notify
        { server with
          dispatcher := .quitting message
          signals := server.notification message }
  | quit (message : GstMessage) (busy : server.dispatcher = .quitting message) :
      Stepped server .quit
        { server with
          dispatcher := .idle
          loop := server.loop.quit message
          handled := message :: server.handled }
  | posted (element : Nat) (type : GstMessageType) (created : element < server.gst.created)
      (opened : (server.playbin element).flushing = false) :
      Stepped server (.post element type)
        { server with
          player := { server.player with gst := server.gst.post element type } }

theorem stepped_of_step (server next : Server) (action : Action)
    (stepped : step server action = some next) : Stepped server action next := by
  cases action with
  | startup inner =>
      obtain ⟨begins, handshake, moved, rfl⟩ := (step_startup_iff _ _ _).mp stepped
      exact .startup inner handshake begins moved
  | construct =>
      obtain ⟨⟨main, returned⟩, rfl⟩ := (step_construct_iff _ _).mp stepped
      exact .construct main returned
  | setup made ready =>
      obtain ⟨main, rfl⟩ := (step_setup_iff _ _ _ _).mp stepped
      exact .setup made ready main
  | enterLoop =>
      obtain ⟨main, rfl⟩ := (step_enterLoop_iff _ _).mp stepped
      exact .enterLoop main
  | leaveLoop =>
      obtain ⟨⟨main, quit⟩, rfl⟩ := (step_leaveLoop_iff _ _).mp stepped
      exact .leaveLoop main quit
  | stop change =>
      obtain ⟨main, rfl⟩ := (step_stop_iff _ _ _).mp stepped
      exact .stop change main
  | teardown =>
      obtain ⟨main, rfl⟩ := (step_teardown_iff _ _).mp stepped
      exact .teardown main
  | request request =>
      obtain ⟨⟨free, skeleton⟩, ⟨registered, rfl⟩ | ⟨unregistered, rfl⟩⟩ :=
        (step_request_iff _ _ _).mp stepped
      · exact .served request free skeleton registered
      · exact .unserved request free skeleton unregistered
  | tickPosition position =>
      obtain ⟨⟨free, installed⟩, ⟨registered, rfl⟩ | ⟨unregistered, rfl⟩⟩ :=
        (step_tickPosition_iff _ _ _).mp stepped
      · exact .begun position free installed registered
      · exact .removed position free installed unregistered
  | tickDuration duration =>
      obtain ⟨read, ticking, rfl⟩ := (step_tickDuration_iff _ _ _).mp stepped
      exact .ended duration read ticking
  | pop element =>
      obtain ⟨⟨free, created, watch⟩, message, rest, queue, rfl⟩ :=
        (step_pop_iff _ _ _).mp stepped
      exact .popped element message rest free created watch queue
  | notify =>
      obtain ⟨message, busy, rfl⟩ := (step_notify_iff _ _).mp stepped
      exact .notified message busy
  | quit =>
      obtain ⟨message, busy, rfl⟩ := (step_quit_iff _ _).mp stepped
      exact .quit message busy
  | post element type =>
      obtain ⟨⟨created, opened⟩, rfl⟩ := (step_post_iff _ _ _ _).mp stepped
      exact .posted element type created opened

/-- The two steps that change which element mpPlaybin holds. -/
def Action.replaces : Action → Bool
  | .setup _ _ => true
  | .teardown => true
  | _ => false

/-- The steps of main's thread after DBusCallbacks::init. -/
def Action.ofMain : Action → Bool
  | .construct => true
  | .setup _ _ => true
  | .enterLoop => true
  | .leaveLoop => true
  | .stop _ => true
  | .teardown => true
  | _ => false

theorem replaces_of_ofMain (action : Action) (other : action.ofMain = false) :
    action.replaces = false := by
  cases action <;> simp_all [Action.ofMain, Action.replaces]

/-- Everything a step can do to the player and its pipelines. -/
inductive PlayerChange (server : Server) (action : Action) (player : MediaPlayer) : Prop
  | kept (other : action.replaces = false) (result : player = server.player)
  | served (request : Request)
      (asked : action = .request request ∨ ∃ change, action = .stop change ∧ request = .stop change)
      (result : player = (server.player.serve request).1)
  | setup (made : Bool) (ready : StateChange) (asked : action = .setup made ready)
      (result : player = (server.player.setup made ready).1)
  | teardown (asked : action = .teardown) (result : player = server.player.teardown.1)
  | popped (element : Nat) (message : GstMessage) (rest : List GstMessage)
      (asked : action = .pop element) (created : element < server.gst.created)
      (queue : (server.playbin element).queue = message :: rest)
      (result : player = { server.player with gst := server.gst.pop element })
  | posted (element : Nat) (type : GstMessageType) (asked : action = .post element type)
      (created : element < server.gst.created)
      (opened : (server.playbin element).flushing = false)
      (result : player = { server.player with gst := server.gst.post element type })

theorem step_player (server next : Server) (action : Action)
    (stepped : step server action = some next) : PlayerChange server action next.player := by
  cases stepped_of_step server next action stepped with
  | setup made ready main => exact .setup made ready rfl rfl
  | stop change main => exact .served (.stop change) (Or.inr ⟨change, rfl, rfl⟩) rfl
  | teardown main => exact .teardown rfl rfl
  | served request free skeleton registered => exact .served request (Or.inl rfl) rfl
  | popped element message rest free created watch queue =>
      exact .popped element message rest rfl created queue rfl
  | posted element type created opened => exact .posted element type rfl created opened rfl
  | _ => exact .kept rfl rfl

/-- Everything a step can do to main's program counter. -/
inductive MainChange (server : Server) (action : Action) (main : MainPc) : Prop
  | kept (other : action.ofMain = false) (after : main = server.main)
  | construct (asked : action = .construct) (before : server.main = .init)
      (returned : server.handshake.init = .returned) (after : main = .setup)
  | setup (made : Bool) (ready : StateChange) (asked : action = .setup made ready)
      (before : server.main = .setup) (after : main = .enterLoop)
  | enterLoop (asked : action = .enterLoop) (before : server.main = .enterLoop)
      (after : main = .inLoop)
  | leaveLoop (asked : action = .leaveLoop) (before : server.main = .inLoop)
      (quit : server.loop.running = false) (after : main = .stop)
  | stop (change : StateChange) (asked : action = .stop change) (before : server.main = .stop)
      (after : main = .teardown)
  | teardown (asked : action = .teardown) (before : server.main = .teardown)
      (after : main = .setup)

theorem step_mainChange (server next : Server) (action : Action)
    (stepped : step server action = some next) : MainChange server action next.main := by
  cases stepped_of_step server next action stepped with
  | construct main returned => exact .construct rfl main returned rfl
  | setup made ready main => exact .setup made ready rfl main rfl
  | enterLoop main => exact .enterLoop rfl main rfl
  | leaveLoop main quit => exact .leaveLoop rfl main quit rfl
  | stop change main => exact .stop change rfl main rfl
  | teardown main => exact .teardown rfl main rfl
  | _ => exact .kept rfl rfl

/-- main is inside its loop after a step only if it was before, or entered it. -/
theorem inLoop_before (server next : Server) (action : Action)
    (stepped : step server action = some next) (main : next.main = .inLoop) :
    action = .enterLoop ∨ server.main = .inLoop ∧ action.ofMain = false := by
  rcases step_mainChange server next action stepped with
    ⟨other, after⟩ | ⟨-, -, -, after⟩ | ⟨_, _, -, -, after⟩ | ⟨asked, -, -⟩ |
      ⟨-, -, -, after⟩ | ⟨_, -, -, after⟩ | ⟨-, -, after⟩
  · exact Or.inr ⟨by rw [← after, main], other⟩
  case enterLoop => exact Or.inl asked
  all_goals
    rw [after] at main
    cases main

theorem enterLoop_before (server next : Server) (action : Action)
    (stepped : step server action = some next) (main : next.main = .enterLoop) :
    (∃ made ready, action = .setup made ready) ∨
      server.main = .enterLoop ∧ action.ofMain = false := by
  rcases step_mainChange server next action stepped with
    ⟨other, after⟩ | ⟨-, -, -, after⟩ | ⟨made, ready, asked, -, -⟩ | ⟨-, -, after⟩ |
      ⟨-, -, -, after⟩ | ⟨_, -, -, after⟩ | ⟨-, -, after⟩
  · exact Or.inr ⟨by rw [← after, main], other⟩
  case setup => exact Or.inl ⟨made, ready, asked⟩
  all_goals
    rw [after] at main
    cases main

theorem teardown_before (server next : Server) (action : Action)
    (stepped : step server action = some next) (main : next.main = .teardown) :
    (∃ change, action = .stop change) ∨ server.main = .teardown ∧ action.ofMain = false := by
  rcases step_mainChange server next action stepped with
    ⟨other, after⟩ | ⟨-, -, -, after⟩ | ⟨_, _, -, -, after⟩ | ⟨-, -, after⟩ |
      ⟨-, -, -, after⟩ | ⟨change, asked, -, -⟩ | ⟨-, -, after⟩
  · exact Or.inr ⟨by rw [← after, main], other⟩
  case stop => exact Or.inl ⟨change, asked⟩
  all_goals
    rw [after] at main
    cases main

/-- main waits in its loop as long as the loop runs. -/
theorem inLoop_after (server next : Server) (action : Action)
    (stepped : step server action = some next) (main : server.main = .inLoop)
    (running : server.loop.running = true) : next.main = .inLoop ∧ action.ofMain = false := by
  rcases step_mainChange server next action stepped with
    ⟨other, after⟩ | ⟨-, before, -, -⟩ | ⟨_, _, -, before, -⟩ | ⟨-, before, -⟩ |
      ⟨-, -, quit, -⟩ | ⟨_, -, before, -⟩ | ⟨-, before, -⟩
  case kept => exact ⟨after.trans main, other⟩
  case leaveLoop =>
    rw [running] at quit
    cases quit
  all_goals
    rw [main] at before
    cases before

theorem enterLoop_after (server next : Server) (action : Action)
    (stepped : step server action = some next) (main : server.main = .enterLoop) :
    action = .enterLoop ∨ next.main = .enterLoop ∧ action.ofMain = false := by
  rcases step_mainChange server next action stepped with
    ⟨other, after⟩ | ⟨-, before, -, -⟩ | ⟨_, _, -, before, -⟩ | ⟨asked, -, -⟩ |
      ⟨-, before, -, -⟩ | ⟨_, -, before, -⟩ | ⟨-, before, -⟩
  case kept => exact Or.inr ⟨after.trans main, other⟩
  case enterLoop => exact Or.inl asked
  all_goals
    rw [main] at before
    cases before

theorem inHand_of_free (server : Server) (free : server.free) : server.inHand = none := by
  simp only [inHand, free.1]

theorem inHand_of_notifying (server : Server) (message : GstMessage)
    (busy : server.dispatcher = .notifying message) : server.inHand = some message := by
  simp only [inHand, busy]

theorem inHand_of_quitting (server : Server) (message : GstMessage)
    (busy : server.dispatcher = .quitting message) : server.inHand = some message := by
  simp only [inHand, busy]

/-- Everything a step can do to the message in hand, to main's loop and to the record of
handled messages. -/
inductive HandlingChange (server next : Server) (action : Action) : Prop
  | kept (hand : next.inHand = server.inHand) (loop : next.loop = server.loop)
      (handled : next.handled = server.handled) (other : action ≠ .quit)
  | entered (asked : action = .enterLoop) (hand : next.inHand = server.inHand)
      (loop : next.loop = GMainLoop.run) (handled : next.handled = server.handled)
  | popped (element : Nat) (message : GstMessage) (rest : List GstMessage)
      (asked : action = .pop element) (created : element < server.gst.created)
      (queue : (server.playbin element).queue = message :: rest)
      (hand : next.inHand = if message.type.ends then some message else none)
      (loop : next.loop = server.loop) (handled : next.handled = server.handled)
  | quit (message : GstMessage) (asked : action = .quit)
      (before : server.inHand = some message)
      (busy : server.dispatcher = .quitting message) (hand : next.inHand = none)
      (loop : next.loop = server.loop.quit message)
      (handled : next.handled = message :: server.handled)

theorem step_handling (server next : Server) (action : Action)
    (stepped : step server action = some next) : HandlingChange server next action := by
  cases stepped_of_step server next action stepped with
  | enterLoop main => exact .entered rfl rfl rfl rfl
  | begun position free installed registered =>
      exact .kept (inHand_of_free server free).symm rfl rfl nofun
  | ended duration read ticking =>
      have empty : server.inHand = none := by simp only [inHand, ticking]
      exact .kept empty.symm rfl rfl nofun
  | popped element message rest free created watch queue =>
      refine .popped element message rest rfl created queue ?_ rfl rfl
      cases ends : message.type.ends <;> rfl
  | notified message busy =>
      exact .kept (inHand_of_notifying server message busy).symm rfl rfl nofun
  | quit message busy =>
      exact .quit message rfl (inHand_of_quitting server message busy) busy rfl rfl rfl
  | _ => exact .kept rfl rfl rfl nofun

/-- A message is handled when its quit is called, and from then on. -/
theorem handled_iff (server next : Server) (action : Action)
    (stepped : step server action = some next) (message : GstMessage) :
    message ∈ next.handled ↔
      message ∈ server.handled ∨ action = .quit ∧ message ∈ server.inHand := by
  have kept (same : next.handled = server.handled) (other : action ≠ .quit) :
      message ∈ next.handled ↔
        message ∈ server.handled ∨ action = .quit ∧ message ∈ server.inHand := by
    rw [same]
    exact ⟨Or.inl, fun either => either.resolve_right fun quit => other quit.1⟩
  rcases step_handling server next action stepped with
    ⟨hand, loop, handled, other⟩ | ⟨asked, -, -, handled⟩ |
      ⟨_, _, _, asked, -, -, -, -, handled⟩ | ⟨first, asked, before, -, -, -, handled⟩
  · exact kept handled other
  · exact kept handled (by rw [asked]; nofun)
  · exact kept handled (by rw [asked]; nofun)
  · rw [handled, before, List.mem_cons, Option.mem_some_iff, or_comm, eq_comm]
    exact ⟨Or.imp_right fun same => ⟨asked, same⟩, Or.imp_right And.right⟩

/-- The message in hand was in hand before, or is the first one of the bus it is popped
from. -/
theorem inHand_cases (server next : Server) (action : Action)
    (stepped : step server action = some next) (message : GstMessage)
    (held : message ∈ next.inHand) :
    message ∈ server.inHand ∨
      ∃ element rest, action = .pop element ∧ element < server.gst.created ∧
        (server.playbin element).queue = message :: rest ∧ message.type.ends = true := by
  rcases step_handling server next action stepped with
    ⟨hand, -, -, -⟩ | ⟨-, hand, -, -⟩ |
      ⟨element, first, rest, asked, created, queue, hand, -, -⟩ | ⟨_, -, -, -, hand, -, -⟩
  · rw [hand] at held
    exact Or.inl held
  · rw [hand] at held
    exact Or.inl held
  · rw [hand] at held
    split at held
    · rename_i ends
      rw [Option.mem_some_iff] at held
      subst held
      exact Or.inr ⟨element, rest, asked, created, queue, ends⟩
    · cases held
  · rw [hand] at held
    cases held

/-- Apart from main's entering it, only a quit changes the loop. -/
theorem loop_cases (server next : Server) (action : Action)
    (stepped : step server action = some next) (other : action ≠ .enterLoop) :
    next.loop = server.loop ∧ action ≠ .quit ∨
      ∃ message, action = .quit ∧ message ∈ server.inHand ∧
        next.loop = server.loop.quit message := by
  rcases step_handling server next action stepped with
    ⟨-, loop, -, quit⟩ | ⟨asked, -, -, -⟩ | ⟨_, _, _, asked, -, -, -, loop, -⟩ |
      ⟨message, asked, before, -, -, loop, -⟩
  · exact Or.inl ⟨loop, quit⟩
  · exact absurd asked other
  · exact Or.inl ⟨loop, by rw [asked]; nofun⟩
  · exact Or.inr ⟨message, asked, before, loop⟩

/-- A loop that still runs after a step was not quit by it. -/
theorem running_before (server next : Server) (action : Action)
    (stepped : step server action = some next) (other : action ≠ .enterLoop)
    (running : next.loop.running = true) :
    server.loop.running = true ∧ action ≠ .quit := by
  rcases loop_cases server next action stepped other with ⟨loop, quit⟩ | ⟨message, -, -, loop⟩
  · rw [loop] at running
    exact ⟨running, quit⟩
  · rw [loop, GMainLoop.quit] at running
    split at running
    · cases running
    · contradiction

end MediaplayerServer.Server
