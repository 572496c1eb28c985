import MediaplayerServer.ServerLoop
import MediaplayerServer.ServerNotifications

set_option autoImplicit false

namespace MediaplayerServer

open Transition

namespace Handshake

/-- mtx is held by the thread that is between its lock and its unlock, if there is one. -/
def Owned (state : State) : Prop :=
  state.mtx ≠ none →
    state.init = .wait ∨ state.callback = .locked ∨ state.callback = .notified

theorem initial_owned : Owned initial := nofun

theorem step_owned (state : State) (action : Action) (next : State)
    (valid : Owned state ∧ Exclusive state) (stepped : step state action = some next) :
    Owned next := by
  obtain ⟨owned, main, dispatcher⟩ := valid
  cases action <;>
    simp only [step, Option.ite_none_right_eq_some, Option.some.injEq] at stepped <;>
    obtain ⟨enabled, rfl⟩ := stepped <;>
    unfold Owned at owned ⊢ <;>
    grind

theorem step_returned (state next : State) (action : Action)
    (stepped : step state action = some next) (before : state.init = .returned) :
    next.init = .returned := by
  cases action <;>
    simp only [step, Option.ite_none_right_eq_some, Option.some.injEq] at stepped <;>
    obtain ⟨enabled, rfl⟩ := stepped <;>
    grind

end Handshake

namespace Playbin

theorem installed_flushing (ready : StateChange) : (installed ready).flushing = false := by
  unfold installed gstElementSetState
  rw [if_neg (by decide)]
  split <;> rfl

/-- Only a stop silences the bus. -/
theorem serve_flushing (playbin : Playbin) (request : Request)
    (silent : (playbin.serve request).1.flushing = true) :
    playbin.flushing = true ∧ (playbin.serve request).1.queue = playbin.queue ∨
      ∃ change, request = .stop change := by
  have opened : ∀ target change, target ≠ .null →
      (playbin.gstElementSetState target change).1.flushing = false := by
    intro target change other
    unfold gstElementSetState
    rw [if_neg other]
    split <;> rfl
  cases request with
  | start change => exact absurd silent (by rw [Playbin.serve, changeState, opened] <;> decide)
  | pause change => exact absurd silent (by rw [Playbin.serve, changeState, opened] <;> decide)
  | stop change => exact Or.inr ⟨change, rfl⟩
  | seek secs done =>
      obtain ⟨_, _, same⟩ :=
        playbin.gstElementSeekSimple_cases (secs.toNat * MediaPlayer.gstSecond) done
      rw [serve, same] at silent ⊢
      exact Or.inl ⟨silent, rfl⟩
  | setRate rate position done =>
      obtain ⟨_, _, same⟩ := playbin.sendSeekEvent_cases rate position done
      rw [serve, same] at silent ⊢
      exact Or.inl ⟨silent, rfl⟩
  | setFile path uri => exact Or.inl ⟨silent, rfl⟩

end Playbin

namespace Server

/-- The invariants that recovery rests on. Only a client's stop can have silenced the held
pipeline during a session, so there is a skeleton for the next request. -/
structure Sane (server : Server) : Prop where
  held : Held server
  kept : Kept server
  exclusive : Handshake.Exclusive server.handshake
  owned : Handshake.Owned server.handshake
  drained : ∀ element, (server.playbin element).flushing = true →
    (server.playbin element).queue = []
  registered : server.main ≠ .init →
    server.mMediaPlayer = true ∧ server.handshake.init = .returned
  skeleton : server.main = .enterLoop ∨ server.main = .inLoop →
    ∀ element, server.element = some element → (server.playbin element).flushing = true →
      server.handshake.mMediaplayerInterface = true

theorem initial_sane : Sane initial where
  held := initial_held
  kept := initial_kept
  exclusive := Handshake.initial_exclusive
  owned := Handshake.initial_owned
  drained := fun _ _ => rfl
  registered := fun other => absurd rfl other
  skeleton := by rintro (main | main) <;> cases main

/-- A silent bus was silent before, or was silenced by a stop; either way it is empty. -/
theorem step_flushing (server next : Server) (action : Action) (element : Nat)
    (drained : (server.playbin element).flushing = true → (server.playbin element).queue = [])
    (stepped : step server action = some next)
    (silent : (next.playbin element).flushing = true) :
    (next.playbin element).queue = [] ∧
      ((server.playbin element).flushing = true ∨ Flushes server action element) := by
  rcases step_playbin server next action element stepped with
    result | ⟨request, held, asked, result⟩ | ⟨ready, -, -, result⟩ |
      ⟨message, rest, -, queue, result⟩ | ⟨type, -, opened, result⟩
  · rw [result] at silent ⊢
    exact ⟨drained silent, Or.inl silent⟩
  · rw [result] at silent ⊢
    rcases Playbin.serve_flushing _ request silent with ⟨before, same⟩ | ⟨change, rfl⟩
    · exact ⟨same.trans (drained before), Or.inl before⟩
    · refine ⟨rfl, Or.inr ⟨held, ?_⟩⟩
      rcases asked with rfl | ⟨other, rfl, -⟩ <;> rfl
  · rw [result, Playbin.installed_flushing] at silent
    cases silent
  · rw [result] at silent
    rw [drained silent] at queue
    cases queue
  · rw [result] at silent
    exact absurd (silent.symm.trans opened) (by decide)

theorem step_registered (server next : Server) (action : Action)
    (valid : server.main ≠ .init →
      server.mMediaPlayer = true ∧ server.handshake.init = .returned)
    (stepped : step server action = some next) (later : next.main ≠ .init) :
    next.mMediaPlayer = true ∧ next.handshake.init = .returned := by
  cases stepped_of_step server next action stepped with
  | startup inner handshake begins moved =>
      obtain ⟨registered, returned⟩ := valid later
      exact ⟨registered, Handshake.step_returned _ _ inner moved returned⟩
  | construct main returned => exact ⟨rfl, returned⟩
  | setup made ready main => exact valid (by rw [main]; decide)
  | enterLoop main => exact valid (by rw [main]; decide)
  | leaveLoop main quit => exact valid (by rw [main]; decide)
  | stop change main => exact valid (by rw [main]; decide)
  | teardown main => exact valid (by rw [main]; decide)
  | _ => exact valid later

theorem step_skeleton (server next : Server) (action : Action) (valid : Sane server)
    (stepped : step server action = some next)
    (main : next.main = .enterLoop ∨ next.main = .inLoop) (element : Nat)
    (held : next.element = some element) (silent : (next.playbin element).flushing = true) :
    next.handshake.mMediaplayerInterface = true := by
  obtain ⟨-, before⟩ :=
    step_flushing server next action element (valid.drained element) stepped silent
  by_cases replaces : action.replaces = true
  · cases action with
    | setup made ready =>
        cases made with
        | true =>
            obtain ⟨fresh, installed⟩ := setup_step server next ready stepped
            obtain rfl := Option.some.inj (fresh.symm.trans held)
            rw [installed, Playbin.installed_flushing] at silent
            cases silent
        | false =>
            obtain ⟨-, rfl⟩ := (step_setup_iff _ _ _ _).mp stepped
            cases (setup_refused_element server ready).symm.trans held
    | teardown =>
        obtain ⟨-, rfl⟩ := (step_teardown_iff _ _).mp stepped
        rcases main with main | main <;> cases main
    | _ => cases replaces
  · rw [step_element server next action stepped (Bool.eq_false_iff.mpr replaces)] at held
    rcases before with before | ⟨-, stops⟩
    · cases stepped_of_step server next action stepped with
      | startup inner handshake begins moved =>
          exact handshake_exported _ _ inner moved (valid.skeleton main element held before)
      | enterLoop entering => exact valid.skeleton (Or.inl entering) element held before
      | served request free skeleton registered => exact skeleton
      | setup made ready before => exact absurd rfl replaces
      | construct | leaveLoop | stop | teardown => rcases main with main | main <;> cases main
      | _ => exact valid.skeleton main element held before
    · cases action with
      | request request =>
          obtain ⟨⟨-, skeleton⟩, either⟩ := (step_request_iff _ _ _).mp stepped
          rcases either with ⟨-, rfl⟩ | ⟨-, rfl⟩ <;> exact skeleton
      | stop change =>
          obtain ⟨-, rfl⟩ := (step_stop_iff _ _ _).mp stepped
          rcases main with main | main <;> cases main
      | _ => cases stops

theorem step_sane (server : Server) (action : Action) (next : Server) (valid : Sane server)
    (stepped : step server action = some next) : Sane next where
  held := step_held server action next valid.held stepped
  kept := step_kept server action next valid.kept stepped
  exclusive := by
    cases stepped_of_step server next action stepped with
    | startup inner handshake begins moved =>
        exact Handshake.step_exclusive _ inner _ valid.exclusive moved
    | _ => exact valid.exclusive
  owned := by
    cases stepped_of_step server next action stepped with
    | startup inner handshake begins moved =>
        exact Handshake.step_owned _ inner _ ⟨valid.owned, valid.exclusive⟩ moved
    | _ => exact valid.owned
  drained := fun element silent =>
    (step_flushing server next action element (valid.drained element) stepped silent).1
  registered := step_registered server next action valid.registered stepped
  skeleton := step_skeleton server next action valid stepped

/-- main waits in its loop, or is about to, and nothing can quit that loop any more: there is
no element, no message in hand, and no pipeline that could post one. -/
structure Wedged (server : Server) : Prop where
  waits : server.main = .enterLoop ∨ server.main = .inLoop ∧ server.loop.running = true
  idle : server.inHand = none
  absent : server.element = none
  silent : ∀ element < server.gst.created, (server.playbin element).Silent

theorem Wedged.main {server : Server} (wedged : Wedged server) :
    server.main = .enterLoop ∨ server.main = .inLoop :=
  wedged.waits.imp_right And.left

theorem step_wedged (server : Server) (action : Action) (next : Server) (valid : Wedged server)
    (stepped : step server action = some next) : Wedged next := by
  have waiting := valid.main
  obtain ⟨waits, idle, absent, silent⟩ := valid
  cases stepped_of_step server next action stepped with
  | enterLoop main => exact ⟨Or.inr ⟨rfl, rfl⟩, idle, absent, silent⟩
  | leaveLoop main quit =>
      rcases waits with before | ⟨-, running⟩
      · cases main.symm.trans before
      · cases quit.symm.trans running
  | construct main | setup made ready main | stop change main | teardown main =>
      rcases waiting with before | before <;> cases main.symm.trans before
  | served request free skeleton registered =>
      rw [MediaPlayer.serve_eq, MediaPlayer.withElement_none _ _ absent]
      exact ⟨waits, idle, absent, silent⟩
  | begun position free installed registered => exact ⟨waits, rfl, absent, silent⟩
  | ended duration read ticking => exact ⟨waits, rfl, absent, silent⟩
  | popped element message rest free created watch queue =>
      cases (silent element created).queue.symm.trans queue
  | posted element type created opened =>
      cases (silent element created).flushing.symm.trans opened
  | notified message busy => cases idle.symm.trans (inHand_of_notifying server message busy)
  | quit message busy => cases idle.symm.trans (inHand_of_quitting server message busy)
  | _ => exact ⟨waits, idle, absent, silent⟩

/-- main has come back to its setup. -/
def AtSetup (server : Server) : Prop := server.main = .setup

theorem wedged_for_good (server : Server) (wedged : Wedged server) :
    ¬CanReach step AtSetup server := by
  refine not_canReach step_wedged (fun state stuck back => ?_) wedged
  rcases stuck.main with main | main <;> cases back.symm.trans main

section Paths

variable {server : Server}

theorem restart_of_teardown (main : server.main = .teardown) : CanReach step AtSetup server :=
  canReach_step ((step_teardown_iff server _).mpr ⟨main, rfl⟩) (canReach_here rfl)

theorem restart_of_stop (main : server.main = .stop) : CanReach step AtSetup server :=
  canReach_step ((step_stop_iff server _ granted).mpr ⟨main, rfl⟩) (restart_of_teardown rfl)

theorem restart_of_quit (main : server.main = .inLoop) (quit : server.loop.running = false) :
    CanReach step AtSetup server :=
  canReach_step ((step_leaveLoop_iff server _).mpr ⟨⟨main, quit⟩, rfl⟩) (restart_of_stop rfl)

theorem restart_of_quitting (main : server.main = .inLoop) (message : GstMessage)
    (busy : server.dispatcher = .quitting message) : CanReach step AtSetup server := by
  refine canReach_step ((step_quit_iff server _).mpr ⟨message, busy, rfl⟩)
    (restart_of_quit main ?_)
  show (server.loop.quit message).running = false
  unfold GMainLoop.quit
  split
  · rfl
  · rename_i stopped
    exact Bool.eq_false_iff.mpr stopped

theorem restart_of_notifying (main : server.main = .inLoop) (message : GstMessage)
    (busy : server.dispatcher = .notifying message) : CanReach step AtSetup server :=
  canReach_step ((step_notify_iff server _).mpr ⟨message, busy, rfl⟩)
    (restart_of_quitting main message rfl)

/-- Behind any number of other messages, an ending one on a watched bus ends the session. -/
theorem restart_of_waiting (main : server.main = .inLoop) (free : server.free) (element : Nat)
    (created : element < server.gst.created) (watch : (server.playbin element).watch = true)
    (waiting : ∃ message ∈ (server.playbin element).queue, message.type.ends = true) :
    CanReach step AtSetup server := by
  generalize bus : (server.playbin element).queue = queue at waiting
  induction queue generalizing server with
  | nil => obtain ⟨message, ⟨⟩, -⟩ := waiting
  | cons first rest ih =>
      have popped := (step_pop_iff server _ element).mpr
        ⟨⟨free, created, watch⟩, first, rest, bus, rfl⟩
      refine canReach_step popped ?_
      by_cases ends : first.type.ends = true
      · exact restart_of_notifying main first (if_pos ends)
      · have own : (server.gst.pop element).playbin element =
            { server.playbin element with queue := (server.playbin element).queue.tail } :=
          Gst.set_self _ _ _
        refine ih main ⟨if_neg ends, free.2⟩ created ?_ ?_ ?_
        · show ((server.gst.pop element).playbin element).watch = true
          rw [own]
          exact watch
        · show ((server.gst.pop element).playbin element).queue = rest
          rw [own]
          exact congrArg List.tail bus
        · obtain ⟨message, member, last⟩ := waiting
          rcases List.mem_cons.mp member with rfl | later
          · exact absurd last ends
          · exact ⟨message, later, last⟩

/-- A pipeline whose bus is open can always post one more message. -/
theorem restart_of_open (main : server.main = .inLoop) (free : server.free) (element : Nat)
    (created : element < server.gst.created) (watch : (server.playbin element).watch = true)
    (opened : (server.playbin element).flushing = false) : CanReach step AtSetup server := by
  have own : (server.gst.post element .eos).playbin element =
      { server.playbin element with
        queue := (server.playbin element).queue ++ [⟨element, server.gst.posted, .eos⟩] } :=
    Gst.set_self _ _ _
  refine canReach_step ((step_post_iff server _ element .eos).mpr ⟨⟨created, opened⟩, rfl⟩)
    (restart_of_waiting main free element created ?_ ?_)
  · show ((server.gst.post element .eos).playbin element).watch = true
    rw [own]
    exact watch
  · refine ⟨⟨element, server.gst.posted, .eos⟩, ?_, rfl⟩
    show _ ∈ ((server.gst.post element .eos).playbin element).queue
    rw [own]
    exact List.mem_append_right _ (List.mem_singleton_self _)

/-- A held pipeline can be started by the client if its bus is not open already. -/
theorem restart_of_held (sane : Sane server) (main : server.main = .inLoop) (free : server.free)
    (element : Nat) (held : server.element = some element) : CanReach step AtSetup server := by
  have created := sane.held.created element held
  have watch := sane.kept.watch element created
  cases bus : (server.playbin element).flushing with
  | false => exact restart_of_open main free element created watch bus
  | true =>
      have skeleton := sane.skeleton (Or.inr main) element held bus
      have registered := (sane.registered (by rw [main]; decide)).1
      have started := serve_held server (.start granted) element held
      refine canReach_step ((step_request_iff server _ (.start granted)).mpr
        ⟨⟨free, skeleton⟩, Or.inl ⟨registered, rfl⟩⟩) (restart_of_open main free element ?_ ?_ ?_)
      · show element < (server.player.serve (.start granted)).1.gst.created
        rw [serve_created]
        exact created
      · show ((server.player.serve (.start granted)).1.gst.playbin element).watch = true
        rw [started, Playbin.serve_watch]
        exact watch
      · show ((server.player.serve (.start granted)).1.gst.playbin element).flushing = false
        rw [started]
        rfl

/-- Some pipeline can still end the session. -/
def Hopeful (server : Server) : Prop :=
  (∃ element, server.element = some element) ∨
    ∃ element < server.gst.created, (server.playbin element).flushing = false

theorem restart_of_free (sane : Sane server) (main : server.main = .inLoop) (free : server.free)
    (hope : Hopeful server) : CanReach step AtSetup server := by
  rcases hope with ⟨element, held⟩ | ⟨element, created, opened⟩
  · exact restart_of_held sane main free element held
  · exact restart_of_open main free element created (sane.kept.watch element created) opened

/-- The dispatcher can take the next step of the callback that it is in. -/
theorem continue_callback (action : Handshake.Action) (handshake : Handshake.State)
    (inner : action.begins = false)
    (moved : Handshake.step server.handshake action = some handshake) :
    step server (.startup action) = some { server with
      handshake := handshake
      timer := server.timer || decide (action = .addTimer) } :=
  (step_startup_iff server _ action).mpr
    ⟨fun begins => absurd (inner.symm.trans begins) Bool.false_ne_true, handshake, moved, rfl⟩

theorem restart_of_notified (sane : Sane server) (main : server.main = .inLoop)
    (idle : server.dispatcher = .idle) (hope : Hopeful server)
    (callback : server.handshake.callback = .notified) : CanReach step AtSetup server := by
  have stepped := continue_callback .unlockCallback _ rfl (if_pos callback)
  exact canReach_step stepped
    (restart_of_free (step_sane _ _ _ sane stepped) main ⟨idle, rfl⟩ hope)

theorem restart_of_locked (sane : Sane server) (main : server.main = .inLoop)
    (idle : server.dispatcher = .idle) (hope : Hopeful server)
    (callback : server.handshake.callback = .locked) : CanReach step AtSetup server := by
  have stepped := continue_callback .notifyOne _ rfl (if_pos callback)
  exact canReach_step stepped
    (restart_of_notified (step_sane _ _ _ sane stepped) main idle hope rfl)

theorem restart_of_exported (sane : Sane server) (main : server.main = .inLoop)
    (idle : server.dispatcher = .idle) (hope : Hopeful server)
    (callback : server.handshake.callback = .exported) : CanReach step AtSetup server := by
  have unlocked : server.handshake.mtx = none := by
    have returned := (sane.registered (by rw [main]; decide)).2
    by_contra taken
    rcases sane.owned taken with waits | locked | notified
    · cases waits.symm.trans returned
    · cases locked.symm.trans callback
    · cases notified.symm.trans callback
  have stepped := continue_callback .lockCallback _ rfl (if_pos ⟨callback, unlocked⟩)
  exact canReach_step stepped
    (restart_of_locked (step_sane _ _ _ sane stepped) main idle hope rfl)

theorem restart_of_idle (sane : Sane server) (main : server.main = .inLoop)
    (idle : server.dispatcher = .idle) (hope : Hopeful server) :
    CanReach step AtSetup server := by
  cases callback : server.handshake.callback with
  | exported => exact restart_of_exported sane main idle hope callback
  | locked => exact restart_of_locked sane main idle hope callback
  | notified => exact restart_of_notified sane main idle hope callback
  | notAcquired =>
      exact restart_of_free sane main
        ⟨idle, by simp only [Handshake.State.inCallback, callback]⟩ hope
  | finished =>
      exact restart_of_free sane main
        ⟨idle, by simp only [Handshake.State.inCallback, callback]⟩ hope

/-- In its loop main gets back to setup as long as there is a message or a pipeline left. -/
theorem restart_of_inLoop (sane : Sane server) (main : server.main = .inLoop)
    (hope : server.inHand ≠ none ∨ Hopeful server) : CanReach step AtSetup server := by
  cases busy : server.dispatcher with
  | notifying message => exact restart_of_notifying main message busy
  | quitting message => exact restart_of_quitting main message busy
  | idle =>
      have empty : server.inHand = none := by simp only [inHand, busy]
      exact restart_of_idle sane main busy (hope.resolve_left (not_not_intro empty))
  | ticking read =>
      have empty : server.inHand = none := by simp only [inHand, busy]
      have stepped := (step_tickDuration_iff server _ none).mpr ⟨read, busy, rfl⟩
      exact canReach_step stepped (restart_of_idle (step_sane _ _ _ sane stepped) main rfl
        (hope.resolve_left (not_not_intro empty)))

end Paths

theorem hope_of_not_wedged (server : Server) (sane : Sane server)
    (waits : server.main = .enterLoop ∨ server.main = .inLoop ∧ server.loop.running = true)
    (unwedged : ¬Wedged server) : server.inHand ≠ none ∨ Hopeful server := by
  by_contra hopeless
  obtain ⟨idle, hopeless⟩ := not_or.mp hopeless
  obtain ⟨absent, silent⟩ := not_or.mp hopeless
  refine unwedged ⟨waits, not_not.mp idle, ?_, fun element created => ?_⟩
  · exact Option.eq_none_iff_forall_ne_some.mpr fun element held => absent ⟨element, held⟩
  · have flushing : (server.playbin element).flushing = true := by
      by_contra opened
      exact silent ⟨element, created, Bool.eq_false_iff.mpr opened⟩
    exact ⟨flushing, sane.drained element flushing⟩

/-- From every reachable state after DBusCallbacks::init, main can get back to its setup, for
another session, unless the server is wedged; and a wedged server stays so for good and refuses
every request. -/
theorem restarts_iff (actions : List Action) (server : Server)
    (reached : run step initial actions = some server) (started : server.main ≠ .init) :
    (CanReach step AtSetup server ↔ ¬Wedged server) ∧
      (Wedged server → ∀ later final, run step server later = some final →
        Wedged final ∧ ∀ request, final.reply request = false) := by
  have sane := run_invariant_of_step step_sane initial_sane reached
  refine ⟨⟨fun back wedged => wedged_for_good server wedged back, fun unwedged => ?_⟩, ?_⟩
  · cases main : server.main with
    | init => exact absurd main started
    | setup => exact canReach_here main
    | stop => exact restart_of_stop main
    | teardown => exact restart_of_teardown main
    | enterLoop =>
        have hope := hope_of_not_wedged server sane (Or.inl main) unwedged
        have stepped := (step_enterLoop_iff server _).mpr ⟨main, rfl⟩
        exact canReach_step stepped (restart_of_inLoop (step_sane _ _ _ sane stepped) rfl hope)
    | inLoop =>
        cases running : server.loop.running with
        | false => exact restart_of_quit main running
        | true =>
            exact restart_of_inLoop sane main
              (hope_of_not_wedged server sane (Or.inr ⟨main, running⟩) unwedged)
  · intro wedged later final onward
    have still := run_invariant_of_step step_wedged wedged onward
    refine ⟨still, fun request => ?_⟩
    rw [reply, MediaPlayer.serve_eq, MediaPlayer.withElement_none _ _ still.absent, Bool.and_false]

/-- playbin cannot be created, and main is wedged. -/
theorem failed_setup_wedges :
    ∃ server, run step initial failedSetup = some server ∧ ¬CanReach step AtSetup server := by
  refine ⟨_, rfl, ?_⟩
  rw [(restarts_iff failedSetup _ rfl (by decide)).1]
  exact not_not_intro ⟨Or.inr ⟨rfl, rfl⟩, rfl, rfl, nofun⟩

end Server

end MediaplayerServer
