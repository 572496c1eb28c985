import Mathlib.Data.List.Induction
import MediaplayerServer.ServerProgress

set_option autoImplicit false

namespace MediaplayerServer

open Transition

namespace Server

/-- An updateProgress that has read the position in `first` and is about to read the
duration in `second`; `between` is what happened meanwhile. -/
structure Tick (first : Server) (position : Option Int) (between : List Action)
    (second : Server) : Prop where
  registered : first.mMediaPlayer = true
  begins : ∃ begun, step first (.tickPosition position) = some begun ∧
    run step begun between = some second
  apart : ∀ action ∈ between, ∀ duration, action ≠ .tickDuration duration

/-- The position read is still the dispatcher's when the duration is read. -/
theorem Tick.ticking {first second : Server} {position : Option Int} {between : List Action}
    (tick : Tick first position between second) :
    second.dispatcher = .ticking (first.player.getPosition position) := by
  obtain ⟨begun, stepped, onward⟩ := tick.begins
  refine run_ticking ?_ tick.apart onward
  rw [tick_begins first begun position tick.registered stepped]

/-- The dispatcher thread is between its two reads because it was, or has just begun. -/
theorem ticking_before (server next : Server) (action : Action) (read : Int)
    (stepped : step server action = some next) (ticking : next.dispatcher = .ticking read) :
    server.dispatcher = .ticking read ∧ (∀ duration, action ≠ .tickDuration duration) ∨
      ∃ position, action = .tickPosition position ∧ server.mMediaPlayer = true ∧
        read = server.player.getPosition position := by
  rcases step_tickChange server next action stepped with
    ⟨same, other⟩ | ⟨position, asked, registered, -, reading⟩ | ⟨_, -, idle⟩ | ⟨-, after⟩
  · exact Or.inl ⟨same.symm.trans ticking, other⟩
  · refine Or.inr ⟨position, asked, registered, ?_⟩
    rw [ticking] at reading
    exact Dispatcher.ticking.inj reading
  · rw [ticking] at idle
    cases idle
  · exact absurd ticking (after read)

/-- In every run, a thread between its two reads has made the first one on the way. -/
theorem tick_of_ticking (actions : List Action) (server : Server) (read : Int)
    (reached : run step initial actions = some server)
    (ticking : server.dispatcher = .ticking read) :
    ∃ before position between first,
      actions = before ++ .tickPosition position :: between ∧
        run step initial before = some first ∧ Tick first position between server ∧
        read = first.player.getPosition position := by
  induction actions using List.reverseRecOn generalizing server with
  | nil =>
      rw [run_nil, Option.some.injEq] at reached
      subst reached
      cases ticking
  | append_singleton earlier action ih =>
      obtain ⟨middle, onward, stepped⟩ := (run_snoc_iff _ _ _ _ _).mp reached
      rcases ticking_before middle server action read stepped ticking with
        ⟨still, other⟩ | ⟨position, rfl, registered, same⟩
      · obtain ⟨before, position, between, first, rfl, start, tick, same⟩ :=
          ih middle onward still
        obtain ⟨begun, begins, further⟩ := tick.begins
        refine ⟨before, position, between ++ [action], first, ?_, start,
          ⟨tick.registered, ⟨begun, begins, ?_⟩, ?_⟩, same⟩
        · rw [List.append_assoc, List.cons_append]
        · exact (run_snoc_iff _ _ _ _ _).mpr ⟨middle, further, stepped⟩
        · intro taken member
          rcases List.mem_append.mp member with among | last
          · exact tick.apart taken among
          · rw [List.mem_singleton.mp last]
            exact other
      · exact ⟨earlier, position, [], middle, rfl, onward,
          ⟨registered, ⟨server, stepped, rfl⟩, nofun⟩, same⟩

end Server

/-- PAUSED or PLAYING. -/
def GstState.prerolled : GstState → Bool
  | .null => false
  | .ready => false
  | .paused => true
  | .playing => true

namespace Server

/-- Setting a new playbin to READY does not leave it further up. -/
def Action.settles : Action → Bool
  | .setup _ ready => decide (ready.ret ≠ .failure) || !ready.left.prerolled
  | _ => true

/-- The step is a query that succeeds. -/
def Action.asks : Action → Bool
  | .tickPosition position => position.isSome
  | .tickDuration duration => duration.isSome
  | _ => false

/-- What GStreamer promises: a new playbin is at most in READY after its setup, and a query
succeeds only from PAUSED on. -/
def Answers (server : Server) (action : Action) : Prop :=
  action.settles = true ∧
    (action.asks = true → ∀ element ∈ server.element,
      (server.playbin element).state.prerolled = true)

instance (server : Server) (action : Action) : Decidable (Answers server action) :=
  inferInstanceAs (Decidable (_ ∧ _))

/-- The held pipeline cannot answer a query. -/
def Unanswering (server : Server) : Prop :=
  ∀ element ∈ server.element, (server.playbin element).state.prerolled = false

theorem installed_unanswering (made : Bool) (ready : StateChange)
    (settles : (Action.setup made ready).settles = true) :
    (Playbin.installed ready).state.prerolled = false := by
  rw [Action.settles, Bool.or_eq_true, decide_eq_true_eq, Bool.not_eq_true'] at settles
  unfold Playbin.installed Playbin.gstElementSetState
  rw [if_neg (by decide)]
  split
  · rename_i failed
    exact settles.resolve_left (absurd failed)
  · rfl

/-- A replaced pipeline starts out unable to answer. -/
theorem replaced_unanswering (server next : Server) (action : Action)
    (answers : Answers server action) (replaces : action.replaces = true)
    (stepped : step server action = some next) : Unanswering next := by
  intro element held
  cases action with
  | setup made ready =>
      cases made with
      | false =>
          obtain ⟨-, rfl⟩ := (step_setup_iff _ _ _ _).mp stepped
          rw [Server.element, setup_refused_element] at held
          cases held
      | true =>
          obtain ⟨now, installed⟩ := setup_step server next ready stepped
          rw [now, Option.mem_some_iff] at held
          subst held
          rw [installed]
          exact installed_unanswering true ready answers.1
  | teardown =>
      obtain ⟨-, rfl⟩ := (step_teardown_iff _ _).mp stepped
      rw [Server.element, teardown_element] at held
      cases held
  | _ => cases replaces

/-- While the dispatcher thread is between its reads no request can raise the pipeline. -/
theorem step_unanswering (server : Server) (action : Action) (next : Server) (read : Int)
    (ticking : server.dispatcher = .ticking read) (unanswering : Unanswering server)
    (answers : Answers server action) (stepped : step server action = some next) :
    Unanswering next := by
  by_cases replaces : action.replaces = true
  · exact replaced_unanswering server next action answers replaces stepped
  · rw [Bool.not_eq_true] at replaces
    intro element held
    rw [step_element server next action stepped replaces] at held
    have before := unanswering element held
    rcases step_playbin server next action element stepped with
      result | ⟨request, -, asked, result⟩ | ⟨ready, asked, -, -⟩ | ⟨_, rest, -, -, result⟩ |
        ⟨type, -, -, result⟩
    · rw [result]
      exact before
    · rcases asked with rfl | ⟨change, -, rfl⟩
      · obtain ⟨⟨⟨idle, -⟩, -⟩, -⟩ := (step_request_iff _ _ _).mp stepped
        rw [ticking] at idle
        cases idle
      · rw [result]
        rfl
    · rw [asked] at replaces
      cases replaces
    · rw [result]
      exact before
    · rw [result]
      exact before

theorem run_element (server final : Server) (actions : List Action)
    (unreplaced : ∀ action ∈ actions, action.replaces = false)
    (reached : run step server actions = some final) : final.element = server.element :=
  run_invariant_of_forall
    (fun state action next same kept stepped =>
      (step_element state next action stepped kept).trans same)
    rfl unreplaced reached

/-- Between the two reads either no step replaces the pipeline, or the one then held cannot
answer the second. -/
theorem run_apart {begun second : Server} {between : List Action} {read : Int}
    (ticking : begun.dispatcher = .ticking read)
    (apart : ∀ action ∈ between, ∀ duration, action ≠ .tickDuration duration)
    (answers : Along step Answers begun between)
    (reached : run step begun between = some second) :
    (∀ action ∈ between, action.replaces = false) ∨ Unanswering second := by
  by_cases replaced : ∃ action ∈ between, action.replaces = true
  · obtain ⟨action, member, replaces⟩ := replaced
    obtain ⟨early, late, rfl⟩ := List.append_of_mem member
    obtain ⟨middle, onward, rest⟩ := (run_append_iff _ _ _ _ _).mp reached
    obtain ⟨next, stepped, further⟩ := (run_cons_iff _ _ _ _ _).mp rest
    have still := run_ticking ticking
      (fun other among => apart other (List.mem_append_left _ among)) onward
    have along := answers.right onward
    have here := answers early action late middle rfl onward
    have guarded : Along step
        (fun state other => (∀ duration, other ≠ .tickDuration duration) ∧ Answers state other)
        next late := by
      intro before other after current split passed
      refine ⟨apart other (by rw [split]; simp), ?_⟩
      exact ((along_cons_iff _ _ _ _ _).mp along).2 next stepped before other after current
        split passed
    have keeps : ∀ state other after,
        state.dispatcher = .ticking read ∧ Unanswering state →
        (∀ duration, other ≠ .tickDuration duration) ∧ Answers state other →
        step state other = some after →
        after.dispatcher = .ticking read ∧ Unanswering after := by
      intro state other after valid guard moved
      exact ⟨step_ticking state other after read valid.1 guard.1 moved,
        step_unanswering state other after read valid.1 valid.2 guard.2 moved⟩
    have start : next.dispatcher = .ticking read ∧ Unanswering next :=
      ⟨step_ticking middle action next read still (apart action member) stepped,
        replaced_unanswering middle next action here replaces stepped⟩
    exact Or.inr (run_invariant keeps start guarded further).2
  · refine Or.inl fun action member => ?_
    by_contra replaces
    rw [Bool.not_eq_false] at replaces
    exact replaced ⟨action, member, replaces⟩

/-- Everything a step can do to the emitted signals. -/
inductive SignalsChange (server next : Server) (action : Action) : Prop
  | kept (same : next.signals = server.signals)
  | notified (message : GstMessage) (asked : action = .notify)
      (signals : next.signals = server.notification message)
  | ticked (read : Int) (duration : Option Int) (asked : action = .tickDuration duration)
      (ticking : server.dispatcher = .ticking read)
      (signals : next.signals = server.progress read (server.player.getDuration duration))

theorem step_signals (server next : Server) (action : Action)
    (stepped : step server action = some next) : SignalsChange server next action := by
  cases stepped_of_step server next action stepped with
  | ended duration read ticking => exact .ticked read duration rfl ticking rfl
  | notified message busy => exact .notified message rfl rfl
  | _ => exact .kept rfl

/-- The handler of an EOS or an ERROR does not emit notifyProgress. -/
theorem notification_not_progress (server : Server) (message : GstMessage) (p d : Nat) :
    server.notification message ≠ .notifyProgress p d :: server.signals := by
  unfold notification emit
  split <;> first | (split <;> simp) | simp

theorem progress_emitted (server : Server) (position duration : Int) (p d : Nat)
    (emitted : server.progress position duration = .notifyProgress p d :: server.signals) :
    server.handshake.mMediaplayerInterface = true ∧ position ≠ -1 ∧ duration ≠ -1 ∧
      p = MediaPlayer.toUint position ∧ d = MediaPlayer.toUint duration := by
  unfold progress emit at emitted
  split at emitted
  · rename_i known
    split at emitted
    · rename_i created
      rw [List.cons.injEq, Signal.notifyProgress.injEq] at emitted
      exact ⟨created, known.1, known.2, emitted.1.1.symm, emitted.1.2.symm⟩
    · simp at emitted
  · simp at emitted

/-- Seconds other than -1 are a pipeline's answer. -/
theorem answered_of_seconds (player : MediaPlayer) (query : Option Int)
    (known : player.querySeconds query ≠ -1) :
    ∃ element time, player.element = some element ∧ query = some time := by
  unfold MediaPlayer.querySeconds at known
  cases held : player.element with
  | none =>
      rw [held] at known
      exact absurd rfl known
  | some element =>
      cases query with
      | none =>
          rw [held] at known
          exact absurd rfl known
      | some time => exact ⟨element, time, rfl, rfl⟩

/-- The first session up to its start. -/
def startedRun : List Action :=
  startupRun ++
    [.setup true granted, .enterLoop, .request (.setFile "/a.mp3" (some "file:///a.mp3")),
      .request (.start granted)]

/-- Main's stop between the reads would make the second one fail; its leaving the loop
does not. -/
def tickAcrossLeave : List Action :=
  startedRun ++
    [.post 0 .eos, .pop 0, .notify, .quit, .tickPosition (some 5000000000), .leaveLoop]

/-- In every run whose pipelines answer as GStreamer promises, both numbers of a
notifyProgress were read from one pipeline, which was not replaced in between. -/
theorem progress_untorn (actions : List Action) (action : Action) (server final : Server)
    (p d : Nat) (answers : Along step Answers initial (actions ++ [action]))
    (reached : run step initial actions = some server)
    (stepped : step server action = some final)
    (emitted : final.signals = .notifyProgress p d :: server.signals) :
    ∃ before first between element position duration,
      actions = before ++ .tickPosition (some position) :: between ∧
        run step initial before = some first ∧ Tick first (some position) between server ∧
        action = .tickDuration (some duration) ∧
        (∀ other ∈ between, other.replaces = false) ∧
        first.element = some element ∧ server.element = some element ∧
        p = MediaPlayer.toUint (first.player.getPosition (some position)) ∧
        d = MediaPlayer.toUint (server.player.getDuration (some duration)) := by
  rcases step_signals server final action stepped with
    same | ⟨message, -, signals⟩ | ⟨read, query, asked, ticking, signals⟩
  · rw [same] at emitted
    simp at emitted
  · rw [signals] at emitted
    exact absurd emitted (notification_not_progress server message p d)
  · rw [signals] at emitted
    obtain ⟨-, positioned, lasting, rfl, rfl⟩ := progress_emitted server _ _ p d emitted
    obtain ⟨before, answer, between, first, split, start, tick, rfl⟩ :=
      tick_of_ticking actions server read reached ticking
    obtain ⟨element, position, held, rfl⟩ := answered_of_seconds first.player answer positioned
    obtain ⟨current, duration, holds, rfl⟩ := answered_of_seconds server.player query lasting
    have active : ∀ element ∈ server.element,
        (server.playbin element).state.prerolled = true := by
      have here := answers actions action [] server rfl reached
      rw [asked] at here
      exact here.2 rfl
    obtain ⟨begun, begins, onward⟩ := tick.begins
    have along : Along step Answers begun between := by
      rw [split] at answers
      have later := answers.left.right start
      exact ((along_cons_iff _ _ _ _ _).mp later).2 begun begins
    have reading := congrArg Server.dispatcher (tick_begins first begun _ tick.registered begins)
    rcases run_apart reading tick.apart along onward with unreplaced | unanswering
    · have same : server.element = first.element := by
        have begun_element := step_element first begun _ begins rfl
        exact (run_element begun server between unreplaced onward).trans begun_element
      exact ⟨before, first, between, element, position, duration, split, start, tick, asked,
        unreplaced, held, same.trans held, rfl, rfl⟩
    · -- a pipeline that was set up after the first read has not reached PAUSED
      have up := active current holds
      rw [unanswering current holds] at up
      cases up

/-- The loop is left between the two reads. -/
theorem tick_across_leave_untorn :
    ∃ server final,
      run step initial tickAcrossLeave = some server ∧
      step server (.tickDuration (some 9000000000)) = some final ∧
      final.signals = .notifyProgress 5 9 :: server.signals ∧
      ∃ before first between element position duration,
        tickAcrossLeave = before ++ .tickPosition (some position) :: between ∧
          run step initial before = some first ∧ Tick first (some position) between server ∧
          Action.tickDuration (some 9000000000) = .tickDuration (some duration) ∧
          (∀ other ∈ between, other.replaces = false) ∧
          first.element = some element ∧ server.element = some element ∧
          5 = MediaPlayer.toUint (first.player.getPosition (some position)) ∧
          9 = MediaPlayer.toUint (server.player.getDuration (some duration)) :=
  ⟨_, _, rfl, rfl, rfl, progress_untorn tickAcrossLeave (.tickDuration (some 9000000000)) _ _ 5 9
    (by decide) rfl rfl rfl⟩

end Server

end MediaplayerServer
