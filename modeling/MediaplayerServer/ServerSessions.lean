import MediaplayerServer.ServerLoop

set_option autoImplicit false

namespace MediaplayerServer.Server

open Transition

/-- The loop that main is about to leave was quit for a message of the pipeline that
the session's own setup created. -/
def OwnQuit (server : Server) : Prop :=
  server.main = .inLoop → server.loop.running = false →
    ∃ message, server.loop.quitBy = some message ∧ server.element = some message.src

/-- main enters its loop only when no message of another pipeline is in the middle of
handle_message, and while the loop runs no EOS or ERROR of another pipeline comes off a
bus. -/
def HandlesOwn (server : Server) : Action → Prop
  | .enterLoop => ∀ message ∈ server.inHand, server.element = some message.src
  | .pop element => server.main = .inLoop → server.loop.running = true →
      server.element ≠ some element →
        ∀ message ∈ (server.playbin element).queue.head?, message.type.ends = false
  | _ => True

/-- main enters its loop only when no message of another pipeline is in the middle of
handle_message, and teardown finds its pipeline as silent as main's stop left it. -/
def Separate (server : Server) : Action → Prop
  | .enterLoop => ∀ message ∈ server.inHand, server.element = some message.src
  | .teardown => ∀ element ∈ server.element, (server.playbin element).Silent
  | _ => True

instance (playbin : Playbin) : Decidable playbin.Silent :=
  decidable_of_iff (playbin.flushing = true ∧ playbin.queue = [])
    ⟨fun both => ⟨both.1, both.2⟩, fun silent => ⟨silent.flushing, silent.queue⟩⟩

instance (server : Server) (action : Action) : Decidable (Separate server action) := by
  unfold Separate
  split <;> infer_instance

/-- The pipelines left behind post nothing and have nothing on their buses. -/
structure Hushed (server : Server) : Prop where
  held : Held server
  orphans : ∀ element, server.element ≠ some element → (server.playbin element).Silent

theorem initial_hushed : Hushed initial :=
  ⟨initial_held, fun _ _ => Playbin.made_silent⟩

/-- A silent pipeline stays silent unless setup replaces it or a start or a pause
reaches it. -/
theorem step_silent (server next : Server) (action : Action) (element : Nat)
    (silent : (server.playbin element).Silent)
    (fresh : ∀ ready, action ≠ .setup true ready)
    (lowers : ∀ request, action = .request request → server.element = some element →
      request.raises = false)
    (stepped : step server action = some next) : (next.playbin element).Silent := by
  rcases step_playbin server next action element stepped with
    result | ⟨request, held, asked, result⟩ | ⟨ready, asked, -, -⟩ | ⟨_, _, -, queue, -⟩ |
      ⟨_, -, opened, -⟩
  · rw [result]
    exact silent
  · rw [result]
    apply Playbin.serve_silent _ request silent
    rcases asked with asked | ⟨change, -, rfl⟩
    · exact lowers request asked held
    · rfl
  · exact absurd asked (fresh ready)
  · rw [silent.queue] at queue
    cases queue
  · rw [silent.flushing] at opened
    cases opened

theorem teardown_hushed (server next : Server) (valid : Hushed server)
    (separate : Separate server .teardown) (stepped : step server .teardown = some next)
    (element : Nat) : (next.playbin element).Silent := by
  have before : (server.playbin element).Silent := by
    by_cases held : server.element = some element
    · exact separate element held
    · exact valid.orphans element held
  exact step_silent server next .teardown element before nofun nofun stepped

theorem setup_hushed (server next : Server) (made : Bool) (ready : StateChange)
    (valid : Hushed server) (stepped : step server (.setup made ready) = some next)
    (element : Nat) (orphan : next.element ≠ some element) :
    (next.playbin element).Silent := by
  have before := valid.orphans element
    (orphan_before server next (.setup made ready) element valid.held stepped nofun orphan)
  obtain ⟨-, rfl⟩ := (step_setup_iff _ _ _ _).mp stepped
  have older : element ≠ server.gst.created ∨ made = false := by
    cases made with
    | false => exact Or.inr rfl
    | true =>
        left
        rintro rfl
        exact orphan (setup_made_element server ready)
  rcases older with older | rfl
  · rw [playbin, gst, setup_other server made ready element older]
    exact before
  · exact before

theorem step_hushed (server : Server) (action : Action) (next : Server) (valid : Hushed server)
    (separate : Separate server action) (stepped : step server action = some next) :
    Hushed next := by
  refine ⟨step_held server action next valid.held stepped, fun element orphan => ?_⟩
  by_cases teardown : action = .teardown
  · subst teardown
    exact teardown_hushed server next valid separate stepped element
  · by_cases setup : ∃ made ready, action = .setup made ready
    · obtain ⟨made, ready, rfl⟩ := setup
      exact setup_hushed server next made ready valid stepped element orphan
    · have before :=
        orphan_before server next action element valid.held stepped teardown orphan
      refine step_silent server next action element (valid.orphans element before) ?_ ?_ stepped
      · rintro ready rfl
        exact setup ⟨true, ready, rfl⟩
      · intro request _ held
        exact absurd held before

/-- Nothing comes off the bus of a pipeline left behind. -/
theorem handlesOwn_of_separate (server : Server) (action : Action) (valid : Hushed server)
    (separate : Separate server action) : HandlesOwn server action := by
  cases action with
  | enterLoop => exact separate
  | pop element =>
      intro _ _ orphan message first
      rw [(valid.orphans element orphan).queue] at first
      cases first
  | _ => trivial

/-- While main waits, the message in hand is one of its own pipeline. -/
def OwnHand (server : Server) : Prop :=
  server.main = .inLoop → server.loop.running = true →
    ∀ message ∈ server.inHand, server.element = some message.src

/-- What ends a session, or is about to, is a message of its own pipeline. -/
structure Own (server : Server) : Prop where
  hand : OwnHand server
  quit : OwnQuit server

theorem initial_own : Own initial := ⟨nofun, nofun⟩

theorem enterLoop_own (server next : Server)
    (own : ∀ message ∈ server.inHand, server.element = some message.src)
    (stepped : step server .enterLoop = some next) :
    (∀ message ∈ next.inHand, next.element = some message.src) ∧ OwnQuit next := by
  obtain ⟨-, rfl⟩ := (step_enterLoop_iff _ _).mp stepped
  exact ⟨own, nofun⟩

/-- A message that ends the session and comes off a bus while the loop runs is one of the
held pipeline. -/
theorem popped_own (server : Server) (element : Nat) (message : GstMessage)
    (rest : List GstMessage) (traced : Traced server)
    (handles : HandlesOwn server (.pop element)) (main : server.main = .inLoop)
    (running : server.loop.running = true)
    (queue : (server.playbin element).queue = message :: rest)
    (ends : message.type.ends = true) : server.element = some message.src := by
  rw [traced.queue element message (by rw [queue]; exact List.mem_cons_self)]
  by_contra orphan
  have first : message ∈ (server.playbin element).queue.head? := by
    rw [queue]
    rfl
  rw [handles main running orphan message first] at ends
  cases ends

theorem step_own_hand (server : Server) (action : Action) (next : Server)
    (traced : Traced server) (valid : Own server) (handles : HandlesOwn server action)
    (stepped : step server action = some next) : OwnHand next := by
  intro main running
  rcases inLoop_before server next action stepped main with rfl | ⟨before, other⟩
  · exact (enterLoop_own server next handles stepped).1
  · have entering : action ≠ .enterLoop := by
      rintro rfl
      cases other
    have still := (running_before server next action stepped entering running).1
    intro message held
    rw [step_element server next action stepped (replaces_of_ofMain action other)]
    rcases inHand_cases server next action stepped message held with
      held | ⟨element, rest, rfl, -, queue, ends⟩
    · exact valid.hand before still message held
    · exact popped_own server element message rest traced handles before still queue ends

theorem step_own_quit (server : Server) (action : Action) (next : Server) (valid : Own server)
    (handles : HandlesOwn server action) (stepped : step server action = some next) :
    OwnQuit next := by
  intro main left
  rcases inLoop_before server next action stepped main with rfl | ⟨before, other⟩
  · exact (enterLoop_own server next handles stepped).2 main left
  · have entering : action ≠ .enterLoop := by
      rintro rfl
      cases other
    rw [step_element server next action stepped (replaces_of_ofMain action other)]
    rcases loop_cases server next action stepped entering with ⟨loop, -⟩ | ⟨message, -, held, loop⟩
    · rw [loop] at left ⊢
      exact valid.quit before left
    · rw [loop, GMainLoop.quit]
      split
      · rename_i running
        exact ⟨message, rfl, valid.hand before running message held⟩
      · rename_i stopped
        exact valid.quit before (by simpa only [Bool.not_eq_true] using stopped)

theorem handlesOwn_of_step (server : Server) (action : Action) (next : Server)
    (traced : Traced server) (own : OwnHand next) (stepped : step server action = some next) :
    HandlesOwn server action := by
  cases action with
  | enterLoop =>
      obtain ⟨-, rfl⟩ := (step_enterLoop_iff _ _).mp stepped
      exact own rfl rfl
  | pop element =>
      obtain ⟨-, first, rest, queue, rfl⟩ := (step_pop_iff _ _ _).mp stepped
      intro main running orphan message head
      rw [queue, List.head?_cons, Option.mem_some_iff] at head
      subst head
      by_contra ends
      rw [Bool.not_eq_false] at ends
      have src := traced.queue element first (by rw [queue]; exact List.mem_cons_self)
      have hand := own main running first (by simp only [inHand, ends, ↓reduceIte]; rfl)
      rw [src] at hand
      exact orphan hand
  | _ => trivial

/-- One step keeps to the session's own messages exactly if it handles only those. -/
theorem step_own (server : Server) (action : Action) (next : Server) (traced : Traced server)
    (valid : Own server) (stepped : step server action = some next) :
    Own next ↔ HandlesOwn server action := by
  constructor
  · intro own
    exact handlesOwn_of_step server action next traced own.hand stepped
  · intro handles
    exact ⟨step_own_hand server action next traced valid handles stepped,
      step_own_quit server action next valid handles stepped⟩

/-- main waits while a message of another pipeline is in hand. -/
def Foreign (server : Server) : Prop :=
  server.main = .inLoop ∧ server.loop.running = true ∧
    ∃ message ∈ server.inHand, server.element ≠ some message.src

/-- Only its quit takes a message out of the dispatcher's hand. -/
theorem step_foreign (server : Server) (action : Action) (next : Server)
    (foreign : Foreign server) (own : ∀ next, step server action = some next → OwnQuit next)
    (stepped : step server action = some next) : Foreign next := by
  obtain ⟨main, running, message, held, orphan⟩ := foreign
  obtain ⟨inside, other⟩ := inLoop_after server next action stepped main running
  have same := step_element server next action stepped (replaces_of_ofMain action other)
  rcases step_handling server next action stepped with
    ⟨hand, loop, -, -⟩ | ⟨rfl, -, -, -⟩ | ⟨_, _, _, rfl, -, -, -, -, -⟩ |
      ⟨first, -, before, -, -, loop, -⟩
  · exact ⟨inside, by rw [loop, running], message, by rw [hand]; exact held, by rwa [same]⟩
  · cases other
  · obtain ⟨⟨free, -⟩, -⟩ := (step_pop_iff _ _ _).mp stepped
    rw [inHand_of_free server free] at held
    cases held
  · -- the foreign message would have ended the session
    rw [GMainLoop.quit, if_pos running] at loop
    obtain ⟨last, quitBy, src⟩ := own next stepped inside (by rw [loop])
    rw [loop, Option.some.injEq] at quitBy
    rw [before, Option.mem_some_iff] at held
    rw [same, ← quitBy, held] at src
    exact absurd src orphan

/-- A run that ends with empty hands and has every session end by its own pipeline never
waits with a foreign message in hand. -/
theorem ownHand_of_ownQuit (server final : Server) (actions : List Action)
    (own : Throughout step OwnQuit server actions) (free : final.inHand = none)
    (reached : run step server actions = some final) : OwnHand server := by
  intro main running message held
  by_contra orphan
  have foreign :=
    run_invariant step_foreign ⟨main, running, message, held, orphan⟩ own.next reached
  obtain ⟨-, -, last, still, -⟩ := foreign
  rw [free] at still
  cases still

/-- The first pipeline posts two EOS messages. The second is in hand while main goes on
to its next session, and its quit ends that session. -/
def secondEos : List Action :=
  startupRun ++
    [.setup true granted, .enterLoop, .post 0 .eos, .post 0 .eos, .pop 0, .notify, .quit,
      .leaveLoop, .pop 0, .notify, .stop granted, .teardown, .setup true granted, .enterLoop,
      .quit]

theorem second_eos_ends_next_session :
    ∃ server, run step initial secondEos = some server ∧ server.main = .inLoop ∧
      server.loop = ⟨false, some ⟨0, 1, .eos⟩⟩ ∧ server.element = some 1 ∧ ¬OwnQuit server := by
  refine ⟨_, rfl, rfl, rfl, rfl, fun own => ?_⟩
  obtain ⟨message, quitBy, held⟩ := own rfl rfl
  have first : some ⟨0, 1, .eos⟩ = some message := quitBy
  rw [Option.some.injEq] at first
  subst first
  exact absurd held (by decide)

/-- In every run that handles a session's own messages only, every session is ended by a
message of its own pipeline, and a run that ends between two messages has this in no other
way. So has every run whose steps are all separate. -/
theorem own_quit_iff (actions : List Action) (final : Server)
    (reached : run step initial actions = some final) :
    (Along step HandlesOwn initial actions → Throughout step OwnQuit initial actions) ∧
    (final.inHand = none →
      (Throughout step OwnQuit initial actions ↔ Along step HandlesOwn initial actions)) ∧
    (Along step Separate initial actions → Along step HandlesOwn initial actions) := by
  have exactly : Throughout step Own initial actions ↔ Along step HandlesOwn initial actions :=
    throughout_iff_along step_traced step_own initial_traced initial_own reached
  have enough : Along step HandlesOwn initial actions →
      Throughout step OwnQuit initial actions := by
    intro along before after middle split onward
    exact (exactly.mpr along before after middle split onward).quit
  refine ⟨enough, fun free => ⟨fun own => exactly.mp ?_, enough⟩, fun separate => ?_⟩
  · intro before after middle split onward
    subst split
    rw [run_append, onward, Option.bind_some] at reached
    have rest := own.right onward
    exact ⟨ownHand_of_ownQuit middle final after rest free reached, own _ _ middle rfl onward⟩
  · refine along_of_invariant step_hushed ?_ initial_hushed separate reached
    exact fun state action _ valid guard _ => handlesOwn_of_separate state action valid guard

theorem quiet_session_own_quit :
    Along step HandlesOwn initial quietSession ∧
      Throughout step OwnQuit initial quietSession := by
  obtain ⟨-, exactly, separate⟩ := own_quit_iff quietSession _ rfl
  have handles := separate (by decide)
  exact ⟨handles, (exactly rfl).mpr handles⟩

end MediaplayerServer.Server
