import MediaplayerServer.ServerSessions

set_option autoImplicit false

namespace MediaplayerServer.Server

open Transition

/-- A run in which the client's setFile and, later, its start were both answered with
true: `asked` and `starting` are the states the two are served in. setFile is the last
one before the start, start is the last request of all, and no EOS or ERROR that the
started pipeline posted after the start has been handled. -/
structure Acknowledged (pre mid post : List Action) (path uri : String) (change : StateChange)
    (asked starting final : Server) : Prop where
  before : run step initial pre = some asked
  between : run step asked (.request (.setFile path (some uri)) :: mid) = some starting
  after : run step starting (.request (.start change) :: post) = some final
  setFile : asked.reply (.setFile path (some uri)) = true
  start : starting.reply (.start change) = true
  lastFile : ∀ action ∈ mid, ∀ other name, action ≠ .request (.setFile other name)
  lastRequest : ∀ action ∈ post, ∀ request, action ≠ .request request
  unended : ∀ message ∈ final.handled, starting.element = some message.src →
    message.stamp < starting.gst.posted

/-- mpPlaybin holds a pipeline that plays the URI. -/
def Plays (server : Server) (uri : String) : Prop :=
  ∃ element, server.element = some element ∧ (server.playbin element).uri = some uri ∧
    (server.playbin element).state = .playing

/-- The steps of main that stop, drop or replace what mpPlaybin holds. -/
def Action.undoes : Action → Bool
  | .setup _ _ => true
  | .stop _ => true
  | .teardown => true
  | _ => false

/-- main is between setup and the end of its loop, and nothing has quit the loop. -/
def InSession (server : Server) : Prop :=
  server.main = .enterLoop ∨ server.main = .inLoop ∧ server.loop.running = true

/-- The start is served on the pipeline the setFile was served on, inside its session,
and no message posted earlier can end that session any more. -/
structure Undisturbed (asked starting : Server) : Prop where
  same : starting.element = asked.element
  session : InSession starting
  queue : ∀ element ∈ starting.element,
    ∀ message ∈ (starting.playbin element).queue, message.type.ends = false
  others : ∀ element, starting.element ≠ some element → (starting.playbin element).Silent

/-- A request answered with true found a player and an element, and was served there. -/
theorem reply_step (server next : Server) (request : Request)
    (granted : server.reply request = true) (stepped : step server (.request request) = some next) :
    server.inHand = none ∧ next = { server with player := (server.player.serve request).1 } ∧
      ∃ element, server.element = some element ∧
        ((server.playbin element).serve request).2 = true := by
  rw [reply, Bool.and_eq_true] at granted
  obtain ⟨registered, served⟩ := granted
  obtain ⟨⟨free, -⟩, ⟨-, result⟩ | ⟨unregistered, -⟩⟩ := (step_request_iff _ _ _).mp stepped
  · refine ⟨inHand_of_free server free, result.symm, ?_⟩
    rw [MediaPlayer.serve_eq] at served
    cases held : server.player.element with
    | none =>
        rw [MediaPlayer.withElement_none server.player _ held] at served
        cases served
    | some element =>
        rw [MediaPlayer.withElement_some server.player _ element held] at served
        exact ⟨element, held, served⟩
  · rw [registered] at unregistered
    cases unregistered

/-- Only setFile changes the URI of a pipeline. -/
theorem step_uri (server next : Server) (action : Action) (element : Nat)
    (existing : element < server.gst.created)
    (other : ∀ path name, action ≠ .request (.setFile path name))
    (stepped : step server action = some next) :
    (next.playbin element).uri = (server.playbin element).uri := by
  rcases step_playbin server next action element stepped with
    result | ⟨request, -, asked, result⟩ | ⟨_, -, fresh, -⟩ | ⟨_, _, -, -, result⟩ |
      ⟨_, -, -, result⟩
  · rw [result]
  · rw [result]
    apply Playbin.serve_uri
    rintro path name rfl
    rcases asked with asked | ⟨change, -, stop⟩
    · exact other path name asked
    · cases stop
  · omega
  · rw [result]
  · rw [result]

/-- Up to the next setFile, the pipeline keeps the URI it was given. -/
theorem run_uri (server final : Server) (actions : List Action) (element : Nat) (uri : String)
    (existing : element < server.gst.created)
    (given : (server.playbin element).uri = some uri)
    (other : ∀ action ∈ actions, ∀ path name, action ≠ .request (.setFile path name))
    (reached : run step server actions = some final) :
    (final.playbin element).uri = some uri := by
  have keeps : ∀ state action next,
      (element < state.gst.created ∧ (state.playbin element).uri = some uri) →
      (∀ path name, action ≠ .request (.setFile path name)) →
      step state action = some next →
      element < next.gst.created ∧ (next.playbin element).uri = some uri := by
    intro state action next valid others stepped
    refine ⟨Nat.lt_of_lt_of_le valid.1 (created_le state next action stepped), ?_⟩
    rw [step_uri state next action element valid.1 others stepped]
    exact valid.2
  exact (run_invariant_of_forall keeps ⟨existing, given⟩ other reached).2

theorem undoes_of_ofMain (action : Action) (other : action.ofMain = false) :
    action.undoes = false := by
  cases action <;> simp_all [Action.ofMain, Action.undoes]

theorem replaces_of_undoes (action : Action) (other : action.undoes = false) :
    action.replaces = false := by
  cases action <;> simp_all [Action.undoes, Action.replaces]

/-- The pipeline that setup puts in place has no URI. -/
theorem replaced_uri (server next : Server) (action : Action) (element : Nat)
    (replaces : action.replaces = true) (stepped : step server action = some next)
    (held : next.element = some element) : (next.playbin element).uri = none := by
  cases action with
  | setup made ready =>
      cases made with
      | true =>
          obtain ⟨fresh, made⟩ := setup_step server next ready stepped
          rw [held, Option.some.injEq] at fresh
          rw [fresh, made, Playbin.installed_uri]
      | false =>
          obtain ⟨-, rfl⟩ := (step_setup_iff _ _ _ _).mp stepped
          rw [Server.element, setup_refused_element] at held
          cases held
  | teardown =>
      obtain ⟨-, rfl⟩ := (step_teardown_iff _ _).mp stepped
      rw [Server.element, teardown_element] at held
      cases held
  | _ => cases replaces

/-- mpPlaybin holds `element`, or a pipeline that was never given a URI. -/
def Elsewhere (element : Nat) (server : Server) : Prop :=
  ∀ other, server.element = some other → other = element ∨ (server.playbin other).uri = none

theorem step_elsewhere (element : Nat) (server next : Server) (action : Action)
    (valid : Held server) (before : Elsewhere element server)
    (quiet : ∀ path name, action ≠ .request (.setFile path name))
    (stepped : step server action = some next) : Elsewhere element next := by
  intro other held
  by_cases replaces : action.replaces = true
  · exact Or.inr (replaced_uri server next action other replaces stepped held)
  · rw [Bool.not_eq_true] at replaces
    rw [step_element server next action stepped replaces] at held
    have existing := valid.created other held
    rw [step_uri server next action other existing quiet stepped]
    exact before other held

/-- Up to the next setFile, only the pipeline that setFile reached can have a URI. -/
theorem run_elsewhere (element : Nat) (server final : Server) (actions : List Action)
    (valid : Held server) (before : Elsewhere element server)
    (quiet : ∀ action ∈ actions, ∀ path name, action ≠ .request (.setFile path name))
    (reached : run step server actions = some final) : Elsewhere element final := by
  have keeps : ∀ state action next, (Held state ∧ Elsewhere element state) →
      (∀ path name, action ≠ .request (.setFile path name)) →
      step state action = some next → Held next ∧ Elsewhere element next := by
    intro state action next both others stepped
    exact ⟨step_held state action next both.1 stepped,
      step_elsewhere element state next action both.1 both.2 others stepped⟩
  exact (run_invariant_of_forall keeps ⟨valid, before⟩ quiet reached).2

/-- Nothing plays a URI in mpPlaybin, and only a request can change that. -/
def Undone (server : Server) : Prop :=
  ∀ element, server.element = some element →
    (server.playbin element).uri = none ∨ (server.playbin element).state = .null

theorem not_plays_of_undone (server : Server) (uri : String) (undone : Undone server) :
    ¬Plays server uri := by
  rintro ⟨element, held, given, playing⟩
  rcases undone element held with absent | null
  · rw [given] at absent
    cases absent
  · rw [playing] at null
    cases null

theorem undone_of_undoes (server next : Server) (action : Action)
    (undoes : action.undoes = true) (stepped : step server action = some next) :
    Undone next := by
  intro element held
  cases action with
  | stop change =>
      right
      obtain ⟨-, rfl⟩ := (step_stop_iff _ _ _).mp stepped
      rw [Server.element, stop_eq_serve, serve_element] at held
      rw [playbin, gst, stop_eq_serve, serve_held server _ element held]
      rfl
  | setup made ready => exact Or.inl (replaced_uri server next _ element rfl stepped held)
  | teardown => exact Or.inl (replaced_uri server next _ element rfl stepped held)
  | _ => cases undoes

/-- Between requests, main's other steps and the dispatcher's leave URI and state alone. -/
theorem step_untouched (server next : Server) (action : Action) (element : Nat)
    (quiet : ∀ request, action ≠ .request request) (other : action.undoes = false)
    (stepped : step server action = some next) :
    (next.playbin element).uri = (server.playbin element).uri ∧
      (next.playbin element).state = (server.playbin element).state := by
  rcases step_playbin server next action element stepped with
    result | ⟨request, -, asked, -⟩ | ⟨ready, rfl, -, -⟩ | ⟨_, _, -, -, result⟩ |
      ⟨_, -, -, result⟩
  · rw [result]
    exact ⟨rfl, rfl⟩
  · rcases asked with asked | ⟨change, rfl, -⟩
    · exact absurd asked (quiet request)
    · cases other
  · cases other
  · rw [result]
    exact ⟨rfl, rfl⟩
  · rw [result]
    exact ⟨rfl, rfl⟩

theorem step_undone (server : Server) (action : Action) (next : Server)
    (undone : Undone server) (quiet : ∀ request, action ≠ .request request)
    (stepped : step server action = some next) : Undone next := by
  by_cases undoes : action.undoes = true
  · exact undone_of_undoes server next action undoes stepped
  · rw [Bool.not_eq_true] at undoes
    intro element held
    rw [step_element server next action stepped (replaces_of_undoes action undoes)] at held
    obtain ⟨uri, state⟩ := step_untouched server next action element quiet undoes stepped
    rw [uri, state]
    exact undone element held

/-- Without a request, what main has undone stays undone. -/
theorem run_undone (server final : Server) (actions : List Action) (undone : Undone server)
    (quiet : ∀ action ∈ actions, ∀ request, action ≠ .request request)
    (reached : run step server actions = some final) : Undone final := by
  exact run_invariant_of_forall step_undone undone quiet reached

/-- What plays goes on playing as long as main undoes nothing and no request is served. -/
theorem run_plays (server final : Server) (actions : List Action) (uri : String)
    (plays : Plays server uri) (quiet : ∀ action ∈ actions, ∀ request, action ≠ .request request)
    (others : ∀ action ∈ actions, action.undoes = false)
    (reached : run step server actions = some final) : Plays final uri := by
  have keeps : ∀ state action next, Plays state uri →
      ((∀ request, action ≠ .request request) ∧ action.undoes = false) →
      step state action = some next → Plays next uri := by
    intro state action next valid guard stepped
    obtain ⟨element, held, given, playing⟩ := valid
    obtain ⟨sameUri, sameState⟩ :=
      step_untouched state next action element guard.1 guard.2 stepped
    refine ⟨element, ?_, sameUri.trans given, sameState.trans playing⟩
    rw [step_element state next action stepped (replaces_of_undoes action guard.2), held]
  have both : ∀ action ∈ actions,
      (∀ request, action ≠ .request request) ∧ action.undoes = false :=
    fun action member => ⟨quiet action member, others action member⟩
  exact run_invariant_of_forall keeps plays both reached

/-- The started pipeline `element` is still in its session, and whatever may still end
the session is a message it posted from stamp `since` on. -/
structure Running (element since : Nat) (server : Server) : Prop where
  held : server.element = some element
  session : InSession server
  queue : ∀ message ∈ (server.playbin element).queue,
    message.type.ends = true → since ≤ message.stamp
  hand : ∀ message ∈ server.inHand, message.src = element ∧ since ≤ message.stamp
  others : ∀ other, other ≠ element → (server.playbin other).Silent
  posted : since ≤ server.gst.posted
  traced : Traced server

/-- A message that the pipeline posted from stamp `since` on has been handled. -/
def Ended (element since : Nat) (server : Server) : Prop :=
  ∃ message ∈ server.handled, message.src = element ∧ since ≤ message.stamp

theorem step_ended (element since : Nat) (server next : Server) (action : Action)
    (ended : Ended element since server) (stepped : step server action = some next) :
    Ended element since next := by
  obtain ⟨message, done, later⟩ := ended
  exact ⟨message, (handled_iff server next action stepped message).mpr (Or.inl done), later⟩

/-- Without a quit main stays in its session, and neither stops nor replaces anything. -/
theorem step_session (server next : Server) (action : Action) (session : InSession server)
    (other : action ≠ .quit) (stepped : step server action = some next) :
    InSession next ∧ action.undoes = false := by
  rcases session with entering | ⟨main, running⟩
  · rcases enterLoop_after server next action stepped entering with rfl | ⟨after, others⟩
    · obtain ⟨-, rfl⟩ := (step_enterLoop_iff _ _).mp stepped
      exact ⟨Or.inr ⟨rfl, rfl⟩, rfl⟩
    · exact ⟨Or.inl after, undoes_of_ofMain action others⟩
  · obtain ⟨after, others⟩ := inLoop_after server next action stepped main running
    have inside : action ≠ .enterLoop := by
      rintro rfl
      cases others
    refine ⟨Or.inr ⟨after, ?_⟩, undoes_of_ofMain action others⟩
    rcases loop_cases server next action stepped inside with ⟨loop, -⟩ | ⟨_, quit, -, -⟩
    · rw [loop, running]
    · exact absurd quit other

theorem step_running_queue (element since : Nat) (server next : Server) (action : Action)
    (valid : Running element since server) (quiet : ∀ request, action ≠ .request request)
    (other : action.undoes = false) (stepped : step server action = some next) :
    ∀ message ∈ (next.playbin element).queue, message.type.ends = true →
      since ≤ message.stamp := by
  rcases step_playbin server next action element stepped with
    result | ⟨request, -, asked, -⟩ | ⟨ready, rfl, -, -⟩ | ⟨first, rest, -, queue, result⟩ |
      ⟨type, -, -, result⟩
  · rw [result]
    exact valid.queue
  · rcases asked with asked | ⟨change, rfl, -⟩
    · exact absurd asked (quiet request)
    · cases other
  · cases other
  · rw [result]
    intro message waiting
    apply valid.queue message
    rw [queue]
    exact List.mem_cons_of_mem first waiting
  · rw [result]
    intro message waiting ends
    rw [List.mem_append, List.mem_singleton] at waiting
    rcases waiting with before | rfl
    · exact valid.queue message before ends
    · exact valid.posted

theorem step_running_hand (element since : Nat) (server next : Server) (action : Action)
    (valid : Running element since server) (stepped : step server action = some next) :
    ∀ message ∈ next.inHand, message.src = element ∧ since ≤ message.stamp := by
  intro message held
  rcases inHand_cases server next action stepped message held with
    before | ⟨popped, rest, -, -, queue, ends⟩
  · exact valid.hand message before
  · have waiting : message ∈ (server.playbin popped).queue := by
      rw [queue]
      exact List.mem_cons_self
    by_cases same : popped = element
    · subst same
      exact ⟨valid.traced.queue popped message waiting, valid.queue message waiting ends⟩
    · rw [(valid.others popped same).queue] at waiting
      cases waiting

theorem step_running (element since : Nat) (server next : Server) (action : Action)
    (valid : Running element since server) (quiet : ∀ request, action ≠ .request request)
    (other : action ≠ .quit) (stepped : step server action = some next) :
    Running element since next := by
  obtain ⟨session, undoes⟩ := step_session server next action valid.session other stepped
  have replaces := replaces_of_undoes action undoes
  constructor
  · rw [step_element server next action stepped replaces]
    exact valid.held
  · exact session
  · exact step_running_queue element since server next action valid quiet undoes stepped
  · exact step_running_hand element since server next action valid stepped
  · intro orphan differ
    refine step_silent server next action orphan (valid.others orphan differ) ?_ ?_ stepped
    · rintro ready rfl
      cases replaces
    · intro request asked
      exact absurd asked (quiet request)
  · exact Nat.le_trans valid.posted (posted_le server next action stepped)
  · exact step_traced server action next valid.traced stepped

/-- A start served undisturbed leaves its pipeline running in its session. -/
theorem start_running (asked starting next : Server) (change : StateChange) (element : Nat)
    (traced : Traced starting) (undisturbed : Undisturbed asked starting)
    (held : starting.element = some element)
    (granted : starting.reply (.start change) = true)
    (stepped : step starting (.request (.start change)) = some next) :
    Running element starting.gst.posted next := by
  have traced' := step_traced starting _ next traced stepped
  obtain ⟨empty, rfl, -⟩ := reply_step starting next _ granted stepped
  constructor
  · rw [Server.element, serve_element]
    exact held
  · exact undisturbed.session
  · intro message waiting ends
    rw [playbin, gst, serve_held starting _ element held] at waiting
    have before := Playbin.serve_queue _ _ message waiting
    rw [undisturbed.queue element held message before] at ends
    cases ends
  · intro message hand
    have none : starting.inHand = some message := hand
    rw [empty] at none
    cases none
  · intro other differ
    have orphan : starting.element ≠ some other := by
      rw [held]
      rintro same
      exact differ (Option.some.inj same).symm
    rw [playbin, gst, serve_other starting _ other orphan]
    exact undisturbed.others other orphan
  · exact Nat.le_of_eq (serve_posted starting _).symm
  · exact traced'

theorem run_running (element since : Nat) (server final : Server) (actions : List Action)
    (valid : Running element since server)
    (quiet : ∀ action ∈ actions, ∀ request, action ≠ .request request)
    (reached : run step server actions = some final) :
    Running element since final ∨ Ended element since final := by
  have keeps : ∀ state action next, (Running element since state ∨ Ended element since state) →
      (∀ request, action ≠ .request request) → step state action = some next →
      Running element since next ∨ Ended element since next := by
    intro state action next valid others stepped
    rcases valid with running | ended
    · by_cases quit : action = .quit
      · -- the quit is one for a message of the pipeline itself
        subst quit
        obtain ⟨message, busy, rfl⟩ := (step_quit_iff _ _).mp stepped
        exact Or.inr ⟨message, List.mem_cons_self,
          running.hand message (inHand_of_quitting state message busy)⟩
      · exact Or.inl (step_running element since state next action running others quit stepped)
    · exact Or.inr (step_ended element since state next action ended stepped)
  exact run_invariant_of_forall keeps (Or.inl valid) quiet reached

/-- main undoes nothing as long as no EOS or ERROR of the running pipeline is handled. -/
theorem undoes_of_running (element since : Nat) (server final : Server) (actions : List Action)
    (valid : Running element since server)
    (quiet : ∀ action ∈ actions, ∀ request, action ≠ .request request)
    (unended : ¬Ended element since final) (reached : run step server actions = some final) :
    ∀ action ∈ actions, action.undoes = false := by
  intro action member
  obtain ⟨before, after, split⟩ := List.append_of_mem member
  subst split
  obtain ⟨middle, onward, rest⟩ := (run_append_iff _ _ _ _ _).mp reached
  obtain ⟨next, stepped, further⟩ := (run_cons_iff _ _ _ _ _).mp rest
  have earlier : ∀ action ∈ before, ∀ request, action ≠ .request request :=
    fun action member => quiet action (List.mem_append_left _ member)
  rcases run_running element since server middle before valid earlier onward with
    running | ended
  · by_cases quit : action = .quit
    · rw [quit]
      rfl
    · exact (step_session middle next action running.session quit stepped).2
  · have keeps := fun state action next => step_ended element since state next action
    exact absurd (run_invariant_of_step keeps ended rest) unended

/-- The client answers notifyEOS by asking for the next track, before main has left its
loop; main then stops and replaces the pipeline that was asked. -/
def beforeNext : List Action :=
  startupRun ++
    [.setup true granted, .enterLoop, .request (.setFile "/a.mp3" (some "file:///a.mp3")),
      .request (.start granted), .post 0 .eos, .pop 0, .notify, .quit]

def restart : List Action :=
  [.leaveLoop, .stop granted, .teardown, .setup true granted]

theorem next_track_lost :
    ∃ asked starting final,
      Acknowledged beforeNext [] restart "/b.mp3" "file:///b.mp3" granted asked starting final ∧
        ¬Plays final "file:///b.mp3" := by
  refine ⟨_, _, _, ⟨rfl, rfl, rfl, rfl, rfl, nofun, ?_, ?_⟩, ?_⟩
  · intro action member request asked
    subst asked
    simp [restart] at member
  · decide
  · rintro ⟨element, held, uri, -⟩
    have same : some 1 = some element := held
    rw [Option.some.injEq] at same
    subst same
    exact absurd uri (by decide)

/-- The URI that was set is played right after the start if the start reached the
pipeline that setFile reached, and cannot be played any more if it did not. -/
theorem started_plays (pre mid post : List Action) (path uri : String) (change : StateChange)
    (asked starting final : Server)
    (acknowledged : Acknowledged pre mid post path uri change asked starting final) :
    ∃ started, step starting (.request (.start change)) = some started ∧
      run step started post = some final ∧
      (starting.element = asked.element → Plays started uri) ∧
      (starting.element ≠ asked.element → Undone started) := by
  obtain ⟨loaded, toLoaded, toStarting⟩ := (run_cons_iff _ _ _ _ _).mp acknowledged.between
  obtain ⟨started, toStarted, toFinal⟩ := (run_cons_iff _ _ _ _ _).mp acknowledged.after
  have held := run_invariant_of_step step_held initial_held acknowledged.before
  have held' := step_held asked _ loaded held toLoaded
  obtain ⟨-, served, element, present, -⟩ :=
    reply_step asked loaded _ acknowledged.setFile toLoaded
  have same : loaded.element = some element := by
    rw [step_element asked loaded _ toLoaded rfl, present]
  have existing := held'.created element same
  have given : (loaded.playbin element).uri = some uri := by
    rw [served, playbin, gst, serve_held asked _ element present]
    rfl
  obtain ⟨-, answered, reached, found, granted⟩ :=
    reply_step starting started _ acknowledged.start toStarted
  have after : started.playbin reached = ((starting.playbin reached).serve (.start change)).1 := by
    rw [answered, playbin, gst, serve_held starting _ reached found]
  have still : started.element = some reached := by
    rw [step_element starting started _ toStarted rfl, found]
  have startUri : (started.playbin reached).uri = (starting.playbin reached).uri := by
    rw [after, Playbin.serve_uri _ _ (fun _ _ same => by cases same)]
  refine ⟨started, toStarted, toFinal, fun unmoved => ?_, fun moved => ?_⟩
  · rw [found, present, Option.some.injEq] at unmoved
    subst unmoved
    have kept :=
      run_uri loaded starting mid reached uri existing given acknowledged.lastFile toStarting
    refine ⟨reached, still, startUri.trans kept, ?_⟩
    rw [after]
    exact Playbin.serve_start _ change granted
  · have first : Elsewhere element loaded := by
      intro other present'
      rw [same, Option.some.injEq] at present'
      exact Or.inl present'.symm
    have elsewhere :=
      run_elsewhere element loaded starting mid held' first acknowledged.lastFile toStarting
    intro other present'
    rw [still, Option.some.injEq] at present'
    subst present'
    rcases elsewhere reached found with here | absent
    · rw [found, here, present] at moved
      exact absurd rfl moved
    · exact Or.inl (startUri.trans absent)

/-- After an undisturbed start main undoes nothing before an EOS or ERROR that the started
pipeline posts later. -/
theorem undisturbed_untouched (pre mid post : List Action) (path uri : String)
    (change : StateChange) (asked starting final : Server)
    (acknowledged : Acknowledged pre mid post path uri change asked starting final)
    (undisturbed : Undisturbed asked starting) :
    ∀ action ∈ post, action.undoes = false := by
  obtain ⟨started, toStarted, toFinal⟩ := (run_cons_iff _ _ _ _ _).mp acknowledged.after
  have traced : Traced starting := by
    have first := run_invariant_of_step step_traced initial_traced acknowledged.before
    exact run_invariant_of_step step_traced first acknowledged.between
  obtain ⟨-, -, element, found, -⟩ := reply_step starting started _ acknowledged.start toStarted
  have running := start_running asked starting started change element traced undisturbed found
    acknowledged.start toStarted
  have unended : ¬Ended element starting.gst.posted final := by
    rintro ⟨message, done, src, later⟩
    have earlier := acknowledged.unended message done (by rw [found, src])
    omega
  exact undoes_of_running element starting.gst.posted started final post running
    acknowledged.lastRequest unended toFinal

/-- In every run, an acknowledged setFile and start are in force in the end exactly if
the start reached the pipeline that setFile reached and main has undone nothing since.
So it is whenever the start was undisturbed. -/
theorem acknowledged_plays_iff (pre mid post : List Action) (path uri : String)
    (change : StateChange) (asked starting final : Server)
    (acknowledged : Acknowledged pre mid post path uri change asked starting final) :
    (Plays final uri ↔
      starting.element = asked.element ∧ ∀ action ∈ post, action.undoes = false) ∧
    (Undisturbed asked starting → Plays final uri) := by
  obtain ⟨started, -, toFinal, unmoved, moved⟩ :=
    started_plays pre mid post path uri change asked starting final acknowledged
  have quiet := acknowledged.lastRequest
  have inForce : starting.element = asked.element → (∀ action ∈ post, action.undoes = false) →
      Plays final uri :=
    fun same others => run_plays started final post uri (unmoved same) quiet others toFinal
  refine ⟨⟨fun plays => ⟨?_, ?_⟩, fun both => inForce both.1 both.2⟩, fun undisturbed => ?_⟩
  · by_contra differ
    have undone := run_undone started final post (moved differ) quiet toFinal
    exact not_plays_of_undone final uri undone plays
  · intro action member
    by_contra undoes
    rw [Bool.not_eq_false] at undoes
    obtain ⟨before, after, split⟩ := List.append_of_mem member
    rw [split] at toFinal
    obtain ⟨middle, -, rest⟩ := (run_append_iff _ _ _ _ _).mp toFinal
    obtain ⟨next, stepped, further⟩ := (run_cons_iff _ _ _ _ _).mp rest
    have later : ∀ action ∈ after, ∀ request, action ≠ .request request := by
      intro action member
      exact quiet action (by rw [split]; simp [member])
    have undone := undone_of_undoes middle next action undoes stepped
    exact not_plays_of_undone final uri (run_undone next final after undone later further) plays
  · exact inForce undisturbed.same
      (undisturbed_untouched pre mid post path uri change asked starting final acknowledged
        undisturbed)

def beforeFirst : List Action :=
  startupRun ++ [.setup true granted, .enterLoop]

/-- The track of the first session still plays while its EOS is being handled. -/
theorem first_track_plays :
    ∃ server, run step initial (beforeFirst ++
        [.request (.setFile "/a.mp3" (some "file:///a.mp3")), .tickPosition none,
          .tickDuration none, .request (.start granted), .post 0 .eos, .pop 0, .notify]) =
        some server ∧ Plays server "file:///a.mp3" := by
  refine ⟨_, rfl, ?_⟩
  refine (acknowledged_plays_iff beforeFirst [.tickPosition none, .tickDuration none]
    [.post 0 .eos, .pop 0, .notify] "/a.mp3" "file:///a.mp3" granted _ _ _
    ⟨rfl, rfl, rfl, rfl, rfl, ?_, ?_, nofun⟩).2 ⟨rfl, Or.inr ⟨rfl, rfl⟩, ?_, ?_⟩
  · intro action member path name asked
    subst asked
    simp at member
  · intro action member request asked
    subst asked
    simp at member
  · decide
  · intro element orphan
    cases element with
    | zero => exact absurd rfl orphan
    | succ element => exact ⟨rfl, rfl⟩

end MediaplayerServer.Server
