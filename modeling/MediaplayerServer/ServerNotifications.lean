import MediaplayerServer.ServerMessages
import MediaplayerServer.ServerOrphans

set_option autoImplicit false

namespace MediaplayerServer.Server

open Transition

/-- The messages taken off a bus to end a session, latest first. -/
def taken (server : Server) : List GstMessage := server.inHand.toList ++ server.handled

/-- Those of them whose signal has been emitted. -/
def announced (server : Server) : List GstMessage :=
  match server.dispatcher with
  | .quitting message => message :: server.handled
  | _ => server.handled

/-- The two ways to send the held pipeline to NULL: the client's and main's. -/
def Action.stops : Action → Bool
  | .request (.stop _) => true
  | .stop _ => true
  | _ => false

/-- The step sends the pipeline to NULL, which drops what is on its bus. -/
def Flushes (server : Server) (action : Action) (element : Nat) : Prop :=
  server.element = some element ∧ action.stops = true

instance (server : Server) (action : Action) (element : Nat) :
    Decidable (Flushes server action element) :=
  inferInstanceAs (Decidable (_ ∧ _))

/-- Everything a step can do to the messages on one bus. -/
inductive QueueChange (server next : Server) (action : Action) (element : Nat) : Prop
  | kept (result : (next.playbin element).queue = (server.playbin element).queue)
  | dropped (flushes : Flushes server action element) (result : (next.playbin element).queue = [])
  | fresh (uncreated : element = server.gst.created) (result : (next.playbin element).queue = [])
  | popped (message : GstMessage) (asked : action = .pop element)
      (queue : (server.playbin element).queue = message :: (next.playbin element).queue)
  | posted (type : GstMessageType) (asked : action = .post element type)
      (counted : next.gst.posted = server.gst.posted + 1)
      (result : (next.playbin element).queue =
        (server.playbin element).queue ++ [⟨element, server.gst.posted, type⟩])

theorem gstElementSetState_queue (playbin : Playbin) (target : GstState) (change : StateChange)
    (other : target ≠ .null) :
    (playbin.gstElementSetState target change).1.queue = playbin.queue := by
  unfold Playbin.gstElementSetState
  rw [if_neg other]
  split <;> rfl

theorem serve_queue_kept (playbin : Playbin) (request : Request)
    (other : ∀ change, request ≠ .stop change) :
    (playbin.serve request).1.queue = playbin.queue := by
  cases request with
  | start change => exact gstElementSetState_queue playbin .playing change nofun
  | pause change => exact gstElementSetState_queue playbin .paused change nofun
  | stop change => exact absurd rfl (other change)
  | seek secs done =>
      obtain ⟨_, _, same⟩ :=
        playbin.gstElementSeekSimple_cases (secs.toNat * MediaPlayer.gstSecond) done
      rw [Playbin.serve, same]
  | setRate rate position done =>
      obtain ⟨_, _, same⟩ := playbin.sendSeekEvent_cases rate position done
      rw [Playbin.serve, same]
  | setFile path uri => rfl

theorem step_queue (server next : Server) (action : Action) (element : Nat)
    (stepped : step server action = some next) : QueueChange server next action element := by
  rcases step_playbin server next action element stepped with
    result | ⟨request, held, asked, result⟩ | ⟨ready, -, fresh, result⟩ |
      ⟨message, rest, asked, queue, result⟩ | ⟨type, asked, -, result⟩
  · exact .kept (by rw [result])
  · by_cases stops : ∃ change, request = .stop change
    · obtain ⟨change, rfl⟩ := stops
      refine .dropped ⟨held, ?_⟩ (by rw [result]; rfl)
      rcases asked with rfl | ⟨other, rfl, -⟩ <;> rfl
    · exact .kept (by rw [result, serve_queue_kept _ _ fun change same => stops ⟨change, same⟩])
  · exact .fresh fresh (by rw [result, Playbin.installed_queue])
  · exact .popped message asked (by rw [queue, result])
  · subst asked
    obtain ⟨-, rfl⟩ := (step_post_iff _ _ _ _).mp stepped
    exact .posted type rfl rfl (by rw [result])

/-- Only the watch takes a message, and it takes the oldest one of a bus. -/
theorem taken_cases (server next : Server) (action : Action)
    (stepped : step server action = some next) :
    next.taken = server.taken ∨
      ∃ element message rest, action = .pop element ∧
        (server.playbin element).queue = message :: rest ∧ message.type.ends = true ∧
        next.taken = message :: server.taken := by
  rcases step_handling server next action stepped with
    ⟨hand, -, handled, -⟩ | ⟨-, hand, -, handled⟩ |
      ⟨element, message, rest, asked, -, queue, hand, -, handled⟩ |
      ⟨message, -, before, -, hand, -, handled⟩
  · exact Or.inl (by rw [taken, taken, hand, handled])
  · exact Or.inl (by rw [taken, taken, hand, handled])
  · have free : server.inHand = none := by
      subst asked
      obtain ⟨⟨free, -⟩, -⟩ := (step_pop_iff _ _ _).mp stepped
      exact inHand_of_free server free
    rw [taken, taken, hand, handled, free]
    by_cases ends : message.type.ends = true
    · exact Or.inr ⟨element, message, rest, asked, queue, ends, by rw [if_pos ends]; rfl⟩
    · exact Or.inl (by rw [if_neg ends])
  · exact Or.inl (by rw [taken, taken, hand, handled, before]; rfl)

/-- Of one pipeline, the first message was posted before the second. -/
def Earlier (first second : GstMessage) : Prop :=
  first.src = second.src → first.stamp < second.stamp

/-- The messages of each pipeline are taken and wait in the order they were posted in. -/
structure InOrder (server : Server) : Prop where
  traced : Traced server
  waiting : ∀ element, (server.playbin element).queue.Pairwise Earlier
  stamped : ∀ element, ∀ message ∈ (server.playbin element).queue,
    message.stamp < server.gst.posted
  before : ∀ message ∈ server.taken, ∀ element, ∀ later ∈ (server.playbin element).queue,
    Earlier message later
  old : ∀ message ∈ server.taken, message.stamp < server.gst.posted
  ending : ∀ message ∈ server.taken, message.type.ends = true
  taken : server.taken.Pairwise fun later message => Earlier message later

theorem initial_inOrder : InOrder initial :=
  ⟨initial_traced, fun _ => List.Pairwise.nil, nofun, nofun, nofun, nofun, List.Pairwise.nil⟩

/-- What waits on a bus after a step waited there before, or was just posted. -/
theorem step_waiting (server next : Server) (action : Action) (element : Nat)
    (stepped : step server action = some next) :
    ∀ message ∈ (next.playbin element).queue, message ∈ (server.playbin element).queue ∨
      ∃ type, action = .post element type ∧ message = ⟨element, server.gst.posted, type⟩ ∧
        next.gst.posted = server.gst.posted + 1 := by
  intro message waits
  rcases step_queue server next action element stepped with
    result | ⟨-, result⟩ | ⟨-, result⟩ | ⟨first, -, queue⟩ | ⟨type, asked, counted, result⟩
  · rw [result] at waits
    exact Or.inl waits
  · rw [result] at waits
    cases waits
  · rw [result] at waits
    cases waits
  · rw [queue]
    exact Or.inl (List.mem_cons_of_mem first waits)
  · rw [result, List.mem_append, List.mem_singleton] at waits
    exact waits.imp_right fun same => ⟨type, asked, same, counted⟩

theorem pop_queue (server next : Server) (element : Nat)
    (stepped : step server (.pop element) = some next) :
    (next.playbin element).queue = (server.playbin element).queue.tail := by
  obtain ⟨-, message, rest, queue, rfl⟩ := (step_pop_iff _ _ _).mp stepped
  exact congrArg Playbin.queue (Gst.set_self server.gst element _)

/-- What a step takes off a bus was there before everything that still waits there. -/
theorem popped_before (server next : Server) (element : Nat) (message : GstMessage)
    (rest : List GstMessage) (valid : InOrder server)
    (stepped : step server (.pop element) = some next)
    (queue : (server.playbin element).queue = message :: rest) (other : Nat) :
    ∀ later ∈ (next.playbin other).queue, Earlier message later := by
  intro later waits same
  have traced := step_traced server (.pop element) next valid.traced stepped
  have source := valid.traced.queue element message (by rw [queue]; exact List.mem_cons_self)
  obtain rfl : element = other := by rw [← source, same, traced.queue other later waits]
  have order := valid.waiting element
  rw [queue, List.pairwise_cons] at order
  rw [pop_queue server next element stepped, queue, List.tail_cons] at waits
  exact order.1 later waits same

theorem step_inOrder (server : Server) (action : Action) (next : Server) (valid : InOrder server)
    (stepped : step server action = some next) : InOrder next := by
  have grows := posted_le server next action stepped
  have waits := fun element => step_waiting server next action element stepped
  have takes := taken_cases server next action stepped
  refine ⟨step_traced server action next valid.traced stepped, ?_, ?_, ?_, ?_, ?_, ?_⟩
  · intro element
    have order := valid.waiting element
    rcases step_queue server next action element stepped with
      result | ⟨-, result⟩ | ⟨-, result⟩ | ⟨first, -, queue⟩ | ⟨type, -, -, result⟩
    · rwa [result]
    · rw [result]
      exact List.Pairwise.nil
    · rw [result]
      exact List.Pairwise.nil
    · rw [queue] at order
      exact (List.pairwise_cons.mp order).2
    · rw [result, List.pairwise_append]
      refine ⟨order, List.pairwise_singleton _ _, fun message before last new => ?_⟩
      rw [List.mem_singleton.mp new]
      exact fun _ => valid.stamped element message before
  · intro element message waiting
    rcases waits element message waiting with before | ⟨type, -, rfl, counted⟩
    · exact Nat.lt_of_lt_of_le (valid.stamped element message before) grows
    · rw [counted]
      exact Nat.lt_succ_self _
  · have kept : ∀ message ∈ server.taken, ∀ element,
        ∀ later ∈ (next.playbin element).queue, Earlier message later := by
      intro message done element later waiting
      rcases waits element later waiting with before | ⟨type, -, rfl, -⟩
      · exact valid.before message done element later before
      · exact fun _ => valid.old message done
    rcases takes with same | ⟨popped, first, rest, rfl, queue, -, same⟩
    · rwa [same]
    · rw [same]
      exact List.forall_mem_cons.mpr
        ⟨popped_before server next popped first rest valid stepped queue, kept⟩
  · have kept : ∀ message ∈ server.taken, message.stamp < next.gst.posted := fun message done =>
      Nat.lt_of_lt_of_le (valid.old message done) grows
    rcases takes with same | ⟨popped, first, rest, -, queue, -, same⟩
    · rwa [same]
    · rw [same]
      refine List.forall_mem_cons.mpr ⟨Nat.lt_of_lt_of_le ?_ grows, kept⟩
      exact valid.stamped popped first (by rw [queue]; exact List.mem_cons_self)
  · rcases takes with same | ⟨-, first, -, -, -, ends, same⟩
    · rw [same]
      exact valid.ending
    · rw [same]
      exact List.forall_mem_cons.mpr ⟨ends, valid.ending⟩
  · rcases takes with same | ⟨popped, first, rest, -, queue, -, same⟩
    · rw [same]
      exact valid.taken
    · rw [same]
      refine List.pairwise_cons.mpr ⟨fun message done => ?_, valid.taken⟩
      exact valid.before message done popped first (by rw [queue]; exact List.mem_cons_self)

/-- The skeleton of the mediaplayer interface exists, so signals go out. -/
abbrev exported (server : Server) : Bool := server.handshake.mMediaplayerInterface

/-- The signal that tells the client of a message. -/
def notice (message : GstMessage) : Option Signal :=
  match message.type with
  | .error text => some (.notifyError text)
  | .eos => some .notifyEOS
  | .stateChanged _ => none
  | .other => none

def tellsEnd : Signal → Bool
  | .notifyProgress _ _ => false
  | .notifyError _ => true
  | .notifyEOS => true

/-- The signals that tell of the end of a session, latest first. -/
def endings (server : Server) : List Signal := server.signals.filter tellsEnd

theorem emit_endings (server : Server) (signal : Signal) :
    (server.emit signal).filter tellsEnd =
      (if server.exported = true ∧ tellsEnd signal = true then [signal] else []) ++
        server.endings := by
  unfold emit endings exported
  cases server.handshake.mMediaplayerInterface <;> cases ends : tellsEnd signal <;> simp [ends]

theorem notification_endings (server : Server) (message : GstMessage) :
    (server.notification message).filter tellsEnd =
      (if server.exported = true then (notice message).toList else []) ++ server.endings := by
  unfold notification notice
  cases message.type with
  | error text => rw [emit_endings]; simp [tellsEnd]
  | eos => rw [emit_endings]; simp [tellsEnd]
  | stateChanged new => simp [endings]
  | other => simp [endings]

theorem progress_endings (server : Server) (position duration : Int) :
    (server.progress position duration).filter tellsEnd = server.endings := by
  unfold progress
  split
  · rw [emit_endings]
    simp [tellsEnd]
  · rfl

/-- Everything a step can do to what has been announced and to the signals that tell of it. -/
inductive AnnouncedChange (server next : Server) (action : Action) : Prop
  | kept (announced : next.announced = server.announced) (endings : next.endings = server.endings)
      (exported : server.exported = true → next.exported = true) (other : action ≠ .notify)
  | notified (message : GstMessage) (asked : action = .notify)
      (announced : next.announced = message :: server.announced)
      (endings : next.endings =
        (if server.exported = true then (notice message).toList else []) ++ server.endings)
      (exported : next.exported = server.exported)

theorem handshake_exported (state next : Handshake.State) (action : Handshake.Action)
    (stepped : Handshake.step state action = some next)
    (before : state.mMediaplayerInterface = true) : next.mMediaplayerInterface = true := by
  cases action <;>
    simp only [Handshake.step, Option.ite_none_right_eq_some, Option.some.injEq] at stepped <;>
    obtain ⟨-, rfl⟩ := stepped
  case onMediaplayerBusAcquired => rfl
  all_goals exact before

theorem announced_of_free (server : Server) (free : server.free) :
    server.announced = server.handled := by
  simp only [announced, free.1]

theorem step_announced (server next : Server) (action : Action)
    (stepped : step server action = some next) : AnnouncedChange server next action := by
  cases stepped_of_step server next action stepped with
  | startup inner handshake begins moved =>
      exact .kept rfl rfl (handshake_exported _ _ inner moved) nofun
  | begun position free installed registered =>
      exact .kept (announced_of_free server free).symm rfl id nofun
  | ended duration read ticking =>
      refine .kept ?_ (progress_endings server _ _) id nofun
      simp only [announced, ticking]
  | popped element message rest free created watch queue =>
      refine .kept ?_ rfl id nofun
      rw [announced_of_free server free]
      cases ends : message.type.ends <;> rfl
  | notified message busy =>
      refine .notified message rfl ?_ (notification_endings server message) rfl
      simp only [announced, busy]
  | quit message busy =>
      refine .kept ?_ rfl id nofun
      simp only [announced, busy]
  | _ => exact .kept rfl rfl id nofun

/-- Every announced message has its signal, in the same order; only before there is a
skeleton are signals lost. -/
structure Told (server : Server) : Prop where
  latest : ∃ lost, server.announced.filterMap notice = server.endings ++ lost
  silent : server.exported = false → server.endings = []

theorem initial_told : Told initial := ⟨⟨[], rfl⟩, fun _ => rfl⟩

theorem filterMap_notice_cons (message : GstMessage) (rest : List GstMessage) :
    (message :: rest).filterMap notice = (notice message).toList ++ rest.filterMap notice := by
  cases told : notice message with
  | none => rw [List.filterMap_cons_none told]; rfl
  | some signal => rw [List.filterMap_cons_some told]; rfl

theorem step_told (server : Server) (action : Action) (next : Server) (valid : Told server)
    (stepped : step server action = some next) : Told next := by
  obtain ⟨⟨lost, latest⟩, silent⟩ := valid
  rcases step_announced server next action stepped with
    ⟨announced, endings, exported, -⟩ | ⟨message, -, announced, endings, exported⟩
  · constructor
    · exact ⟨lost, by rw [announced, endings, latest]⟩
    · intro absent
      rw [endings]
      refine silent ?_
      rw [← Bool.not_eq_true] at absent ⊢
      exact absent ∘ exported
  · cases before : server.exported with
    | true =>
        rw [before, if_pos rfl] at endings
        refine ⟨⟨lost, ?_⟩, fun absent => ?_⟩
        · rw [announced, filterMap_notice_cons, latest, endings, List.append_assoc]
        · rw [exported, before] at absent
          cases absent
    | false =>
        rw [before, if_neg Bool.false_ne_true, silent before, List.append_nil] at endings
        refine ⟨⟨(notice message).toList ++ lost, ?_⟩, fun _ => endings⟩
        rw [announced, filterMap_notice_cons, latest, endings, silent before]
        rfl

/-- Nothing is announced before there is a skeleton. -/
def Heard (server : Server) : Action → Prop
  | .notify => server.exported = true
  | _ => True

instance (server : Server) (action : Action) : Decidable (Heard server action) := by
  unfold Heard
  split <;> infer_instance

/-- Every announced message has its signal. -/
def AllTold (server : Server) : Prop := server.announced.filterMap notice = server.endings

theorem step_allTold (server : Server) (action : Action) (next : Server) (valid : AllTold server)
    (heard : Heard server action) (stepped : step server action = some next) : AllTold next := by
  rcases step_announced server next action stepped with
    ⟨announced, endings, -, -⟩ | ⟨message, rfl, announced, endings, -⟩
  · rw [AllTold, announced, endings]
    exact valid
  · have skeleton : server.exported = true := heard
    rw [if_pos skeleton] at endings
    rw [AllTold, announced, filterMap_notice_cons, endings, valid]

/-- The messages that have not been announced yet are at most the one in hand. -/
theorem taken_eq (server : Server) :
    server.taken = server.announced ∨ ∃ message, server.taken = message :: server.announced := by
  unfold taken announced inHand
  cases server.dispatcher with
  | notifying message => exact Or.inr ⟨message, rfl⟩
  | _ => exact Or.inl rfl

theorem nodup_of_earlier (messages : List GstMessage)
    (order : messages.Pairwise fun later message => Earlier message later) : messages.Nodup := by
  refine order.imp fun {later message} earlier same => ?_
  subst same
  exact Nat.lt_irrefl _ (earlier rfl)

/-- The message is on its way: it waits on its bus, or has been taken if it ends a session. -/
def Arrives (message : GstMessage) (server : Server) : Prop :=
  message.src < server.gst.created ∧
    (message ∈ (server.playbin message.src).queue ∨
      (message.type.ends = true → message ∈ server.taken))

theorem taken_mono (server next : Server) (action : Action)
    (stepped : step server action = some next) (message : GstMessage)
    (done : message ∈ server.taken) : message ∈ next.taken := by
  rcases taken_cases server next action stepped with same | ⟨-, first, -, -, -, -, same⟩
  · rwa [same]
  · rw [same]
    exact List.mem_cons_of_mem first done

theorem pop_takes (server next : Server) (element : Nat) (message : GstMessage)
    (rest : List GstMessage) (stepped : step server (.pop element) = some next)
    (queue : (server.playbin element).queue = message :: rest)
    (ends : message.type.ends = true) : message ∈ next.taken := by
  obtain ⟨-, first, others, head, rfl⟩ := (step_pop_iff _ _ _).mp stepped
  obtain ⟨rfl, -⟩ := List.cons.inj (queue.symm.trans head)
  refine List.mem_append_left _ ?_
  simp only [inHand, if_pos ends, Option.toList_some, List.mem_singleton]

theorem step_arrives (message : GstMessage) (server : Server) (action : Action) (next : Server)
    (valid : Arrives message server) (kept : ¬Flushes server action message.src)
    (stepped : step server action = some next) : Arrives message next := by
  obtain ⟨created, waits | done⟩ := valid
  · refine ⟨Nat.lt_of_lt_of_le created (created_le server next action stepped), ?_⟩
    rcases step_queue server next action message.src stepped with
      result | ⟨flushes, -⟩ | ⟨fresh, -⟩ | ⟨first, asked, queue⟩ | ⟨type, -, -, result⟩
    · exact Or.inl (by rwa [result])
    · exact absurd flushes kept
    · exact absurd created (by rw [fresh]; exact Nat.lt_irrefl _)
    · rw [queue, List.mem_cons] at waits
      rcases waits with rfl | behind
      · subst asked
        exact Or.inr fun ends => pop_takes server next _ message _ stepped queue ends
      · exact Or.inl behind
    · exact Or.inl (by rw [result]; exact List.mem_append_left _ waits)
  · exact ⟨Nat.lt_of_lt_of_le created (created_le server next action stepped),
      Or.inr fun ends => taken_mono server next action stepped message (done ends)⟩

/-- A session with an EOS on its bus, and a second message behind it. -/
def midSession : Server :=
  (run step initial (startupRun ++ [.setup true granted, .enterLoop, .post 0 .eos])).getD initial

def lateError : Server := (step midSession (.post 0 (.error "late"))).getD initial

def sessionLeft : Server :=
  (run step lateError [.pop 0, .notify, .quit, .leaveLoop]).getD initial

end MediaplayerServer.Server
