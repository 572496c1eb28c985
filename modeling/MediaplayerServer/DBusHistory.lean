import MediaplayerServer.DBusSession
import MediaplayerServer.ServerRefinement

set_option autoImplicit false

namespace MediaplayerServer.DBus

open Linearizability Transition

namespace Bus

theorem forall_setClient (property : Nat → Client → Prop) (bus : Bus) (number : Nat)
    (client : Client) (others : ∀ other, property other (bus.client other))
    (own : property number client) (other : Nat) :
    property other ((bus.setClient number client).client other) := by
  by_cases same : other = number
  · subst same
    rw [setClient_self]
    exact own
  · rw [setClient_other _ _ _ _ same]
    exact others other

/-- A reply that ends a call is the first thing to be logged of its end. -/
theorem conclude_cases (bus : Bus) (number serial : Nat) (reply : Reply) :
    bus.conclude number serial reply = bus.log ∨
      ∃ ret, mediaplayerCallFinish reply = some ret ∧
        bus.conclude number serial reply =
          .event (.respond ⟨number, serial⟩ ret) :: bus.log := by
  unfold conclude
  split
  · split
    · rename_i ret finished
      exact Or.inr ⟨ret, finished, rfl⟩
    · exact Or.inl rfl
  · exact Or.inl rfl

/-- The serial numbers of a client's calls that have not been served, in the order in which
they will be. -/
def pending (bus : Bus) (number : Nat) : List Nat :=
  (bus.scheduled.filter fun invocation => invocation.id.sender = number).map
      (fun invocation => invocation.id.serial) ++
    (bus.client number).outgoing.map Prod.fst

/-- Every call that is on its way from the client was made. -/
def Made (log : CallLog) (number : Nat) (client : Client) : Prop :=
  ∀ call ∈ client.outgoing, .event (.invoke ⟨number, call.1⟩ call.2) ∈ log

/-- Every result that is on its way to the client is that of its call. -/
def Told (log : CallLog) (number : Nat) (client : Client) : Prop :=
  ∀ serial reply ret, (serial, reply) ∈ client.incoming →
    mediaplayerCallFinish reply = some ret → ∃ call, .effect ⟨⟨number, serial⟩, call, ret⟩ ∈ log

/-- Where the calls are that the log tells of. A call that is pending has been made and has
had no effect; a reply on its way tells the effect of its call. -/
structure Coherent (bus : Bus) : Prop where
  sane : Server.Sane bus.server
  sound : Sound bus.log
  known : ∀ entry ∈ bus.log, entry.id.sender < bus.connected ∧
    entry.id.serial < (bus.client entry.id.sender).nextSerial
  outgoing : ∀ number, Made bus.log number (bus.client number)
  scheduled : ∀ invocation ∈ bus.scheduled,
    .event (.invoke invocation.id invocation.call) ∈ bus.log ∧
      accept invocation.call = .ok invocation.info
  replied : ∀ number, Told bus.log number (bus.client number)
  ordered : ∀ number, (bus.pending number).Pairwise (· < ·)
  done : ∀ operation ∈ effects bus.log, ∀ serial ∈ bus.pending operation.id.sender,
    operation.id.serial < serial

theorem log_suffix (bus next : Bus) (action : Action) (stepped : step bus action = some next) :
    bus.log <:+ next.log := by
  cases stepped_of_step bus next action stepped with
  | sent number sent on => exact List.suffix_cons _ _
  | served answers invocation rest command server queue handled moved => exact List.suffix_cons _ _
  | replied number serial reply rest incoming =>
      show bus.log <:+ bus.conclude number serial reply
      rcases bus.conclude_cases number serial reply with same | ⟨ret, -, same⟩
      · exact same ▸ List.suffix_rfl
      · exact same ▸ List.suffix_cons _ _
  | _ => exact List.suffix_rfl

/-- Every entry is about a call that the log tells of already, but for a new call. -/
theorem log_cases (bus next : Bus) (action : Action) (coherent : Coherent bus)
    (stepped : step bus action = some next) (entry : LogEntry MessageId MethodCall Bool)
    (member : entry ∈ next.log) :
    (∃ old ∈ bus.log, old.id = entry.id) ∨
      ∃ number sent, action = .send number sent ∧ number < bus.connected ∧
        entry.id = ⟨number, (bus.client number).nextSerial⟩ := by
  cases stepped_of_step bus next action stepped with
  | sent number sent on =>
      rcases List.mem_cons.mp member with rfl | old
      · exact Or.inr ⟨number, sent, rfl, on, rfl⟩
      · exact Or.inl ⟨entry, old, rfl⟩
  | served answers invocation rest command server queue handled moved =>
      rcases List.mem_cons.mp member with rfl | old
      · have first : invocation ∈ bus.scheduled := by rw [queue]; exact List.mem_cons_self
        exact Or.inl ⟨_, (coherent.scheduled invocation first).1, rfl⟩
      · exact Or.inl ⟨entry, old, rfl⟩
  | replied number serial reply rest incoming =>
      rcases bus.conclude_cases number serial reply with same | ⟨ret, finished, same⟩
      · exact Or.inl ⟨entry, same ▸ member, rfl⟩
      · rcases List.mem_cons.mp (same ▸ member) with rfl | old
        · have first : (serial, reply) ∈ (bus.client number).incoming := by
            rw [incoming]
            exact List.mem_cons_self
          obtain ⟨call, effect⟩ := coherent.replied number serial reply ret first finished
          exact Or.inl ⟨_, effect, rfl⟩
        · exact Or.inl ⟨entry, old, rfl⟩
  | _ => exact Or.inl ⟨entry, member, rfl⟩

/-- Clients stay on the bus, and their serial numbers go up. -/
theorem serial_mono (bus next : Bus) (action : Action) (number : Nat)
    (stepped : step bus action = some next) (on : number < bus.connected) :
    bus.connected ≤ next.connected ∧
      (bus.client number).nextSerial ≤ (next.client number).nextSerial := by
  cases stepped_of_step bus next action stepped with
  | internal action server other moved =>
      exact ⟨Nat.le_refl _, Nat.le_refl _⟩
  | connected =>
      refine ⟨Nat.le_succ _, Nat.le_of_eq ?_⟩
      exact congrArg Client.nextSerial
        (setClient_other bus bus.connected number _ (Nat.ne_of_lt on)).symm
  | _ =>
      refine ⟨Nat.le_refl _, ?_⟩
      refine forall_setClient
        (fun other client => (bus.client other).nextSerial ≤ client.nextSerial) bus _ _
        (fun _ => Nat.le_refl _) ?_ number
      first | exact Nat.le_succ _ | exact Nat.le_refl _

theorem pending_sublist (bus next : Bus) (number : Nat)
    (queue : next.scheduled.Sublist bus.scheduled)
    (sent : (next.client number).outgoing.Sublist (bus.client number).outgoing) :
    (next.pending number).Sublist (bus.pending number) :=
  ((queue.filter _).map _).append (sent.map _)

theorem setClient_outgoing (bus : Bus) (number : Nat) (client : Client)
    (shorter : client.outgoing.Sublist (bus.client number).outgoing) (other : Nat) :
    ((bus.setClient number client).client other).outgoing.Sublist (bus.client other).outgoing :=
  forall_setClient (fun other client => client.outgoing.Sublist (bus.client other).outgoing)
    bus number client (fun _ => List.Sublist.refl _) shorter other

/-- The call at the head of the queue is the first pending one of its client. -/
theorem pending_head (bus : Bus) (invocation : Invocation) (rest : List Invocation)
    (queue : bus.scheduled = invocation :: rest) :
    bus.pending invocation.id.sender =
      invocation.id.serial :: { bus with scheduled := rest }.pending invocation.id.sender := by
  simp only [pending, queue, List.filter_cons, decide_true, ↓reduceIte, List.map_cons,
    List.cons_append]

/-- Calls stay pending in their order. -/
theorem step_pending (bus next : Bus) (action : Action) (number : Nat)
    (stepped : step bus action = some next) :
    (next.pending number).Sublist (bus.pending number) ∨
      (∃ sent, action = .send number sent) ∧
        next.pending number = bus.pending number ++ [(bus.client number).nextSerial] := by
  cases stepped_of_step bus next action stepped with
  | internal action server other moved =>
      exact Or.inl (List.Sublist.refl _)
  | connected =>
      refine Or.inl (pending_sublist bus _ number (List.Sublist.refl _) ?_)
      exact setClient_outgoing bus _ _ (List.nil_sublist _) number
  | sent sender sent on =>
      by_cases own : number = sender
      · subst own
        refine Or.inr ⟨⟨sent, rfl⟩, ?_⟩
        unfold pending
        dsimp only
        rw [setClient_self, List.map_append, List.append_assoc]
        rfl
      · refine Or.inl (pending_sublist bus _ number (List.Sublist.refl _) ?_)
        dsimp only
        rw [setClient_other _ _ _ _ own]
  | scheduled sender serial sent rest info outgoing arrived =>
      refine Or.inl ?_
      unfold pending
      dsimp only
      by_cases own : number = sender
      · subst own
        rw [setClient_self, outgoing, List.filter_append, List.map_append, List.append_assoc]
        simp
      · rw [setClient_other _ _ _ _ own, List.filter_append, List.map_append]
        simp [Ne.symm own]
  | refused sender serial sent rest error outgoing arrived =>
      refine Or.inl (pending_sublist bus _ number (List.Sublist.refl _) ?_)
      refine setClient_outgoing bus _ _ ?_ number
      rw [outgoing]
      exact List.sublist_cons_self _ _
  | served answers invocation rest command server queue handled moved =>
      refine Or.inl (pending_sublist bus _ number ?_ ?_)
      · rw [queue]
        exact List.sublist_cons_self _ _
      · refine setClient_outgoing bus _ _ ?_ number
        exact List.Sublist.refl _
  | unhandled answers invocation rest error queue handled =>
      refine Or.inl (pending_sublist bus _ number ?_ ?_)
      · rw [queue]
        exact List.sublist_cons_self _ _
      · refine setClient_outgoing bus _ _ ?_ number
        exact List.Sublist.refl _
  | _ =>
      refine Or.inl (pending_sublist bus _ number (List.Sublist.refl _) ?_)
      refine setClient_outgoing bus _ _ ?_ number
      exact List.Sublist.refl _

/-- A step that serves a call, and what it logs. -/
structure Serves (bus next : Bus) (answers : Answers) (invocation : Invocation)
    (command : Command) : Prop where
  pending : bus.pending invocation.id.sender =
    invocation.id.serial :: next.pending invocation.id.sender
  first : invocation ∈ bus.scheduled
  handled : mediaplayerSkeletonHandleMethodCall invocation.info invocation.call = .ok command
  moved : Server.step bus.server (.request (command.request answers)) = some next.server
  log : next.log = .effect ⟨invocation.id, invocation.call,
    bus.server.reply (command.request answers)⟩ :: bus.log

/-- Calls take effect where they are served, and nowhere else. -/
theorem step_effects (bus next : Bus) (action : Action) (stepped : step bus action = some next) :
    effects next.log = effects bus.log ∨
      ∃ answers invocation command, Serves bus next answers invocation command := by
  cases stepped_of_step bus next action stepped with
  | served answers invocation rest command server queue handled moved =>
      refine Or.inr ⟨answers, invocation, command, ?_, ?_, handled, moved, rfl⟩
      · rw [bus.pending_head invocation rest queue]
        unfold pending
        dsimp only
        rw [setClient_self]
        rfl
      · rw [queue]
        exact List.mem_cons_self
  | replied number serial reply rest incoming =>
      refine Or.inl ?_
      show effects (bus.conclude number serial reply) = effects bus.log
      rcases bus.conclude_cases number serial reply with same | ⟨ret, -, same⟩
      · rw [same]
      · rw [same, effects_event]
  | _ => exact Or.inl rfl

section Step

variable {bus next : Bus} {action : Action} (coherent : Coherent bus)
  (stepped : step bus action = some next)

include coherent stepped

theorem step_sane : Server.Sane next.server := by
  cases stepped_of_step bus next action stepped with
  | internal action server other moved =>
      exact Server.step_sane bus.server action server coherent.sane moved
  | served answers invocation rest command server queue handled moved =>
      exact Server.step_sane bus.server _ server coherent.sane moved
  | _ => exact coherent.sane

theorem step_known (entry : LogEntry MessageId MethodCall Bool) (member : entry ∈ next.log) :
    entry.id.sender < next.connected ∧
      entry.id.serial < (next.client entry.id.sender).nextSerial := by
  rcases log_cases bus next action coherent stepped entry member with
    ⟨old, before, same⟩ | ⟨number, sent, rfl, on, same⟩
  · obtain ⟨on, counted⟩ := coherent.known old before
    obtain ⟨more, higher⟩ := serial_mono bus next action old.id.sender stepped on
    rw [← same]
    exact ⟨Nat.lt_of_lt_of_le on more, Nat.lt_of_lt_of_le counted higher⟩
  · rw [same]
    cases stepped_of_step bus next _ stepped with
    | sent number sent on =>
        refine ⟨on, ?_⟩
        dsimp only
        rw [setClient_self]
        exact Nat.lt_succ_self _

theorem step_outgoing (number : Nat) : Made next.log number (next.client number) := by
  have kept : ∀ other, Made next.log other (bus.client other) := fun other call member =>
    (log_suffix bus next action stepped).subset (coherent.outgoing other call member)
  cases stepped_of_step bus next action stepped with
  | internal action server other moved => exact kept number
  | connected =>
      refine forall_setClient (Made _) bus _ _ kept (fun call member => ?_) number
      exact absurd member List.not_mem_nil
  | sent sender sent on =>
      refine forall_setClient (Made _) bus _ _ kept (fun call member => ?_) number
      rcases List.mem_append.mp member with before | last
      · exact kept sender call before
      · rw [List.mem_singleton.mp last]
        exact List.mem_cons_self
  | scheduled sender serial sent rest info outgoing arrived =>
      refine forall_setClient (Made _) bus _ _ kept (fun call member => ?_) number
      exact kept sender call (by rw [outgoing]; exact List.mem_cons_of_mem _ member)
  | refused sender serial sent rest error outgoing arrived =>
      refine forall_setClient (Made _) bus _ _ kept (fun call member => ?_) number
      exact kept sender call (by rw [outgoing]; exact List.mem_cons_of_mem _ member)
  | _ =>
      refine forall_setClient (Made _) bus _ _ kept ?_ number
      exact kept _

theorem step_scheduled :
    ∀ invocation ∈ next.scheduled,
      .event (.invoke invocation.id invocation.call) ∈ next.log ∧
        accept invocation.call = .ok invocation.info := by
  have kept : ∀ invocation ∈ bus.scheduled,
      .event (.invoke invocation.id invocation.call) ∈ next.log ∧
        accept invocation.call = .ok invocation.info := fun invocation member =>
    (coherent.scheduled invocation member).imp_left
      fun made => (log_suffix bus next action stepped).subset made
  cases stepped_of_step bus next action stepped with
  | scheduled number serial sent rest info outgoing arrived =>
      intro invocation member
      rcases List.mem_append.mp member with before | last
      · exact kept invocation before
      · rw [List.mem_singleton.mp last]
        have first : (serial, sent) ∈ (bus.client number).outgoing := by
          rw [outgoing]
          exact List.mem_cons_self
        refine ⟨coherent.outgoing number (serial, sent) first, ?_⟩
        unfold Bus.arrive at arrived
        split at arrived
        · exact arrived
        · cases arrived
  | served answers invocation rest command server queue handled moved =>
      exact fun other member => kept other (by rw [queue]; exact List.mem_cons_of_mem _ member)
  | unhandled answers invocation rest error queue handled =>
      exact fun other member => kept other (by rw [queue]; exact List.mem_cons_of_mem _ member)
  | _ => exact kept

theorem step_replied (number : Nat) : Told next.log number (next.client number) := by
  have kept : ∀ other, Told next.log other (bus.client other) :=
    fun other serial reply ret member finished =>
      (coherent.replied other serial reply ret member finished).imp
        fun call effect => (log_suffix bus next action stepped).subset effect
  cases stepped_of_step bus next action stepped with
  | internal action server other moved => exact kept number
  | connected =>
      refine forall_setClient (Told _) bus _ _ kept (fun serial reply ret member => ?_) number
      exact absurd member List.not_mem_nil
  | refused sender serial sent rest error outgoing arrived =>
      refine forall_setClient (Told _) bus _ _ kept ?_ number
      intro serial' reply ret member finished
      rcases List.mem_append.mp member with before | last
      · exact kept sender serial' reply ret before finished
      · cases List.mem_singleton.mp last
        cases finished
  | served answers invocation rest command server queue handled moved =>
      refine forall_setClient (Told _) bus _ _ kept ?_ number
      intro serial reply ret member finished
      rcases List.mem_append.mp member with before | last
      · exact kept invocation.id.sender serial reply ret before finished
      · unfold returnValue at last
        split at last
        · cases List.mem_singleton.mp last
          cases finished
          exact ⟨_, List.mem_cons_self⟩
        · exact absurd last List.not_mem_nil
  | unhandled answers invocation rest error queue handled =>
      refine forall_setClient (Told _) bus _ _ kept ?_ number
      intro serial reply ret member finished
      rcases List.mem_append.mp member with before | last
      · exact kept invocation.id.sender serial reply ret before finished
      · cases List.mem_singleton.mp last
        cases finished
  | replied sender serial reply rest incoming =>
      refine forall_setClient (Told _) bus _ _ kept ?_ number
      exact fun serial' reply' ret member => kept sender serial' reply' ret
        (by rw [incoming]; exact List.mem_cons_of_mem _ member)
  | _ =>
      refine forall_setClient (Told _) bus _ _ kept ?_ number
      exact kept _

omit stepped in
theorem pending_below (number serial : Nat) (waits : serial ∈ bus.pending number) :
    serial < (bus.client number).nextSerial := by
  rcases List.mem_append.mp waits with inside | inside
  · obtain ⟨invocation, member, rfl⟩ := List.mem_map.mp inside
    obtain ⟨first, own⟩ := List.mem_filter.mp member
    obtain ⟨-, counted⟩ := coherent.known _ (coherent.scheduled invocation first).1
    rw [← of_decide_eq_true own]
    exact counted
  · obtain ⟨call, member, rfl⟩ := List.mem_map.mp inside
    exact (coherent.known _ (coherent.outgoing number call member)).2

theorem step_ordered (number : Nat) : (next.pending number).Pairwise (· < ·) := by
  rcases step_pending bus next action number stepped with shorter | ⟨-, longer⟩
  · exact (coherent.ordered number).sublist shorter
  · rw [longer, List.pairwise_append]
    refine ⟨coherent.ordered number, List.pairwise_singleton _ _, ?_⟩
    intro serial waits latest last
    rw [List.mem_singleton.mp last]
    exact pending_below coherent number serial waits

theorem step_done (operation : Effect MessageId MethodCall Bool)
    (member : operation ∈ effects next.log) (serial : Nat)
    (waits : serial ∈ next.pending operation.id.sender) : operation.id.serial < serial := by
  have old : operation ∈ effects bus.log → operation.id.serial < serial := by
    intro before
    rcases step_pending bus next action operation.id.sender stepped with shorter | ⟨-, longer⟩
    · exact coherent.done operation before serial (shorter.subset waits)
    · rw [longer] at waits
      rcases List.mem_append.mp waits with inside | last
      · exact coherent.done operation before serial inside
      · rw [List.mem_singleton.mp last]
        exact (coherent.known _ ((mem_effects_iff _ _).mp before)).2
  rcases step_effects bus next action stepped with same | ⟨answers, invocation, command, serves⟩
  · exact old (same ▸ member)
  · rw [serves.log, effects_effect] at member
    rcases List.mem_append.mp member with before | last
    · exact old before
    · -- the call that is served now was the first pending one
      rw [List.mem_singleton.mp last] at waits ⊢
      have sorted := coherent.ordered invocation.id.sender
      rw [serves.pending, List.pairwise_cons] at sorted
      exact sorted.1 serial waits

theorem step_sound : Sound next.log := by
  cases stepped_of_step bus next action stepped with
  | sent number sent on =>
      refine ⟨coherent.sound, fun entry member same => ?_⟩
      obtain ⟨-, counted⟩ := coherent.known entry member
      rw [same] at counted
      exact Nat.lt_irrefl _ counted
  | served answers invocation rest command server queue handled moved =>
      have first : invocation ∈ bus.scheduled := by
        rw [queue]
        exact List.mem_cons_self
      refine ⟨coherent.sound, (coherent.scheduled invocation first).1, fun other done same => ?_⟩
      have later := coherent.done other done invocation.id.serial
      rw [same, bus.pending_head invocation rest queue] at later
      exact Nat.lt_irrefl _ (later List.mem_cons_self)
  | replied number serial reply rest incoming =>
      show Sound (bus.conclude number serial reply)
      rcases bus.conclude_cases number serial reply with same | ⟨ret, finished, same⟩
      · rw [same]
        exact coherent.sound
      · rw [same]
        refine ⟨coherent.sound, coherent.replied number serial reply ret ?_ finished⟩
        rw [incoming]
        exact List.mem_cons_self
  | _ => exact coherent.sound

end Step

theorem initial_coherent : Coherent initial where
  sane := Server.initial_sane
  sound := trivial
  known := List.forall_mem_nil _
  outgoing := fun _ _ member => absurd member List.not_mem_nil
  scheduled := List.forall_mem_nil _
  replied := fun _ _ _ _ member => absurd member List.not_mem_nil
  ordered := fun _ => List.Pairwise.nil
  done := List.forall_mem_nil _

theorem step_coherent (bus : Bus) (action : Action) (next : Bus) (coherent : Coherent bus)
    (stepped : step bus action = some next) : Coherent next where
  sane := step_sane coherent stepped
  sound := step_sound coherent stepped
  known := step_known coherent stepped
  outgoing := step_outgoing coherent stepped
  scheduled := step_scheduled coherent stepped
  replied := step_replied coherent stepped
  ordered := step_ordered coherent stepped
  done := step_done coherent stepped

/-- The calls of one client take effect in the order in which it made them. -/
def InOrder (order : List (Effect MessageId MethodCall Bool)) : Prop :=
  order.Pairwise fun first second =>
    first.id.sender = second.id.sender → first.id.serial < second.id.serial

theorem step_inOrder (bus : Bus) (action : Action) (next : Bus) (coherent : Coherent bus)
    (inOrder : InOrder (effects bus.log)) (stepped : step bus action = some next) :
    InOrder (effects next.log) := by
  rcases step_effects bus next action stepped with same | ⟨answers, invocation, command, serves⟩
  · rw [same]
    exact inOrder
  · rw [serves.log, effects_effect, InOrder, List.pairwise_append]
    refine ⟨inOrder, List.pairwise_singleton _ _, ?_⟩
    intro first before second last own
    rw [List.mem_singleton.mp last] at own ⊢
    refine coherent.done first before invocation.id.serial ?_
    rw [own, serves.pending]
    exact List.mem_cons_self

/-- What a step is to the player, whatever it is that is called. -/
def Action.turn : Action → Option (Turn Unit)
  | .server action => action.turn
  | .dispatch answers => some (.served () answers)
  | _ => none

/-- The results are those of the player in this run: its sessions open, halt and close as main
makes them, GStreamer answers as it did, and it ends up with these settings. Only which command
is served each time is left to the trace. -/
def Legal (actions : List Action) (player : Player) (trace : List (MethodCall × Bool)) : Prop :=
  ∃ turns : List (Turn Command), turns.map (Turn.map fun _ => ()) = actions.filterMap Action.turn ∧
    Player.after none turns = player ∧
    trace = (Player.results none turns).map fun served => (call served.1, served.2)

section Legal

variable {actions : List Action} {player : Player} {trace : List (MethodCall × Bool)}
  (legal : Legal actions player trace)

include legal

theorem Legal.still (action : Action) (silent : action.turn = none) :
    Legal (actions ++ [action]) player trace := by
  obtain ⟨turns, shape, reaches, same⟩ := legal
  refine ⟨turns, ?_, reaches, same⟩
  rw [List.filterMap_append, shape, List.filterMap_cons_none silent, List.filterMap_nil,
    List.append_nil]

theorem Legal.turned (action : Action) (turn : Turn Command)
    (shown : action.turn = some (turn.map fun _ => ())) :
    Legal (actions ++ [action]) (player.turn turn)
      (trace ++ (player.told turn).toList.map fun served => (call served.1, served.2)) := by
  obtain ⟨turns, shape, rfl, rfl⟩ := legal
  refine ⟨turns ++ [turn], ?_, Player.after_concat none turns turn, ?_⟩
  · rw [List.filterMap_append, ← shape, List.map_append, List.filterMap_cons_some shown]
    rfl
  · rw [Player.results_concat, List.map_append]

end Legal

/-- What the server has done is what the player has done, as clients can tell it now. -/
def Explained (actions : List Action) (bus : Bus) : Prop :=
  Legal actions bus.server.view
    ((effects bus.log).map fun effect => (effect.op, effect.result))

/-- The handler that runs for a call is the one of its command. -/
theorem call_of_handled (sent : MethodCall) (info : MethodInfo) (command : Command)
    (accepted : accept sent = .ok info)
    (handled : mediaplayerSkeletonHandleMethodCall info sent = .ok command) :
    sent = call command := by
  obtain ⟨meant, rfl, rfl⟩ := (accept_iff sent info).mp accepted
  rw [handle_call, Except.ok.injEq] at handled
  rw [handled]

/-- What GDBus has let through has a handler. -/
theorem handled_of_scheduled {bus : Bus} (coherent : Coherent bus) {invocation : Invocation}
    {rest : List Invocation} (queue : bus.scheduled = invocation :: rest) (error : DBusError) :
    mediaplayerSkeletonHandleMethodCall invocation.info invocation.call ≠ .error error := by
  have first : invocation ∈ bus.scheduled := by
    rw [queue]
    exact List.mem_cons_self
  obtain ⟨meant, same, described⟩ := (accept_iff _ _).mp (coherent.scheduled invocation first).2
  rw [same, described, handle_call]
  nofun

theorem step_explained (actions : List Action) (bus : Bus) (action : Action) (next : Bus)
    (coherent : Coherent bus) (explained : Explained actions bus)
    (stepped : step bus action = some next) : Explained (actions ++ [action]) next := by
  cases stepped_of_step bus next action stepped with
  | internal action server other moved =>
      have view := Server.step_view bus.server server action (by rintro request rfl; cases other)
        moved
      cases own : (action.turn : Option (Turn Command)) with
      | none =>
          rw [own] at view
          have silent : (Action.server action).turn = none := by
            rw [Action.turn, action.turn_map (fun _ : Command => ()), own, Option.map_none]
          have onward := explained.still _ silent
          rwa [← show server.view = bus.server.view from view] at onward
      | some turn =>
          rw [own] at view
          have shown : (Action.server action).turn = some (turn.map fun _ => ()) := by
            rw [Action.turn, action.turn_map (fun _ : Command => ()), own, Option.map_some]
          have onward := explained.turned _ turn shown
          rw [action.turn_told turn own] at onward
          rw [Option.toList_none, List.map_nil, List.append_nil] at onward
          rwa [← show server.view = bus.server.view.turn turn from view] at onward
  | served answers invocation rest command server queue handled moved =>
      have first : invocation ∈ bus.scheduled := by
        rw [queue]
        exact List.mem_cons_self
      have sent := call_of_handled _ _ command (coherent.scheduled invocation first).2 handled
      have served := Server.request_view bus.server server answers command coherent.sane moved
      have onward := explained.turned (.dispatch answers) (.served command answers) rfl
      rw [Player.turn, Player.told, ← served] at onward
      unfold Explained
      rw [effects_effect, List.map_append, List.map_singleton, sent]
      exact onward
  | unhandled answers invocation rest error queue handled =>
      exact absurd handled (handled_of_scheduled coherent queue error)
  | replied number serial reply rest incoming =>
      have onward := explained.still (.deliver number) rfl
      unfold Explained
      rcases bus.conclude_cases number serial reply with kept | ⟨ret, -, kept⟩
      · rw [show effects _ = effects bus.log from congrArg effects kept]
        exact onward
      · rw [show effects _ = effects bus.log from (congrArg effects kept).trans (effects_event _ _)]
        exact onward
  | _ => exact explained.still _ rfl

/-- The service is linearizable: in every run, whatever the interleaving of its clients, the
bus and the server's own threads, the calls' results are those of a player that serves one
command at a time between the openings and closings of its sessions by main, with GStreamer's
answers as they were, and that ends up with the server's settings. The order agrees with what
the clients saw of the calls' begin and end, and has each client's calls in the order in which
it made them. -/
theorem service_linearizable (actions : List Action) (bus : Bus)
    (reached : run step initial actions = some bus) :
    Linearization (Legal actions bus.server.view) (history bus.log) (effects bus.log) ∧
      InOrder (effects bus.log) := by
  have keeps : ∀ actions bus action next,
      Coherent bus ∧ InOrder (effects bus.log) ∧ Explained actions bus →
        step bus action = some next →
          Coherent next ∧ InOrder (effects next.log) ∧ Explained (actions ++ [action]) next := by
    rintro actions bus action next ⟨coherent, inOrder, explained⟩ stepped
    exact ⟨step_coherent bus action next coherent stepped,
      step_inOrder bus action next coherent inOrder stepped,
      step_explained actions bus action next coherent explained stepped⟩
  have start : Coherent initial ∧ InOrder (effects initial.log) ∧ Explained [] initial :=
    ⟨initial_coherent, List.Pairwise.nil, [], rfl, rfl, rfl⟩
  obtain ⟨coherent, inOrder, explained⟩ := run_invariant_of_trace keeps start reached
  exact ⟨coherent.sound.linearization explained, inOrder⟩

/-- Whatever is asked of GStreamer succeeds. -/
def obliging : Answers := ⟨Server.granted, some 0, true, some "file:///a.mp3"⟩

/-- Two clients whose calls overlap; the later one is served first. -/
def twoClients : List Action :=
  Server.startupRun.map .server ++
    [.server (.setup true Server.granted), .server .enterLoop, .connect, .connect,
      .send 0 (call (.setFile "/a.mp3")), .send 1 (call .start), .arrive 1, .arrive 0,
      .dispatch obliging, .dispatch obliging, .deliver 0, .deliver 1]

theorem two_clients_linearized :
    ∃ bus, run step initial twoClients = some bus ∧
      Linearization (Legal twoClients bus.server.view) (history bus.log) (effects bus.log) ∧
        InOrder (effects bus.log) :=
  ⟨_, rfl, service_linearizable twoClients _ rfl⟩

end Bus

end MediaplayerServer.DBus
