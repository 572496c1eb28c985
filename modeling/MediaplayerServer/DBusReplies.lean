import MediaplayerServer.DBusHistory

set_option autoImplicit false

namespace MediaplayerServer.DBus

open Linearizability Transition

/-- The replies to a client, those on their way included. -/
def Client.answers (client : Client) : List (Nat × Reply) :=
  client.replies ++ client.incoming

/-- GDBus itself refuses the call: there is no object, or the call is none of the stubs'. -/
def Refuses (sent : MethodCall) (error : DBusError) : Prop :=
  error = .unknownObject ∨
    (error = .noSuchMethod ∨ error = .invalidArgs) ∧ ∀ command, sent ≠ call command

/-- What a reply tells of its call: the result it took effect with, or that it was refused and
took no effect. -/
def Tells (log : CallLog) (id : MessageId) : Reply → Prop
  | .ok values => ∃ sent ret, values = mediaplayerComplete ret ∧ .effect ⟨id, sent, ret⟩ ∈ log
  | .error error => (∃ sent, .event (.invoke id sent) ∈ log ∧ Refuses sent error) ∧
      ∀ effect ∈ effects log, effect.id ≠ id

theorem accept_error (sent : MethodCall) (error : DBusError)
    (refused : accept sent = .error error) : Refuses sent error := by
  refine Or.inr ⟨?_, fun command same => ?_⟩
  · unfold accept at refused
    split at refused
    · cases refused
      exact Or.inl rfl
    · split at refused
      · cases refused
      · cases refused
        exact Or.inr rfl
  · rw [same, accept_call] at refused
    cases refused

namespace Bus

/-- What a step does to the calls of one client: nothing but moving them on, a new client, a
new call, or the reply to one that was pending. -/
inductive Moves (bus next : Bus) (number : Nat) : Prop
  | kept
      (answers : (next.client number).answers.Perm (bus.client number).answers)
      (pending : next.pending number = bus.pending number)
      (serial : (next.client number).nextSerial = (bus.client number).nextSerial)
  | joined (answers : (next.client number).answers = []) (pending : next.pending number = [])
      (serial : (next.client number).nextSerial = 0)
  | sent
      (answers : (next.client number).answers = (bus.client number).answers)
      (pending : next.pending number = bus.pending number ++ [(bus.client number).nextSerial])
      (serial : (next.client number).nextSerial = (bus.client number).nextSerial + 1)
  | answered (serial : Nat) (reply : Reply)
      (answers : (next.client number).answers.Perm
        ((serial, reply) :: (bus.client number).answers))
      (pending : (bus.pending number).Perm (serial :: next.pending number))
      (same : (next.client number).nextSerial = (bus.client number).nextSerial)
      (truth : Tells next.log ⟨number, serial⟩ reply)

theorem answers_receive (client : Client) (serial : Nat) (reply : Reply) :
    (client.receive [(serial, reply)]).answers.Perm ((serial, reply) :: client.answers) := by
  rw [Client.answers, Client.receive, ← List.append_assoc]
  exact List.perm_append_singleton _ _

/-- What a step that is about one client leaves of the others. -/
structure Apart (bus next : Bus) (number : Nat) : Prop where
  client : next.client number = bus.client number
  scheduled : (next.scheduled.filter fun invocation => invocation.id.sender = number) =
    bus.scheduled.filter fun invocation => invocation.id.sender = number

/-- A step that is about one client moves no call of another. -/
theorem moves_of_own {bus next : Bus} (owner : Nat)
    (others : ∀ number, number ≠ owner → Apart bus next number)
    (own : Moves bus next owner) (number : Nat) : Moves bus next number := by
  by_cases same : number = owner
  · exact same ▸ own
  · obtain ⟨client, scheduled⟩ := others number same
    refine .kept (by rw [client]) ?_ (by rw [client])
    rw [pending, pending, client, scheduled]

theorem apart_of_setClient {bus next : Bus} {owner : Nat} {client : Client}
    (clients : next.client = (bus.setClient owner client).client)
    (scheduled : next.scheduled = bus.scheduled) (number : Nat) (differ : number ≠ owner) :
    Apart bus next number :=
  ⟨by rw [clients, setClient_other _ _ _ _ differ], by rw [scheduled]⟩

theorem own_of_setClient {bus next : Bus} {owner : Nat} {client : Client}
    (clients : next.client = (bus.setClient owner client).client) : next.client owner = client := by
  rw [clients, setClient_self]

/-- A client that has the same calls and answers as before, in other places. -/
theorem moves_of_kept {bus next : Bus} (owner : Nat) (client : Client)
    (clients : next.client = (bus.setClient owner client).client)
    (scheduled : next.scheduled = bus.scheduled)
    (answers : client.answers.Perm (bus.client owner).answers)
    (outgoing : client.outgoing = (bus.client owner).outgoing)
    (serial : client.nextSerial = (bus.client owner).nextSerial) (number : Nat) :
    Moves bus next number := by
  have same := own_of_setClient clients
  refine moves_of_own owner (apart_of_setClient clients scheduled) ?_ number
  refine .kept (by rw [same]; exact answers) ?_ (by rw [same, serial])
  rw [pending, pending, scheduled, same, outgoing]

section Step

variable {bus : Bus}

theorem connected_moves (coherent : Coherent bus) {next : Bus}
    (clients : next.client = (bus.setClient bus.connected .connecting).client)
    (scheduled : next.scheduled = bus.scheduled) (number : Nat) : Moves bus next number := by
  have same := own_of_setClient clients
  refine moves_of_own bus.connected (apart_of_setClient clients scheduled) ?_ number
  have unknown : (bus.scheduled.filter fun invocation =>
      invocation.id.sender = bus.connected) = [] := by
    refine List.filter_eq_nil_iff.mpr fun invocation member own => ?_
    obtain ⟨on, -⟩ := coherent.known _ (coherent.scheduled invocation member).1
    exact absurd (of_decide_eq_true own) (Nat.ne_of_lt on)
  refine .joined (by rw [same]; rfl) ?_ (by rw [same]; rfl)
  rw [pending, same, scheduled]
  exact congrArg (fun queue : List Invocation => queue.map (·.id.serial) ++ []) unknown

/-- A refused call has its reply, and takes no effect. -/
theorem refused_moves (coherent : Coherent bus) (sender serial : Nat) (sent : MethodCall)
    (rest : List (Nat × MethodCall)) (error : DBusError)
    (outgoing : (bus.client sender).outgoing = (serial, sent) :: rest)
    (arrived : bus.arrive sent = .error error) {next : Bus}
    (changed : next = bus.setClient sender
      (Client.receive { bus.client sender with outgoing := rest } [(serial, .error error)]))
    (number : Nat) : Moves bus next number := by
  have clients := congrArg Bus.client changed
  have same := own_of_setClient clients
  refine moves_of_own sender (apart_of_setClient clients (by rw [changed]; rfl)) ?_ number
  have first : (serial, sent) ∈ (bus.client sender).outgoing := by
    rw [outgoing]
    exact List.mem_cons_self
  refine .answered serial (.error error) ?_ ?_ (by rw [same]; rfl) ⟨⟨sent, ?_, ?_⟩, ?_⟩
  · rw [same]
    exact answers_receive _ serial _
  · rw [pending, pending, same, outgoing, changed]
    exact List.perm_middle
  · rw [changed]
    exact coherent.outgoing sender (serial, sent) first
  · unfold Bus.arrive at arrived
    split at arrived
    · exact accept_error sent error arrived
    · cases arrived
      exact Or.inl rfl
  · intro effect done same
    rw [changed] at done
    have waits : serial ∈ bus.pending effect.id.sender := by
      rw [same]
      exact List.mem_append_right _ (List.mem_map.mpr ⟨_, first, rfl⟩)
    have later := coherent.done effect done serial waits
    rw [same] at later
    exact Nat.lt_irrefl _ later

/-- A call that is served has its reply, with the result it takes effect with. -/
theorem served_moves (coherent : Coherent bus) {next : Bus} (invocation : Invocation)
    (rest : List Invocation) (ret : Bool) (queue : bus.scheduled = invocation :: rest)
    (clients : next.client = (bus.setClient invocation.id.sender
      ((bus.client invocation.id.sender).receive
        (returnValue invocation (mediaplayerComplete ret)))).client)
    (scheduled : next.scheduled = rest)
    (log : next.log = .effect ⟨invocation.id, invocation.call, ret⟩ :: bus.log) (number : Nat) :
    Moves bus next number := by
  have first : invocation ∈ bus.scheduled := by
    rw [queue]
    exact List.mem_cons_self
  have sent : returnValue invocation (mediaplayerComplete ret) =
      [(invocation.id.serial, .ok (mediaplayerComplete ret))] := by
    obtain ⟨meant, -, described⟩ := (accept_iff _ _).mp (coherent.scheduled invocation first).2
    refine if_pos ?_
    rw [described]
    exact method_fits meant ret
  have others : ∀ other, other ≠ invocation.id.sender →
      Apart bus next other := by
    intro other differ
    refine ⟨by rw [clients, setClient_other _ _ _ _ differ], ?_⟩
    rw [scheduled, queue, List.filter_cons, if_neg]
    simpa using differ.symm
  have same := own_of_setClient clients
  refine moves_of_own invocation.id.sender others ?_ number
  refine .answered invocation.id.serial (.ok (mediaplayerComplete ret)) ?_ ?_
    (by rw [same]; rfl) ⟨invocation.call, ret, rfl, by rw [log]; exact List.mem_cons_self⟩
  · rw [same, sent]
    exact answers_receive _ invocation.id.serial _
  · rw [bus.pending_head invocation rest queue, pending, pending, same, scheduled]
    exact List.Perm.refl _

/-- A new call is pending. -/
theorem sent_moves {next : Bus} (sender : Nat) (sent : MethodCall) {client : Client}
    (made : client = { bus.client sender with
      nextSerial := (bus.client sender).nextSerial + 1
      outgoing := (bus.client sender).outgoing ++ [((bus.client sender).nextSerial, sent)]
      waiting := (bus.client sender).nextSerial :: (bus.client sender).waiting })
    (clients : next.client = (bus.setClient sender client).client)
    (scheduled : next.scheduled = bus.scheduled) (number : Nat) : Moves bus next number := by
  have same := own_of_setClient clients
  refine moves_of_own sender (apart_of_setClient clients scheduled) ?_ number
  refine .sent (by rw [same, made]; rfl) ?_ (by rw [same, made])
  rw [pending, pending, same, scheduled, made, List.map_append, List.append_assoc]
  rfl

/-- A call that GDBus lets through is still pending. -/
theorem scheduled_moves {next : Bus} (invocation : Invocation) (rest : List (Nat × MethodCall))
    (outgoing : (bus.client invocation.id.sender).outgoing =
      (invocation.id.serial, invocation.call) :: rest)
    (clients : next.client = (bus.setClient invocation.id.sender
      { bus.client invocation.id.sender with outgoing := rest }).client)
    (scheduled : next.scheduled = bus.scheduled ++ [invocation]) (number : Nat) :
    Moves bus next number := by
  have same := own_of_setClient clients
  have others : ∀ other, other ≠ invocation.id.sender →
      Apart bus next other := by
    intro other differ
    refine ⟨by rw [clients, setClient_other _ _ _ _ differ], ?_⟩
    rw [scheduled, List.filter_append]
    simp [differ.symm]
  refine moves_of_own invocation.id.sender others ?_ number
  refine .kept (by rw [same]; exact List.Perm.refl _) ?_ (by rw [same])
  rw [pending, pending, same, outgoing, scheduled, List.filter_append, List.map_append,
    List.append_assoc]
  simp

theorem step_moves (coherent : Coherent bus) (next : Bus) (action : Action) (number : Nat)
    (stepped : step bus action = some next) : Moves bus next number := by
  cases stepped_of_step bus next action stepped with
  | internal action server other moved => exact .kept (List.Perm.refl _) rfl rfl
  | connected =>
      refine connected_moves coherent ?_ ?_ number
      all_goals rfl
  | sent sender sent on =>
      refine sent_moves sender sent rfl ?_ ?_ number
      all_goals rfl
  | scheduled sender serial sent rest info outgoing arrived =>
      refine scheduled_moves ⟨⟨sender, serial⟩, info, sent⟩ rest outgoing ?_ ?_ number
      all_goals rfl
  | refused sender serial sent rest error outgoing arrived =>
      exact refused_moves coherent sender serial sent rest error outgoing arrived rfl number
  | served answers invocation rest command server queue handled moved =>
      refine served_moves coherent invocation rest (bus.server.reply (command.request answers))
        queue ?_ ?_ ?_ number
      all_goals rfl
  | unhandled answers invocation rest error queue handled =>
      exact absurd handled (handled_of_scheduled coherent queue error)
  | replied sender serial reply rest incoming =>
      have answers : (Client.answers { bus.client sender with
          incoming := rest
          waiting := (bus.client sender).waiting.erase serial
          replies := (serial, reply) :: (bus.client sender).replies }).Perm
            (bus.client sender).answers := by
        rw [Client.answers, Client.answers, incoming]
        exact List.perm_middle.symm
      refine moves_of_kept sender _ ?_ ?_ answers ?_ ?_ number
      all_goals rfl
  | expired sender serial waits =>
      refine moves_of_kept sender { bus.client sender with
        waiting := (bus.client sender).waiting.erase serial } ?_ ?_ (List.Perm.refl _) ?_ ?_ number
      all_goals rfl

end Step

/-- Every serial number has its reply, or is pending. -/
def Accounted (bus : Bus) (number : Nat) : Prop :=
  ((bus.client number).answers.map Prod.fst ++ bus.pending number).Perm
    (List.range (bus.client number).nextSerial)

theorem step_accounted (bus next : Bus) (action : Action) (number : Nat) (coherent : Coherent bus)
    (accounted : Accounted bus number) (stepped : step bus action = some next) :
    Accounted next number := by
  unfold Accounted at accounted ⊢
  cases step_moves coherent next action number stepped with
  | kept answers pending serial =>
      rw [pending, serial]
      exact ((answers.map _).append_right _).trans accounted
  | joined answers pending serial =>
      rw [answers, pending, serial]
      exact List.Perm.refl _
  | sent answers pending serial =>
      rw [answers, pending, serial, List.range_succ, ← List.append_assoc]
      exact accounted.append_right _
  | answered serial reply answers pending same truth =>
      rw [same]
      have moved := (answers.map Prod.fst).append_right (next.pending number)
      have back : ((serial :: (bus.client number).answers.map Prod.fst) ++
          next.pending number).Perm
          ((bus.client number).answers.map Prod.fst ++ bus.pending number) :=
        List.perm_middle.symm.trans (pending.symm.append_left _)
      exact (moved.trans back).trans accounted

/-- A call that has its reply is not pending. -/
theorem answered_apart (bus : Bus) (number : Nat) (accounted : Accounted bus number)
    (serial : Nat) (reply : Reply) (member : (serial, reply) ∈ (bus.client number).answers) :
    serial ∉ bus.pending number := by
  have nodup := accounted.symm.nodup List.nodup_range
  intro waits
  exact (List.nodup_append.mp nodup).2.2 serial (List.mem_map.mpr ⟨_, member, rfl⟩) serial waits rfl

/-- What a reply told stays true: the log grows, and the call does not take effect again. -/
theorem tells_mono (bus next : Bus) (action : Action) (id : MessageId) (reply : Reply)
    (apart : id.serial ∉ bus.pending id.sender)
    (told : Tells bus.log id reply) (stepped : step bus action = some next) :
    Tells next.log id reply := by
  have grown := log_suffix bus next action stepped
  cases reply with
  | ok values =>
      obtain ⟨sent, ret, same, effect⟩ := told
      exact ⟨sent, ret, same, grown.subset effect⟩
  | error error =>
      obtain ⟨⟨sent, made, refuses⟩, without⟩ := told
      refine ⟨⟨sent, grown.subset made, refuses⟩, fun effect done same => ?_⟩
      rcases step_effects bus next action stepped with
        kept | ⟨answers, invocation, command, serves⟩
      · exact without effect (kept ▸ done) same
      · rw [serves.log, effects_effect] at done
        rcases List.mem_append.mp done with before | last
        · exact without effect before same
        · rw [List.mem_singleton.mp last] at same
          dsimp only at same
          refine apart ?_
          rw [← same, serves.pending]
          exact List.mem_cons_self

/-- The replies to a client are true. -/
def Truthful (bus : Bus) (number : Nat) : Prop :=
  ∀ serial reply, (serial, reply) ∈ (bus.client number).answers →
    Tells bus.log ⟨number, serial⟩ reply

theorem step_truthful (bus next : Bus) (action : Action) (number : Nat) (coherent : Coherent bus)
    (accounted : Accounted bus number) (truthful : Truthful bus number)
    (stepped : step bus action = some next) : Truthful next number := by
  have kept : ∀ serial reply, (serial, reply) ∈ (bus.client number).answers →
      Tells next.log ⟨number, serial⟩ reply := fun serial reply member =>
    tells_mono bus next action ⟨number, serial⟩ reply
      (answered_apart bus number accounted serial reply member) (truthful serial reply member)
      stepped
  intro serial reply member
  cases step_moves coherent next action number stepped with
  | kept answers pending same => exact kept serial reply (answers.subset member)
  | joined answers pending same =>
      rw [answers] at member
      exact absurd member List.not_mem_nil
  | sent answers pending same => exact kept serial reply (answers ▸ member)
  | answered latest outcome answers pending same truth =>
      rcases List.mem_cons.mp (answers.subset member) with last | before
      · cases last
        exact truth
      · exact kept serial reply before

/-- In every run each call of each client is either pending or has exactly one reply. A reply
with values has the result with which the call took effect; a reply with an error is to a call
that took none, and the stubs' calls get no error but that there is no object yet. -/
theorem answered_once (actions : List Action) (bus : Bus)
    (reached : run step initial actions = some bus) (number : Nat) :
    ((bus.client number).answers.map Prod.fst ++ bus.pending number).Perm
        (List.range (bus.client number).nextSerial) ∧
      ∀ serial reply, (serial, reply) ∈ (bus.client number).answers →
        Tells bus.log ⟨number, serial⟩ reply := by
  have keeps : ∀ bus action next,
      Coherent bus ∧ Accounted bus number ∧ Truthful bus number →
        step bus action = some next →
          Coherent next ∧ Accounted next number ∧ Truthful next number := by
    rintro bus action next ⟨coherent, accounted, truthful⟩ stepped
    exact ⟨step_coherent bus action next coherent stepped,
      step_accounted bus next action number coherent accounted stepped,
      step_truthful bus next action number coherent accounted truthful stepped⟩
  have start : Coherent initial ∧ Accounted initial number ∧ Truthful initial number :=
    ⟨initial_coherent, List.Perm.refl _, fun _ _ member => absurd member List.not_mem_nil⟩
  exact (run_invariant_of_step keeps start reached).2

/-- A client that calls too early, then a method that does not exist, and then gives up on a
call before it is served. -/
def roughStart : List Action :=
  [.connect, .send 0 (call .start), .arrive 0, .deliver 0] ++
    Server.startupRun.map .server ++
      [.server (.setup true Server.granted), .send 0 ⟨"play", []⟩, .send 0 (call .start),
        .arrive 0, .arrive 0, .expire 0 2, .dispatch obliging, .deliver 0]

theorem rough_start_answered :
    ∃ bus, run step initial roughStart = some bus ∧
      ((bus.client 0).answers.map Prod.fst ++ bus.pending 0).Perm
          (List.range (bus.client 0).nextSerial) ∧
        ∀ serial reply, (serial, reply) ∈ (bus.client 0).answers →
          Tells bus.log ⟨0, serial⟩ reply :=
  ⟨_, rfl, answered_once roughStart _ rfl 0⟩

end Bus

end MediaplayerServer.DBus
