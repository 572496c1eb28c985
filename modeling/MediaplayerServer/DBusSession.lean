import MediaplayerServer.DBusInterface
import MediaplayerServer.Linearizability

set_option autoImplicit false

/- Clients of the mediaplayer interface on the session bus, and the server behind it. Calls and
replies are in flight between them; the bus keeps the order of what goes from one end to
another. GDBus takes calls off the bus on a thread of its own, answers the ones it refuses from
there, and leaves the others to the dispatcher thread in their order. Signals are not part of
it: no call depends on them. -/
namespace MediaplayerServer.DBus

open Linearizability

/-- A call is known by its sender and the serial number it has there. -/
structure MessageId where
  sender : Nat
  serial : Nat
  deriving DecidableEq, Repr

/-- A GDBusMethodInvocation that waits for the dispatcher. -/
structure Invocation where
  id : MessageId
  info : MethodInfo
  call : MethodCall
  deriving DecidableEq, Repr

/-- `waiting` are the calls that the client has not seen end, `incoming` what is on its way to
it, and `replies` what has arrived for its calls (latest first). -/
structure Client where
  nextSerial : Nat
  outgoing : List (Nat × MethodCall)
  incoming : List (Nat × Reply)
  waiting : List Nat
  replies : List (Nat × Reply)

def Client.connecting : Client where
  nextSerial := 0
  outgoing := []
  incoming := []
  waiting := []
  replies := []

def Client.receive (client : Client) (replies : List (Nat × Reply)) : Client :=
  { client with incoming := client.incoming ++ replies }

/-- What clients see of their calls, and where each took effect. -/
abbrev CallLog := List (LogEntry MessageId MethodCall Bool)

/-- The clients are numbered in the order in which they connect; `scheduled` waits for the
dispatcher thread. -/
structure Bus where
  server : Server
  connected : Nat
  client : Nat → Client
  scheduled : List Invocation
  log : CallLog

/-- g_dbus_method_invocation_return_value: a value of a wrong type is not sent. -/
def returnValue (invocation : Invocation) (values : List GVariant) : List (Nat × Reply) :=
  if Fits invocation.info.outArgs values then [(invocation.id.serial, .ok values)] else []

/-- The actions of the server that serve a client. -/
def isRequest : Server.Action → Bool
  | .request _ => true
  | _ => false

namespace Bus

def initial : Bus where
  server := Server.initial
  connected := 0
  client := fun _ => Client.connecting
  scheduled := []
  log := []

def setClient (bus : Bus) (number : Nat) (client : Client) : Bus :=
  { bus with client := Function.update bus.client number client }

@[simp] theorem setClient_self (bus : Bus) (number : Nat) (client : Client) :
    (bus.setClient number client).client number = client :=
  Function.update_self ..

theorem setClient_other (bus : Bus) (number other : Nat) (client : Client)
    (differ : other ≠ number) : (bus.setClient number client).client other = bus.client other :=
  Function.update_of_ne differ ..

/-- A call that is in flight reaches GDBus on the server's side. -/
def arrive (bus : Bus) (sent : MethodCall) : Except DBusError MethodInfo :=
  if bus.server.handshake.mMediaplayerInterface then accept sent else .error .unknownObject

/-- The reply to a waiting call is its end, and any other one is dropped. -/
def conclude (bus : Bus) (number serial : Nat) (reply : Reply) : CallLog :=
  if serial ∈ (bus.client number).waiting then
    match mediaplayerCallFinish reply with
    | some ret => .event (.respond ⟨number, serial⟩ ret) :: bus.log
    | none => bus.log
  else bus.log

inductive Action
  | server (action : Server.Action)
  | connect
  | send (client : Nat) (call : MethodCall)
  | arrive (client : Nat)
  | dispatch (answers : Answers)
  | deliver (client : Nat)
  | expire (client serial : Nat)
  deriving DecidableEq, Repr

def step (bus : Bus) : Action → Option Bus
  | .server action =>
      if isRequest action then none
      else (Server.step bus.server action).map fun next => { bus with server := next }
  | .connect =>
      some { bus.setClient bus.connected .connecting with
        connected := bus.connected + 1 }
  | .send number sent =>
      if number < bus.connected then
        let client := bus.client number
        some { bus.setClient number { client with
            nextSerial := client.nextSerial + 1
            outgoing := client.outgoing ++ [(client.nextSerial, sent)]
            waiting := client.nextSerial :: client.waiting } with
          log := .event (.invoke ⟨number, client.nextSerial⟩ sent) :: bus.log }
      else none
  | .arrive number =>
      match (bus.client number).outgoing with
      | [] => none
      | (serial, sent) :: rest =>
          let client := { bus.client number with outgoing := rest }
          match bus.arrive sent with
          | .ok info =>
              some { bus.setClient number client with
                scheduled := bus.scheduled ++ [⟨⟨number, serial⟩, info, sent⟩] }
          | .error error =>
              some (bus.setClient number (client.receive [(serial, .error error)]))
  | .dispatch answers =>
      match bus.scheduled with
      | [] => none
      | invocation :: rest =>
          let client := bus.client invocation.id.sender
          match mediaplayerSkeletonHandleMethodCall invocation.info invocation.call with
          | .ok command =>
              let request := command.request answers
              let ret := bus.server.reply request
              (Server.step bus.server (.request request)).map fun next =>
                { bus.setClient invocation.id.sender
                    (client.receive (returnValue invocation (mediaplayerComplete ret))) with
                  server := next
                  scheduled := rest
                  log := .effect ⟨invocation.id, invocation.call, ret⟩ :: bus.log }
          | .error error =>
              if bus.server.free then
                some { bus.setClient invocation.id.sender
                    (client.receive [(invocation.id.serial, .error error)]) with
                  scheduled := rest }
              else none
  | .deliver number =>
      match (bus.client number).incoming with
      | [] => none
      | (serial, reply) :: rest =>
          let client := bus.client number
          some { bus.setClient number { client with
              incoming := rest
              waiting := client.waiting.erase serial
              replies := (serial, reply) :: client.replies } with
            log := bus.conclude number serial reply }
  | .expire number serial =>
      let client := bus.client number
      if serial ∈ client.waiting then
        some (bus.setClient number { client with waiting := client.waiting.erase serial })
      else none

/-- Everything a step can do, case by case. -/
inductive Stepped (bus : Bus) : Action → Bus → Prop
  | internal (action : Server.Action) (next : Server) (other : isRequest action = false)
      (moved : Server.step bus.server action = some next) :
      Stepped bus (.server action) { bus with server := next }
  | connected :
      Stepped bus .connect
        { bus.setClient bus.connected .connecting with
          connected := bus.connected + 1 }
  | sent (number : Nat) (sent : MethodCall) (on : number < bus.connected) :
      Stepped bus (.send number sent)
        { bus.setClient number { bus.client number with
            nextSerial := (bus.client number).nextSerial + 1
            outgoing := (bus.client number).outgoing ++ [((bus.client number).nextSerial, sent)]
            waiting := (bus.client number).nextSerial :: (bus.client number).waiting } with
          log := .event (.invoke ⟨number, (bus.client number).nextSerial⟩ sent) :: bus.log }
  | scheduled (number serial : Nat) (sent : MethodCall) (rest : List (Nat × MethodCall))
      (info : MethodInfo) (outgoing : (bus.client number).outgoing = (serial, sent) :: rest)
      (arrived : bus.arrive sent = .ok info) :
      Stepped bus (.arrive number)
        { bus.setClient number { bus.client number with outgoing := rest } with
          scheduled := bus.scheduled ++ [⟨⟨number, serial⟩, info, sent⟩] }
  | refused (number serial : Nat) (sent : MethodCall) (rest : List (Nat × MethodCall))
      (error : DBusError) (outgoing : (bus.client number).outgoing = (serial, sent) :: rest)
      (arrived : bus.arrive sent = .error error) :
      Stepped bus (.arrive number)
        (bus.setClient number
          (Client.receive { bus.client number with outgoing := rest }
            [(serial, .error error)]))
  | served (answers : Answers) (invocation : Invocation) (rest : List Invocation)
      (command : Command) (next : Server) (queue : bus.scheduled = invocation :: rest)
      (handled : mediaplayerSkeletonHandleMethodCall invocation.info invocation.call = .ok command)
      (moved : Server.step bus.server (.request (command.request answers)) = some next) :
      Stepped bus (.dispatch answers)
        { bus.setClient invocation.id.sender
            ((bus.client invocation.id.sender).receive (returnValue invocation
              (mediaplayerComplete (bus.server.reply (command.request answers))))) with
          server := next
          scheduled := rest
          log := .effect ⟨invocation.id, invocation.call,
            bus.server.reply (command.request answers)⟩ :: bus.log }
  | unhandled (answers : Answers) (invocation : Invocation) (rest : List Invocation)
      (error : DBusError) (queue : bus.scheduled = invocation :: rest)
      (handled :
        mediaplayerSkeletonHandleMethodCall invocation.info invocation.call = .error error) :
      Stepped bus (.dispatch answers)
        { bus.setClient invocation.id.sender
            ((bus.client invocation.id.sender).receive
              [(invocation.id.serial, .error error)]) with
          scheduled := rest }
  | replied (number serial : Nat) (reply : Reply) (rest : List (Nat × Reply))
      (incoming : (bus.client number).incoming = (serial, reply) :: rest) :
      Stepped bus (.deliver number)
        { bus.setClient number { bus.client number with
            incoming := rest
            waiting := (bus.client number).waiting.erase serial
            replies := (serial, reply) :: (bus.client number).replies } with
          log := bus.conclude number serial reply }
  | expired (number serial : Nat) (waits : serial ∈ (bus.client number).waiting) :
      Stepped bus (.expire number serial)
        (bus.setClient number { bus.client number with
          waiting := (bus.client number).waiting.erase serial })

theorem stepped_of_step (bus next : Bus) (action : Action) (stepped : step bus action = some next) :
    Stepped bus action next := by
  cases action with
  | server action =>
      simp only [step] at stepped
      split at stepped
      · cases stepped
      · rename_i other
        obtain ⟨server, moved, rfl⟩ := Option.map_eq_some_iff.mp stepped
        exact .internal action server (Bool.eq_false_iff.mpr other) moved
  | connect =>
      cases stepped
      exact .connected
  | send number sent =>
      simp only [step, Option.ite_none_right_eq_some, Option.some.injEq] at stepped
      obtain ⟨on, rfl⟩ := stepped
      exact .sent number sent on
  | arrive number =>
      simp only [step] at stepped
      split at stepped
      · cases stepped
      · rename_i serial sent rest outgoing
        split at stepped
        · rename_i info arrived
          cases stepped
          exact .scheduled number serial sent rest info outgoing arrived
        · rename_i error arrived
          cases stepped
          exact .refused number serial sent rest error outgoing arrived
  | dispatch answers =>
      simp only [step] at stepped
      split at stepped
      · cases stepped
      · rename_i invocation rest queue
        split at stepped
        · rename_i command handled
          obtain ⟨server, moved, rfl⟩ := Option.map_eq_some_iff.mp stepped
          exact .served answers invocation rest command server queue handled moved
        · rename_i error handled
          split at stepped
          · cases stepped
            exact .unhandled answers invocation rest error queue handled
          · cases stepped
  | deliver number =>
      simp only [step] at stepped
      split at stepped
      · cases stepped
      · rename_i serial reply rest incoming
        cases stepped
        exact .replied number serial reply rest incoming
  | expire number serial =>
      simp only [step, Option.ite_none_right_eq_some, Option.some.injEq] at stepped
      obtain ⟨waits, rfl⟩ := stepped
      exact .expired number serial waits

end Bus

end MediaplayerServer.DBus
