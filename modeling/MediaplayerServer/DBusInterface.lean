import MediaplayerServer.AbstractPlayer
import MediaplayerServer.Server

set_option autoImplicit false

namespace MediaplayerServer.DBus

/-- The values the interface sends; what a message carries is a tuple of them. -/
inductive GVariant
  | boolean (value : Bool)
  | uint32 (value : UInt32)
  | double (value : Gdouble)
  | string (value : String)
  deriving DecidableEq, Repr

def GVariant.signature : GVariant → String
  | boolean _ => "b"
  | uint32 _ => "u"
  | double _ => "d"
  | string _ => "s"

inductive GValue
  | boolean (value : Bool)
  | uint (value : UInt32)
  | double (value : Gdouble)
  | string (value : String)
  | variant (value : GVariant)
  deriving DecidableEq, Repr

def gDbusGvariantToGvalue : GVariant → GValue
  | .boolean value => .boolean value
  | .uint32 value => .uint value
  | .double value => .double value
  | .string value => .string value

structure ArgInfo where
  name : String
  signature : String
  useGvariant : Bool
  deriving DecidableEq, Repr

structure MethodInfo where
  name : String
  inArgs : List ArgInfo
  outArgs : List ArgInfo
  signalName : String
  deriving DecidableEq, Repr

structure SignalInfo where
  name : String
  args : List ArgInfo
  signalName : String
  deriving DecidableEq, Repr

structure InterfaceInfo where
  name : String
  methods : List MethodInfo
  signals : List SignalInfo
  deriving DecidableEq, Repr

def mediaplayerMethodInfoStart : MethodInfo :=
  ⟨"start", [], [⟨"ret", "b", false⟩], "handle-start"⟩

def mediaplayerMethodInfoPause : MethodInfo :=
  ⟨"pause", [], [⟨"ret", "b", false⟩], "handle-pause"⟩

def mediaplayerMethodInfoStop : MethodInfo :=
  ⟨"stop", [], [⟨"ret", "b", false⟩], "handle-stop"⟩

def mediaplayerMethodInfoSeek : MethodInfo :=
  ⟨"seek", [⟨"secs", "u", false⟩], [⟨"ret", "b", false⟩], "handle-seek"⟩

def mediaplayerMethodInfoSetRate : MethodInfo :=
  ⟨"setRate", [⟨"rate", "d", false⟩], [⟨"ret", "b", false⟩], "handle-set-rate"⟩

def mediaplayerMethodInfoSetFile : MethodInfo :=
  ⟨"setFile", [⟨"filepath", "s", false⟩], [⟨"ret", "b", false⟩], "handle-set-file"⟩

def mediaplayerSignalInfoNotifyProgress : SignalInfo :=
  ⟨"notifyProgress", [⟨"position", "u", false⟩, ⟨"duration", "u", false⟩], "notify-progress"⟩

def mediaplayerSignalInfoNotifyError : SignalInfo :=
  ⟨"notifyError", [⟨"messge", "s", false⟩], "notify-error"⟩

def mediaplayerSignalInfoNotifyEos : SignalInfo := ⟨"notifyEOS", [], "notify-eos"⟩

def mediaplayerInterfaceInfo : InterfaceInfo where
  name := "com.hsae.mediaplayerserver.mediaplayer"
  methods := [mediaplayerMethodInfoStart, mediaplayerMethodInfoPause, mediaplayerMethodInfoStop,
    mediaplayerMethodInfoSeek, mediaplayerMethodInfoSetRate, mediaplayerMethodInfoSetFile]
  signals := [mediaplayerSignalInfoNotifyProgress, mediaplayerSignalInfoNotifyError,
    mediaplayerSignalInfoNotifyEos]

namespace InterfaceInfo

def lookupMethod (info : InterfaceInfo) (name : String) : Option MethodInfo :=
  info.methods.find? fun method => method.name == name

def lookupSignal (info : InterfaceInfo) (name : String) : Option SignalInfo :=
  info.signals.find? fun signal => signal.name == name

end InterfaceInfo

/-- The parameters have the types that the description gives. -/
def Fits (infos : List ArgInfo) (parameters : List GVariant) : Prop :=
  parameters.map GVariant.signature = infos.map ArgInfo.signature

instance (infos : List ArgInfo) (parameters : List GVariant) : Decidable (Fits infos parameters) :=
  inferInstanceAs (Decidable (_ = _))

/-- The children of a message's tuple as the arguments of a GObject signal. -/
def paramv (infos : List ArgInfo) (children : List GVariant) : List GValue :=
  List.zipWith
    (fun info child => if info.useGvariant then .variant child else gDbusGvariantToGvalue child)
    infos children

/-- A GObject signal that is emitted, without the object it is emitted on. -/
structure Emission where
  signal : String
  args : List GValue
  deriving DecidableEq, Repr

section Calls

/-- A method call on the interface. -/
structure MethodCall where
  member : String
  parameters : List GVariant
  deriving DecidableEq, Repr

def mediaplayerCallStart : MethodCall := ⟨"start", []⟩

def mediaplayerCallPause : MethodCall := ⟨"pause", []⟩

def mediaplayerCallStop : MethodCall := ⟨"stop", []⟩

def mediaplayerCallSeek (secs : UInt32) : MethodCall := ⟨"seek", [.uint32 secs]⟩

def mediaplayerCallSetRate (rate : Gdouble) : MethodCall := ⟨"setRate", [.double rate]⟩

def mediaplayerCallSetFile (filepath : String) : MethodCall := ⟨"setFile", [.string filepath]⟩

end Calls

/-- The stub that a client calls for a command. -/
def call : Command → MethodCall
  | .start => mediaplayerCallStart
  | .pause => mediaplayerCallPause
  | .stop => mediaplayerCallStop
  | .seek secs => mediaplayerCallSeek secs
  | .setRate rate => mediaplayerCallSetRate rate
  | .setFile filepath => mediaplayerCallSetFile filepath

section Replies

/-- The errors a call can be answered with: GDBus's own three, and the skeleton's. -/
inductive DBusError
  | unknownObject
  | noSuchMethod
  | invalidArgs
  | unknownMethod (message : String)
  deriving DecidableEq, Repr

abbrev Reply := Except DBusError (List GVariant)

/-- mediaplayer_complete_start and its siblings, which differ in their names only. -/
def mediaplayerComplete (ret : Bool) : List GVariant := [.boolean ret]

/-- mediaplayer_call_start_finish and its siblings: what is left in out_ret, if the call
succeeded. -/
def mediaplayerCallFinish : Reply → Option Bool
  | .ok [.boolean ret] => some ret
  | _ => none

end Replies

section Handlers

def handleStart : List GValue → Option Command
  | [] => some .start
  | _ => none

def handleStop : List GValue → Option Command
  | [] => some .stop
  | _ => none

def handlePause : List GValue → Option Command
  | [] => some .pause
  | _ => none

def handleSeek : List GValue → Option Command
  | [.uint secs] => some (.seek secs)
  | _ => none

def handleSetRate : List GValue → Option Command
  | [.double rate] => some (.setRate rate)
  | _ => none

def handleSetFile : List GValue → Option Command
  | [.string filepath] => some (.setFile filepath)
  | _ => none

/-- The handlers that onMediaplayerBusAcquired connects to the skeleton. -/
def connections : List (String × (List GValue → Option Command)) :=
  [("handle-start", handleStart), ("handle-stop", handleStop), ("handle-pause", handlePause),
    ("handle-seek", handleSeek), ("handle-set-rate", handleSetRate),
    ("handle-set-file", handleSetFile)]

/-- The handler that runs for an emission on the skeleton, if there is one. -/
def emitv (emission : Emission) : Option Command :=
  (connections.lookup emission.signal).bind fun handler => handler emission.args

/-- What GDBus checks before it hands a call to an exported skeleton. -/
def accept (call : MethodCall) : Except DBusError MethodInfo :=
  match mediaplayerInterfaceInfo.lookupMethod call.member with
  | none => .error .noSuchMethod
  | some info =>
      if Fits info.inArgs call.parameters then .ok info else .error .invalidArgs

/-- _mediaplayer_skeleton_handle_method_call, up to the body of the handler. -/
def mediaplayerSkeletonHandleMethodCall (info : MethodInfo) (call : MethodCall) :
    Except DBusError Command :=
  match emitv ⟨info.signalName, paramv info.inArgs call.parameters⟩ with
  | some command => .ok command
  | none =>
      .error (.unknownMethod ("Method " ++ call.member ++ " is not implemented on interface " ++
        mediaplayerInterfaceInfo.name))

end Handlers

section Signals

/-- A signal message of the interface. -/
structure SignalMessage where
  interface : String
  member : String
  parameters : List GVariant
  deriving DecidableEq, Repr

def mediaplayerEmitNotifyProgress (position duration : UInt32) : Emission :=
  ⟨"notify-progress", [.uint position, .uint duration]⟩

def mediaplayerEmitNotifyError (messge : String) : Emission := ⟨"notify-error", [.string messge]⟩

def mediaplayerEmitNotifyEos : Emission := ⟨"notify-eos", []⟩

/-- The emission behind DBusCallbacks::notifyProgress, notifyError and notifyEOS. -/
def emission : Signal → Emission
  | .notifyProgress position duration =>
      mediaplayerEmitNotifyProgress (UInt32.ofNat position) (UInt32.ofNat duration)
  | .notifyError message => mediaplayerEmitNotifyError message
  | .notifyEOS => mediaplayerEmitNotifyEos

def mediaplayerOnSignalNotifyProgress : List GValue → Option SignalMessage
  | [.uint position, .uint duration] =>
      some ⟨"com.hsae.mediaplayerserver.mediaplayer", "notifyProgress",
        [.uint32 position, .uint32 duration]⟩
  | _ => none

def mediaplayerOnSignalNotifyError : List GValue → Option SignalMessage
  | [.string messge] =>
      some ⟨"com.hsae.mediaplayerserver.mediaplayer", "notifyError", [.string messge]⟩
  | _ => none

def mediaplayerOnSignalNotifyEos : List GValue → Option SignalMessage
  | [] => some ⟨"com.hsae.mediaplayerserver.mediaplayer", "notifyEOS", []⟩
  | _ => none

/-- The class closures that mediaplayer_skeleton_iface_init puts behind the three signals. -/
def mediaplayerSkeletonIfaceInit : List (String × (List GValue → Option SignalMessage)) :=
  [("notify-progress", mediaplayerOnSignalNotifyProgress),
    ("notify-error", mediaplayerOnSignalNotifyError),
    ("notify-eos", mediaplayerOnSignalNotifyEos)]

/-- The message that an emission on the skeleton sends to every client. -/
def message (emission : Emission) : Option SignalMessage :=
  (mediaplayerSkeletonIfaceInit.lookup emission.signal).bind fun send => send emission.args

/-- mediaplayer_proxy_g_signal, with the checks of the interface and the types that GDBusProxy
makes before it: the emission on the client's proxy. -/
def mediaplayerProxyGSignal (message : SignalMessage) : Option Emission :=
  if message.interface = mediaplayerInterfaceInfo.name then
    match mediaplayerInterfaceInfo.lookupSignal message.member with
    | none => none
    | some info =>
        if Fits info.args message.parameters then
          some ⟨info.signalName, paramv info.args message.parameters⟩
        else none
  else none

end Signals

/-- The description of the method that a command calls. -/
def method : Command → MethodInfo
  | .start => mediaplayerMethodInfoStart
  | .pause => mediaplayerMethodInfoPause
  | .stop => mediaplayerMethodInfoStop
  | .seek _ => mediaplayerMethodInfoSeek
  | .setRate _ => mediaplayerMethodInfoSetRate
  | .setFile _ => mediaplayerMethodInfoSetFile

theorem accept_call (command : Command) : accept (call command) = .ok (method command) := by
  cases command <;> rfl

theorem handle_call (command : Command) :
    mediaplayerSkeletonHandleMethodCall (method command) (call command) = .ok command := by
  cases command <;> rfl

theorem method_fits (command : Command) (ret : Bool) :
    Fits (method command).outArgs (mediaplayerComplete ret) := by
  cases command <;> rfl

section Fits

variable (parameters : List GVariant)

theorem fits_nil (fits : Fits [] parameters) : parameters = [] := List.map_eq_nil_iff.mp fits

theorem fits_singleton (info : ArgInfo) (fits : Fits [info] parameters) :
    ∃ value, parameters = [value] ∧ value.signature = info.signature :=
  List.map_eq_singleton_iff.mp fits

end Fits

theorem mem_of_lookupMethod (interface : InterfaceInfo) (name : String) (info : MethodInfo)
    (found : interface.lookupMethod name = some info) :
    info ∈ interface.methods ∧ info.name = name := by
  unfold InterfaceInfo.lookupMethod at found
  have named := List.find?_some found
  exact ⟨List.mem_of_find?_eq_some found, eq_of_beq named⟩

/-- GDBus lets through exactly what the stubs of the six commands send. -/
theorem accept_iff (sent : MethodCall) (info : MethodInfo) :
    accept sent = .ok info ↔ ∃ command, sent = call command ∧ info = method command := by
  constructor
  · intro accepted
    obtain ⟨member, parameters⟩ := sent
    unfold accept at accepted
    split at accepted
    · cases accepted
    · rename_i found lookup
      split at accepted
      · rename_i fits
        cases accepted
        obtain ⟨listed, rfl⟩ := mem_of_lookupMethod _ _ _ lookup
        dsimp only at fits
        simp only [mediaplayerInterfaceInfo, List.mem_cons, List.not_mem_nil, or_false] at listed
        rcases listed with rfl | rfl | rfl | rfl | rfl | rfl
        · exact ⟨.start, by rw [fits_nil parameters fits]; rfl, rfl⟩
        · exact ⟨.pause, by rw [fits_nil parameters fits]; rfl, rfl⟩
        · exact ⟨.stop, by rw [fits_nil parameters fits]; rfl, rfl⟩
        · obtain ⟨value, rfl, typed⟩ := fits_singleton parameters _ fits
          cases value with
          | uint32 secs => exact ⟨.seek secs, rfl, rfl⟩
          | _ => simp [GVariant.signature] at typed
        · obtain ⟨value, rfl, typed⟩ := fits_singleton parameters _ fits
          cases value with
          | double rate => exact ⟨.setRate rate, rfl, rfl⟩
          | _ => simp [GVariant.signature] at typed
        · obtain ⟨value, rfl, typed⟩ := fits_singleton parameters _ fits
          cases value with
          | string filepath => exact ⟨.setFile filepath, rfl, rfl⟩
          | _ => simp [GVariant.signature] at typed
      · cases accepted
  · rintro ⟨command, rfl, rfl⟩
    exact accept_call command

theorem mem_of_lookupSignal (interface : InterfaceInfo) (name : String) (info : SignalInfo)
    (found : interface.lookupSignal name = some info) :
    info ∈ interface.signals ∧ info.name = name := by
  unfold InterfaceInfo.lookupSignal at found
  have named := List.find?_some found
  exact ⟨List.mem_of_find?_eq_some found, eq_of_beq named⟩

/-- What a client's proxy emits is what the skeleton emitted: the two ends take a signal's
arguments out of a message and put them into it in the same way. -/
theorem signal_heard_iff (sent : SignalMessage) (heard : Emission) :
    mediaplayerProxyGSignal sent = some heard ↔ message heard = some sent := by
  constructor
  · intro accepted
    obtain ⟨interface, member, parameters⟩ := sent
    unfold mediaplayerProxyGSignal at accepted
    split at accepted
    · rename_i own
      dsimp only at own
      subst own
      split at accepted
      · cases accepted
      · rename_i info lookup
        split at accepted
        · rename_i fits
          cases accepted
          obtain ⟨listed, rfl⟩ := mem_of_lookupSignal _ _ _ lookup
          dsimp only at fits
          simp only [mediaplayerInterfaceInfo, List.mem_cons, List.not_mem_nil, or_false] at listed
          rcases listed with rfl | rfl | rfl
          · obtain ⟨first, rest, rfl, typed, more⟩ := List.map_eq_cons_iff.mp fits
            obtain ⟨second, rfl, typed'⟩ := fits_singleton rest _ more
            cases first with
            | uint32 position =>
                cases second with
                | uint32 duration => rfl
                | _ => simp [GVariant.signature] at typed'
            | _ => simp [GVariant.signature] at typed
          · obtain ⟨value, rfl, typed⟩ := fits_singleton parameters _ fits
            cases value with
            | string message => rfl
            | _ => simp [GVariant.signature] at typed
          · rw [fits_nil parameters fits]
            rfl
        · cases accepted
    · cases accepted
  · intro emitted
    obtain ⟨signal, args⟩ := heard
    obtain ⟨send, found, sends⟩ := Option.bind_eq_some_iff.mp emitted
    obtain ⟨before, after, split, -⟩ := List.lookup_eq_some_iff.mp found
    have listed : (signal, send) ∈ mediaplayerSkeletonIfaceInit := by
      rw [split]
      exact List.mem_append_right _ List.mem_cons_self
    simp only [mediaplayerSkeletonIfaceInit, List.mem_cons, List.not_mem_nil, or_false,
      Prod.mk.injEq] at listed
    dsimp only at sends
    rcases listed with ⟨rfl, rfl⟩ | ⟨rfl, rfl⟩ | ⟨rfl, rfl⟩
    · unfold mediaplayerOnSignalNotifyProgress at sends
      split at sends <;> cases sends
      rfl
    · unfold mediaplayerOnSignalNotifyError at sends
      split at sends <;> cases sends
      rfl
    · unfold mediaplayerOnSignalNotifyEos at sends
      split at sends <;> cases sends
      rfl

/-- Every signal of the server reaches the proxies as it is. -/
theorem signal_arrives (signal : Signal) :
    (message (emission signal)).bind mediaplayerProxyGSignal = some (emission signal) := by
  obtain ⟨sent, sends⟩ : ∃ sent, message (emission signal) = some sent := by
    cases signal
    all_goals exact ⟨_, rfl⟩
  rw [sends, Option.bind_some]
  exact (signal_heard_iff sent _).mpr sends

end MediaplayerServer.DBus
