import Mathlib.Logic.Function.Basic

set_option autoImplicit false

/- The GStreamer objects the server creates, and the calls it makes on them. What
a call may answer is a parameter, chosen afresh by the environment each time. -/
namespace MediaplayerServer

inductive GstState
  | null
  | ready
  | paused
  | playing
  deriving DecidableEq, Repr

inductive GstStateChangeReturn
  | failure
  | success
  | async
  | noPreroll
  deriving DecidableEq, Repr

/-- One answer of gst_element_set_state: the value it returns and, when that is
a failure, the state in which the abandoned change leaves the pipeline. -/
structure StateChange where
  ret : GstStateChangeReturn
  left : GstState
  deriving DecidableEq, Repr

/-- A gdouble, as far as the server looks at one: only its sign is ever tested. -/
inductive Gdouble
  | nan
  | negInf
  | finite (value : Rat)
  | posInf
  deriving DecidableEq, Repr

/-- The C comparison `rate > 0`, false on a NaN. -/
def Gdouble.positive : Gdouble → Bool
  | .nan => false
  | .negInf => false
  | .finite value => decide (0 < value)
  | .posInf => true

inductive GstMessageType
  | error (message : String)
  | eos
  | stateChanged (new : GstState)
  | other
  deriving DecidableEq, Repr

/-- The two types on which handle_message notifies the client and quits the loop. -/
def GstMessageType.ends : GstMessageType → Bool
  | .error _ => true
  | .eos => true
  | .stateChanged _ => false
  | .other => false

/-- `src` is the pipeline that posted the message and `stamp` counts the messages
posted before it, by any pipeline. -/
structure GstMessage where
  src : Nat
  stamp : Nat
  type : GstMessageType
  deriving DecidableEq, Repr

/-- The two shapes of seek event that send_seek_event builds. -/
inductive SeekEvent
  | forward (rate : Gdouble) (start : Int)
  | backward (rate : Gdouble) (stop : Int)
  deriving DecidableEq, Repr

/-- gst_event_new_seek refuses the rate zero and returns no event. -/
def gstEventNewSeek (rate : Gdouble) (event : SeekEvent) : Option SeekEvent :=
  if rate = .finite 0 then none else some event

/-- One playbin with its bus. `refs` counts the references the server has not
given back and `watch` tells whether a bus watch is installed. -/
structure Playbin where
  uri : Option String
  state : GstState
  position : Int
  rate : Gdouble
  flushing : Bool
  queue : List GstMessage
  watch : Bool
  refs : Nat
  deriving DecidableEq, Repr

/-- What gst_element_factory_make hands out: its bus is flushing until the first
state change. -/
def Playbin.made : Playbin where
  uri := none
  state := .null
  position := 0
  rate := .finite 1
  flushing := true
  queue := []
  watch := false
  refs := 1

/-- Going to NULL always succeeds and flushes the bus; any other change opens the
bus, whether or not it then succeeds. -/
def Playbin.gstElementSetState (playbin : Playbin) (target : GstState) (change : StateChange) :
    Playbin × GstStateChangeReturn :=
  if target = .null then
    ({ playbin with state := .null, flushing := true, queue := [] }, .success)
  else if change.ret = .failure then
    ({ playbin with state := change.left, flushing := false }, .failure)
  else
    ({ playbin with state := target, flushing := false }, change.ret)

/-- A simple seek also falls back to the normal rate. -/
def Playbin.gstElementSeekSimple (playbin : Playbin) (target : Int) (done : Bool) :
    Playbin × Bool :=
  if done then ({ playbin with position := target, rate := .finite 1 }, true)
  else (playbin, false)

def Playbin.gstElementSendEvent (playbin : Playbin) (event : Option SeekEvent) (done : Bool) :
    Playbin × Bool :=
  match event, done with
  | some (.forward rate start), true => ({ playbin with position := start, rate := rate }, true)
  | some (.backward rate stop), true => ({ playbin with position := stop, rate := rate }, true)
  | _, _ => (playbin, false)

/-- Every playbin ever created, by creation order, and two counters: messages
posted, and unref calls made on a null pointer. -/
structure Gst where
  created : Nat
  playbin : Nat → Playbin
  posted : Nat
  nullUnrefs : Nat

def Gst.initial : Gst where
  created := 0
  playbin := fun _ => Playbin.made
  posted := 0
  nullUnrefs := 0

def Gst.set (gst : Gst) (element : Nat) (playbin : Playbin) : Gst :=
  { gst with playbin := Function.update gst.playbin element playbin }

@[simp] theorem Gst.set_self (gst : Gst) (element : Nat) (playbin : Playbin) :
    (gst.set element playbin).playbin element = playbin :=
  Function.update_self ..

theorem Gst.set_other (gst : Gst) (element other : Nat) (playbin : Playbin)
    (differ : other ≠ element) :
    (gst.set element playbin).playbin other = gst.playbin other :=
  Function.update_of_ne differ ..

def Gst.gstElementFactoryMake (gst : Gst) : Gst :=
  { gst.set gst.created Playbin.made with created := gst.created + 1 }

/-- gst_bus_add_watch on the bus of the element. -/
def Gst.gstBusAddWatch (gst : Gst) (element : Nat) : Gst :=
  gst.set element { gst.playbin element with watch := true }

def Gst.gstObjectUnref (gst : Gst) : Option Nat → Gst
  | none => { gst with nullUnrefs := gst.nullUnrefs + 1 }
  | some element =>
      gst.set element { gst.playbin element with refs := (gst.playbin element).refs - 1 }

/-- A streaming thread posts a message on its own pipeline's bus. -/
def Gst.post (gst : Gst) (element : Nat) (type : GstMessageType) : Gst :=
  { gst.set element { gst.playbin element with
      queue := (gst.playbin element).queue ++ [⟨element, gst.posted, type⟩] } with
    posted := gst.posted + 1 }

/-- The watch source takes the oldest message off the bus. -/
def Gst.pop (gst : Gst) (element : Nat) : Gst :=
  gst.set element { gst.playbin element with queue := (gst.playbin element).queue.tail }

end MediaplayerServer
