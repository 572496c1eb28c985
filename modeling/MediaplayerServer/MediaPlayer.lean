import MediaplayerServer.Gst

set_option autoImplicit false

/- The class MediaPlayer. Each public method holds mtx from its first line to its
return, so each is one function on the player and the pipelines behind it. -/
namespace MediaplayerServer

/-- A MyElement by the element it wraps; `none` is a null `mElement`. -/
structure MyElement where
  mElement : Option Nat
  deriving DecidableEq, Repr

structure MediaPlayer where
  mpPlaybin : Option MyElement
  gst : Gst

/-- MyElement::setup, up to the configuration of the element it makes: `made` tells
whether the factory returned an element. -/
def MyElement.setup (gst : Gst) (made : Bool) : MyElement × Gst :=
  if made then (⟨some gst.created⟩, gst.gstElementFactoryMake) else (⟨none⟩, gst)

/-- The source tests `!mElement` here, not `mElement`. -/
def MyElement.teardown (self : MyElement) (gst : Gst) : Gst :=
  if self.mElement.isNone then gst.gstObjectUnref self.mElement else gst

/-- changeState behind its guard. -/
def Playbin.changeState (playbin : Playbin) (state : GstState) (change : StateChange) :
    Playbin × Bool :=
  let result := playbin.gstElementSetState state change
  (result.1, decide (result.2 ≠ .failure))

/-- send_seek_event behind its guard: `position` is what the query answered. -/
def Playbin.sendSeekEvent (playbin : Playbin) (rate : Gdouble) (position : Option Int)
    (done : Bool) : Playbin × Bool :=
  match position with
  | none => (playbin, false)
  | some position =>
      let event :=
        if rate.positive then gstEventNewSeek rate (.forward rate position)
        else gstEventNewSeek rate (.backward rate position)
      playbin.gstElementSendEvent event done

namespace MediaPlayer

def initial : MediaPlayer where
  mpPlaybin := none
  gst := Gst.initial

/-- The element behind the test `mpPlaybin && mpPlaybin->element()`. -/
def element (self : MediaPlayer) : Option Nat :=
  self.mpPlaybin.bind MyElement.mElement

/-- The guard every operation shares: without an element it fails and does nothing. -/
def withElement (self : MediaPlayer) (body : Playbin → Playbin × Bool) : MediaPlayer × Bool :=
  match self.element with
  | none => (self, false)
  | some element =>
      let result := body (self.gst.playbin element)
      ({ self with gst := self.gst.set element result.1 }, result.2)

def changeState (self : MediaPlayer) (state : GstState) (change : StateChange) :
    MediaPlayer × Bool :=
  self.withElement fun playbin => playbin.changeState state change

def start (self : MediaPlayer) (change : StateChange) : MediaPlayer × Bool :=
  self.changeState .playing change

def pause (self : MediaPlayer) (change : StateChange) : MediaPlayer × Bool :=
  self.changeState .paused change

def stop (self : MediaPlayer) (change : StateChange) : MediaPlayer × Bool :=
  self.changeState .null change

def setup (self : MediaPlayer) (made : Bool) (ready : StateChange) : MediaPlayer × Bool :=
  let result := MyElement.setup self.gst made
  let self : MediaPlayer := { mpPlaybin := some result.1, gst := result.2 }
  match result.1.mElement with
  | none => (self, false)
  | some element =>
      changeState { self with gst := self.gst.gstBusAddWatch element } .ready ready

def teardown (self : MediaPlayer) : MediaPlayer × Bool :=
  match self.mpPlaybin with
  | some wrapper =>
      if wrapper.mElement.isSome then
        ({ mpPlaybin := none, gst := wrapper.teardown self.gst }, true)
      else (self, false)
  | none => (self, false)

/-- GST_SECOND, in nanoseconds. -/
def gstSecond : Int := 1000000000

/-- GST_TIME_AS_SECONDS, a C division: it truncates toward zero. -/
def gstTimeAsSeconds (time : Int) : Int := time.tdiv gstSecond

/-- The number of values of a 32-bit integer, 2^32. -/
def uintRange : Nat := 4294967296

/-- Conversion to a 32-bit `int`. -/
def toInt (value : Int) : Int := value.bmod uintRange

/-- Conversion to a 32-bit `uint`. -/
def toUint (value : Int) : Nat := (value % uintRange).toNat

/-- The common body of getPosition and getDuration: the query's answer is `none`
when it returned FALSE, and the seconds pass through an `int` local. -/
def querySeconds (self : MediaPlayer) (query : Option Int) : Int :=
  match self.element, query with
  | some _, some time => toInt (gstTimeAsSeconds time)
  | _, _ => -1

def getDuration (self : MediaPlayer) (duration : Option Int) : Int :=
  self.querySeconds duration

def getPosition (self : MediaPlayer) (position : Option Int) : Int :=
  self.querySeconds position

def seek (self : MediaPlayer) (secs : UInt32) (done : Bool) : MediaPlayer × Bool :=
  self.withElement fun playbin => playbin.gstElementSeekSimple (secs.toNat * gstSecond) done

def sendSeekEvent (self : MediaPlayer) (rate : Gdouble) (position : Option Int) (done : Bool) :
    MediaPlayer × Bool :=
  self.withElement fun playbin => playbin.sendSeekEvent rate position done

def setRate (self : MediaPlayer) (rate : Gdouble) (position : Option Int) (done : Bool) :
    MediaPlayer × Bool :=
  self.sendSeekEvent rate position done

/-- `uri` is what gst_filename_to_uri returned for the path, `none` for a null
pointer; the error beside it is never looked at. -/
def setFile (self : MediaPlayer) (uri : Option String) : MediaPlayer × Bool :=
  self.withElement fun playbin => ({ playbin with uri := uri }, true)

end MediaPlayer

/-- A client request with the answers GStreamer gives while it is served. -/
inductive Request
  | start (change : StateChange)
  | pause (change : StateChange)
  | stop (change : StateChange)
  | seek (secs : UInt32) (done : Bool)
  | setRate (rate : Gdouble) (position : Option Int) (done : Bool)
  | setFile (filepath : String) (uri : Option String)
  deriving DecidableEq, Repr

/-- The requests that may leave the pipeline in a state above NULL. -/
def Request.raises : Request → Bool
  | .start _ => true
  | .pause _ => true
  | _ => false

namespace MediaPlayer

def serve (self : MediaPlayer) : Request → MediaPlayer × Bool
  | .start change => self.start change
  | .pause change => self.pause change
  | .stop change => self.stop change
  | .seek secs done => self.seek secs done
  | .setRate rate position done => self.setRate rate position done
  | .setFile _ uri => self.setFile uri

end MediaPlayer

/-- The part of a request that runs behind the guard, on the pipeline it reaches. -/
def Playbin.serve (playbin : Playbin) : Request → Playbin × Bool
  | .start change => playbin.changeState .playing change
  | .pause change => playbin.changeState .paused change
  | .stop change => playbin.changeState .null change
  | .seek secs done =>
      playbin.gstElementSeekSimple (secs.toNat * MediaPlayer.gstSecond) done
  | .setRate rate position done => playbin.sendSeekEvent rate position done
  | .setFile _ uri => ({ playbin with uri := uri }, true)

end MediaplayerServer
