import MediaplayerServer.LockedObject
import MediaplayerServer.MediaPlayerFacts

set_option autoImplicit false

/- The methods of class MediaPlayer, statement by statement behind mtx. Each reading of
mpPlaybin and each GStreamer call is a statement of its own; what a statement does to locals
goes with it. handle_message reads mpPlaybin without the lock and is not one of them. -/
namespace MediaplayerServer

/-- What GStreamer does to a pipeline by itself: its streaming threads post messages, and its
bus watch takes the oldest one off again. -/
inductive Background
  | post (element : Nat) (type : GstMessageType)
  | pop (element : Nat) (message : GstMessage)
  deriving DecidableEq, Repr

def Gst.background (gst : Gst) : Background → Option Gst
  | .post element type =>
      if element < gst.created ∧ (gst.playbin element).flushing = false then
        some (gst.post element type)
      else none
  | .pop element message =>
      if element < gst.created ∧ (gst.playbin element).watch = true ∧
          (gst.playbin element).queue.head? = some message then
        some (gst.pop element)
      else none

namespace MediaPlayer

/-- A call of a public method, with the answers GStreamer gives meanwhile. -/
inductive Method
  | setup (made : Bool) (ready : StateChange)
  | serve (request : Request)
  | getPosition (position : Option Int)
  | getDuration (duration : Option Int)
  | teardown
  deriving DecidableEq, Repr

inductive Returned
  | bool (value : Bool)
  | seconds (value : Int)
  deriving DecidableEq, Repr

def call : Method → MediaPlayer → MediaPlayer × Returned
  | .setup made ready, self => ((self.setup made ready).1, .bool (self.setup made ready).2)
  | .serve request, self => ((self.serve request).1, .bool (self.serve request).2)
  | .getPosition position, self => (self, .seconds (self.getPosition position))
  | .getDuration duration, self => (self, .seconds (self.getDuration duration))
  | .teardown, self => (self.teardown.1, .bool self.teardown.2)

def background (change : Background) (self : MediaPlayer) : Option MediaPlayer :=
  (self.gst.background change).map fun gst => { self with gst := gst }

end MediaPlayer

namespace Gst

/-- With one more pipeline. -/
def added (gst : Gst) (playbin : Playbin) : Gst :=
  { gst.set gst.created playbin with created := gst.created + 1 }

theorem added_self (gst : Gst) (playbin : Playbin) :
    (gst.added playbin).playbin gst.created = playbin :=
  Function.update_self ..

theorem added_other (gst : Gst) (playbin : Playbin) (other : Nat) (differ : other ≠ gst.created) :
    (gst.added playbin).playbin other = gst.playbin other :=
  Function.update_of_ne differ ..

/-- A change of an older pipeline does not meet the new one. -/
theorem set_added (gst : Gst) (playbin changed : Playbin) (other : Nat)
    (older : other < gst.created) :
    (gst.set other changed).added playbin = (gst.added playbin).set other changed := by
  unfold added set
  dsimp only
  rw [Function.update_comm (Nat.ne_of_lt older)]

/-- A silent pipeline may come into being before or after what happens in the background. -/
theorem background_added (gst : Gst) (playbin : Playbin) (silent : playbin.Silent)
    (change : Background) :
    (gst.added playbin).background change = (gst.background change).map (·.added playbin) := by
  cases change with
  | post element type =>
      unfold background
      rcases Nat.lt_trichotomy element gst.created with older | rfl | newer
      · have same := gst.added_other playbin element (Nat.ne_of_lt older)
        dsimp only
        rw [same]
        by_cases opened : (gst.playbin element).flushing = false
        · rw [if_pos ⟨Nat.lt_succ_of_lt older, opened⟩, if_pos ⟨older, opened⟩]
          have commuted := gst.set_added playbin
            { gst.playbin element with
              queue := (gst.playbin element).queue ++ [⟨element, gst.posted, type⟩] } element older
          unfold post
          rw [same]
          exact congrArg (fun gst : Gst => some { gst with posted := gst.posted + 1 }) commuted.symm
        · rw [if_neg (opened ·.2), if_neg (opened ·.2)]
          rfl
      · dsimp only
        rw [gst.added_self, silent.flushing, if_neg nofun, if_neg (Nat.lt_irrefl _ ·.1)]
        rfl
      · dsimp only
        rw [if_neg (Nat.not_lt_of_le newer ·.1), if_neg (Nat.lt_asymm newer ·.1)]
        rfl
  | pop element message =>
      unfold background
      rcases Nat.lt_trichotomy element gst.created with older | rfl | newer
      · have same := gst.added_other playbin element (Nat.ne_of_lt older)
        dsimp only
        rw [same]
        by_cases waits : (gst.playbin element).watch = true ∧
            (gst.playbin element).queue.head? = some message
        · rw [if_pos ⟨Nat.lt_succ_of_lt older, waits⟩, if_pos ⟨older, waits⟩]
          unfold pop
          rw [same]
          exact congrArg some (gst.set_added playbin _ element older).symm
        · rw [if_neg (waits ·.2), if_neg (waits ·.2)]
          rfl
      · -- there is nothing to take off the bus of a silent pipeline
        dsimp only
        rw [gst.added_self, silent.queue, if_neg nofun, if_neg (Nat.lt_irrefl _ ·.1)]
        rfl
      · dsimp only
        rw [if_neg (Nat.not_lt_of_le newer ·.1), if_neg (Nat.lt_asymm newer ·.1)]
        rfl

theorem added_watch (gst : Gst) :
    (gst.added Playbin.made).gstBusAddWatch gst.created =
      gst.added { Playbin.made with watch := true } := by
  unfold gstBusAddWatch
  rw [gst.added_self]
  unfold added set
  dsimp only
  rw [Function.update_idem]

end Gst

namespace MediaPlayerLock

open LockedObject

abbrev Code := LockedObject.Code MediaPlayer MediaPlayer.Returned

/-- A return that touches nothing. -/
def ret (value : MediaPlayer.Returned) : Code := .last (fun _ => True) fun self => (self, value)

/-- `mpPlaybin->element()`, which goes wrong on a null mpPlaybin. -/
def element (next : Option Nat → Code) : Code :=
  .step (fun self => self.mpPlaybin.isSome = true) id fun self => next self.element

/-- `if (mpPlaybin && mpPlaybin->element())`. -/
def guarded (body otherwise : Code) : Code :=
  .step (fun _ => True) id fun self =>
    if self.mpPlaybin.isSome then
      element fun pointer => if pointer.isSome then body else otherwise
    else otherwise

/-- A call on `mpPlaybin->element()` whose outcome is returned; a null element is wrong. -/
def onElement (body : Playbin → Playbin × Bool) : Code :=
  element fun pointer =>
    .last (fun _ => pointer.isSome = true) fun self =>
      match pointer with
      | none => (self, .bool false)
      | some element =>
          let result := body (self.gst.playbin element)
          ({ self with gst := self.gst.set element result.1 }, .bool result.2)

/-- A query of `mpPlaybin->element()`; `next` has its answer. -/
def queryElement (next : Code) : Code :=
  element fun pointer => .step (fun _ => pointer.isSome = true) id fun _ => next

def changeState (state : GstState) (change : StateChange) : Code :=
  guarded (onElement fun playbin => playbin.changeState state change) (ret (.bool false))

def seek (secs : UInt32) (done : Bool) : Code :=
  guarded
    (onElement fun playbin =>
      playbin.gstElementSeekSimple (secs.toNat * MediaPlayer.gstSecond) done)
    (ret (.bool false))

/-- The event is made of locals only; sending it is the second reading of the element. -/
def sendSeekEvent (rate : Gdouble) (position : Option Int) (done : Bool) : Code :=
  guarded
    (queryElement <|
      match position with
      | none => ret (.bool false)
      | some position =>
          let event :=
            if rate.positive then gstEventNewSeek rate (.forward rate position)
            else gstEventNewSeek rate (.backward rate position)
          onElement fun playbin => playbin.gstElementSendEvent event done)
    (ret (.bool false))

def setFile (uri : Option String) : Code :=
  guarded (onElement fun playbin => ({ playbin with uri := uri }, true)) (ret (.bool false))

/-- The common body of getPosition and getDuration. -/
def querySeconds (query : Option Int) : Code :=
  guarded
    (queryElement <|
      match query with
      | none => ret (.seconds (-1))
      | some time => ret (.seconds (MediaPlayer.toInt (MediaPlayer.gstTimeAsSeconds time))))
    (ret (.seconds (-1)))

/-- MyElement::setup, up to the configuration: the factory call, and the member it sets. -/
def elementSetup (made : Bool) (next : Code) : Code :=
  .step (fun self => self.mpPlaybin.isSome = true)
    (fun self => { self with gst := (MyElement.setup self.gst made).2 }) fun self =>
      .step (fun self => self.mpPlaybin.isSome = true)
        (fun later => { later with mpPlaybin := some (MyElement.setup self.gst made).1 })
        fun _ => next

/-- gst_element_get_bus and gst_bus_add_watch. -/
def addWatch (next : Code) : Code :=
  element fun pointer =>
    .step (fun _ => pointer.isSome = true)
      (fun self =>
        match pointer with
        | none => self
        | some element => { self with gst := self.gst.gstBusAddWatch element })
      fun _ => next

def setup (made : Bool) (ready : StateChange) : Code :=
  .step (fun _ => True) (fun self => { self with mpPlaybin := some ⟨none⟩ }) fun _ =>
    .step (fun _ => True) id fun self =>
      if self.mpPlaybin.isNone then ret (.bool false)
      else
        elementSetup made <|
          element fun pointer =>
            if pointer.isNone then ret (.bool false)
            else addWatch (changeState .ready ready)

def teardown : Code :=
  guarded
    (.step (fun self => self.mpPlaybin.isSome = true)
      (fun self =>
        match self.mpPlaybin with
        | none => self
        | some wrapper => { self with gst := wrapper.teardown self.gst })
      fun _ => .last (fun _ => True) fun self => ({ self with mpPlaybin := none }, .bool true))
    (ret (.bool false))

def serve : Request → Code
  | .start change => changeState .playing change
  | .pause change => changeState .paused change
  | .stop change => changeState .null change
  | .seek secs done => seek secs done
  | .setRate rate position done => sendSeekEvent rate position done
  | .setFile _ uri => setFile uri

def body : MediaPlayer.Method → Code
  | .setup made ready => setup made ready
  | .serve request => serve request
  | .getPosition position => querySeconds position
  | .getDuration duration => querySeconds duration
  | .teardown => teardown

/-- What no message changes: the pointer, and which elements there are. -/
def view (self : MediaPlayer) : Option MyElement × Nat := (self.mpPlaybin, self.gst.created)

theorem background_keeps (change : Background) (self after : MediaPlayer)
    (happens : self.background change = some after) : view after = view self := by
  obtain ⟨gst, moved, rfl⟩ := Option.map_eq_some_iff.mp happens
  refine Prod.ext rfl (show gst.created = self.gst.created from ?_)
  cases change with
  | post element type =>
      obtain ⟨-, ⟨⟩⟩ := Option.ite_none_right_eq_some.mp moved
      rfl
  | pop element message =>
      obtain ⟨-, ⟨⟩⟩ := Option.ite_none_right_eq_some.mp moved
      rfl

theorem element_of_held {self : MediaPlayer} {wrapper : Option MyElement}
    (held : self.mpPlaybin = wrapper) : self.element = wrapper.bind MyElement.mElement :=
  congrArg (Option.bind · MyElement.mElement) held

section Statements

variable {seen : Option MyElement × Nat} {spec : MediaPlayer → MediaPlayer × MediaPlayer.Returned}
  {done : MediaPlayer → MediaPlayer}

/-- What the rest of a method has to do, from where the method has got to. -/
abbrev Rest (seen : Option MyElement × Nat)
    (spec : MediaPlayer → MediaPlayer × MediaPlayer.Returned) (done : MediaPlayer → MediaPlayer)
    (code : Code) : Prop :=
  Completes MediaPlayer.background view seen spec done code

/-- What a guarded method does to the player, and its result. -/
def outcome (body : Playbin → Playbin × Bool) (self : MediaPlayer) :
    MediaPlayer × MediaPlayer.Returned :=
  ((self.withElement body).1, .bool (self.withElement body).2)

theorem ret_rest (value : MediaPlayer.Returned)
    (same : ∀ self, view self = seen → spec self = (done self, value)) :
    Rest seen spec done (ret value) :=
  fun self like => ⟨trivial, (same self like).symm⟩

variable (passes : Passes MediaPlayer.background done)

include passes

theorem element_rest (wrapper : MyElement) (next : Option Nat → Code)
    (held : ∀ self, view self = seen → (done self).mpPlaybin = some wrapper)
    (rest : Rest seen spec done (next wrapper.mElement)) : Rest seen spec done (element next) := by
  refine ⟨done, passes, fun self like => ⟨?_, rfl, ?_⟩⟩
  · show (done self).mpPlaybin.isSome = true
    rw [held self like]
    rfl
  · dsimp only
    rw [element_of_held (held self like)]
    exact rest

theorem guarded_rest (wrapper : Option MyElement) (body otherwise : Code)
    (held : ∀ self, view self = seen → (done self).mpPlaybin = wrapper)
    (present : ∀ element, wrapper = some ⟨some element⟩ → Rest seen spec done body)
    (absent : wrapper.bind MyElement.mElement = none → Rest seen spec done otherwise) :
    Rest seen spec done (guarded body otherwise) := by
  refine ⟨done, passes, fun self like => ⟨trivial, rfl, ?_⟩⟩
  dsimp only
  rw [held self like]
  cases wrapper with
  | none => exact absent rfl
  | some wrapper =>
      refine element_rest passes wrapper
        (fun pointer => if pointer.isSome then body else otherwise) held ?_
      match wrapper with
      | ⟨none⟩ => exact absent rfl
      | ⟨some element⟩ => exact present element rfl

/-- The call is the last statement, so it is all that is left of the method. -/
theorem onElement_rest (element : Nat) (body : Playbin → Playbin × Bool)
    (held : ∀ self, view self = seen → (done self).mpPlaybin = some ⟨some element⟩)
    (same : ∀ self, view self = seen → spec self = outcome body (done self)) :
    Rest seen spec done (onElement body) := by
  refine element_rest passes ⟨some element⟩ _ held fun self like => ⟨rfl, ?_⟩
  rw [same self like, outcome,
    MediaPlayer.withElement_some _ _ element (element_of_held (held self like))]

theorem queryElement_rest (element : Nat) (next : Code)
    (held : ∀ self, view self = seen → (done self).mpPlaybin = some ⟨some element⟩)
    (rest : Rest seen spec done next) : Rest seen spec done (queryElement next) :=
  element_rest passes ⟨some element⟩ _ held
    ⟨done, passes, fun _ _ => ⟨rfl, rfl, rest⟩⟩

end Statements

/-- A guarded method, with an element or without one. -/
theorem method_rest {seen : Option MyElement × Nat}
    {spec : MediaPlayer → MediaPlayer × MediaPlayer.Returned} (body otherwise : Code)
    (present : ∀ element, (∀ self, view self = seen → self.mpPlaybin = some ⟨some element⟩) →
      Rest seen spec id body)
    (absent : (∀ self, view self = seen → self.element = none) → Rest seen spec id otherwise) :
    Rest seen spec id (guarded body otherwise) := by
  have held : ∀ self, view self = seen → self.mpPlaybin = seen.1 :=
    fun self like => congrArg Prod.fst like
  refine guarded_rest (passes_id _) seen.1 body otherwise held ?_ ?_
  · exact fun element found => present element fun self like => (held self like).trans found
  · exact fun missing => absent fun self like => (element_of_held (held self like)).trans missing

theorem refused_rest (body : Playbin → Playbin × Bool) (seen : Option MyElement × Nat)
    (absent : ∀ self, view self = seen → self.element = none) :
    Rest seen (outcome body) id (ret (.bool false)) := by
  refine ret_rest _ fun self like => ?_
  rw [outcome, MediaPlayer.withElement_none _ _ (absent self like)]
  rfl

/-- A method that is one call on the element, behind its guard. -/
theorem changes_rest (body : Playbin → Playbin × Bool) (seen : Option MyElement × Nat) :
    Rest seen (outcome body) id (guarded (onElement body) (ret (.bool false))) :=
  method_rest _ _ (fun element own => onElement_rest (passes_id _) element body own fun _ _ => rfl)
    (refused_rest body seen)

/-- The query comes first: without a position nothing is sent. -/
theorem sendSeekEvent_rest (rate : Gdouble) (position : Option Int) (done : Bool)
    (seen : Option MyElement × Nat) :
    Rest seen (outcome fun playbin => playbin.sendSeekEvent rate position done) id
      (sendSeekEvent rate position done) := by
  refine method_rest _ _ (fun element own => ?_) (refused_rest _ seen)
  refine queryElement_rest (passes_id _) element _ own ?_
  cases position with
  | none =>
      refine ret_rest _ fun self like => ?_
      rw [outcome, MediaPlayer.withElement_some _ _ element (element_of_held (own self like))]
      dsimp only [Playbin.sendSeekEvent, Gst.set]
      rw [Function.update_eq_self]
      rfl
  | some position => exact onElement_rest (passes_id _) element _ own fun _ _ => rfl

theorem querySeconds_rest (query : Option Int) (seen : Option MyElement × Nat) :
    Rest seen (fun self => (self, .seconds (self.querySeconds query))) id
      (querySeconds query) := by
  refine method_rest _ _ (fun element own => ?_) fun absent => ?_
  · refine queryElement_rest (passes_id _) element _ own ?_
    cases query with
    | none =>
        refine ret_rest _ fun self like => ?_
        unfold MediaPlayer.querySeconds
        rw [element_of_held (own self like)]
        rfl
    | some time =>
        refine ret_rest _ fun self like => ?_
        unfold MediaPlayer.querySeconds
        rw [element_of_held (own self like)]
        rfl
  · refine ret_rest _ fun self like => ?_
    unfold MediaPlayer.querySeconds
    rw [absent self like]
    rfl

/-- MyElement::teardown leaves an element alone, so all is done by the last statement. -/
theorem teardown_rest (seen : Option MyElement × Nat) :
    Rest seen (MediaPlayer.call .teardown) id teardown := by
  refine method_rest _ _ (fun element own => ?_) fun absent => ?_
  · refine ⟨id, passes_id _, fun self like => ⟨?_, ?_, fun self like => ⟨trivial, ?_⟩⟩⟩
    · show self.mpPlaybin.isSome = true
      rw [own self like]
      rfl
    · obtain ⟨mpPlaybin, gst⟩ := self
      cases own _ like
      rfl
    · rw [MediaPlayer.call, self.teardown_some element (element_of_held (own self like))]
      rfl
  · refine ret_rest _ fun self like => ?_
    rw [MediaPlayer.call, self.teardown_none (absent self like)]
    rfl

theorem serve_rest (request : Request) (seen : Option MyElement × Nat) :
    Rest seen (MediaPlayer.call (.serve request)) id (serve request) := by
  cases request with
  | start change => exact changes_rest _ seen
  | pause change => exact changes_rest _ seen
  | stop change => exact changes_rest _ seen
  | seek secs done => exact changes_rest _ seen
  | setRate rate position done => exact sendSeekEvent_rest rate position done seen
  | setFile filepath uri => exact changes_rest _ seen

/-- What happens in the background passes a setup that has got this far. -/
theorem passes_made (wrapper : Nat → MyElement) (pipelines : Gst → Gst)
    (commutes : ∀ change gst,
      (pipelines gst).background change = (gst.background change).map pipelines) :
    Passes MediaPlayer.background
      fun self => ⟨some (wrapper self.gst.created), pipelines self.gst⟩ := by
  intro change self
  dsimp only [MediaPlayer.background]
  rw [commutes, Option.map_map, Option.map_map]
  cases moved : self.gst.background change with
  | none => rfl
  | some gst =>
      have kept := congrArg Prod.snd
        (background_keeps change self _ (congrArg (Option.map _) moved))
      dsimp only [Option.map_some, Function.comp, view] at kept ⊢
      rw [kept]

/-- Once there is an element, the watch and the change to READY are left. -/
theorem watch_rest (ready : StateChange) (seen : Option MyElement × Nat) :
    Rest seen (MediaPlayer.call (.setup true ready))
      (fun self => ⟨some ⟨some self.gst.created⟩, self.gst.added Playbin.made⟩)
      (addWatch (changeState .ready ready)) := by
  have created : ∀ self, view self = seen → self.gst.created = seen.2 :=
    fun self like => congrArg Prod.snd like
  have held : ∀ self, view self = seen →
      some (⟨some self.gst.created⟩ : MyElement) = some ⟨some seen.2⟩ :=
    fun self like => by rw [created self like]
  have passes := passes_made (fun created => ⟨some created⟩)
    (fun gst => gst.added { Playbin.made with watch := true })
    (fun change gst => gst.background_added _ ⟨rfl, rfl⟩ change)
  refine element_rest ?_ ⟨some seen.2⟩ _ held ⟨_, passes, fun self like => ⟨rfl, ?_, ?_⟩⟩
  · exact passes_made (fun created => ⟨some created⟩) (fun gst => gst.added Playbin.made)
      (fun change gst => gst.background_added _ Playbin.made_silent change)
  · dsimp only
    rw [← created self like, Gst.added_watch]
  · refine guarded_rest passes (some ⟨some seen.2⟩) _ _ held ?_ nofun
    intro element _
    refine onElement_rest passes seen.2 _ held fun self like => ?_
    rw [← Gst.added_watch]
    rfl

theorem setup_rest (made : Bool) (ready : StateChange) (seen : Option MyElement × Nat) :
    Rest seen (MediaPlayer.call (.setup made ready)) id (setup made ready) := by
  have empty := passes_made (fun _ => ⟨none⟩) id
    (fun change gst => passes_id (flip Gst.background) change gst)
  refine ⟨_, empty, fun self _ => ⟨trivial, rfl, ?_⟩⟩
  refine ⟨_, empty, fun self _ => ⟨trivial, rfl, ?_⟩⟩
  cases made with
  | false =>
      refine ⟨_, empty, fun self _ => ⟨rfl, rfl, ?_⟩⟩
      refine ⟨_, empty, fun self _ => ⟨rfl, rfl, ?_⟩⟩
      exact element_rest empty ⟨none⟩ _ (fun _ _ => rfl) (ret_rest _ fun _ _ => rfl)
  | true =>
      have created : ∀ self, view self = seen → self.gst.created = seen.2 :=
        fun self like => congrArg Prod.snd like
      have adding : ∀ change gst, (Gst.added gst Playbin.made).background change =
          (gst.background change).map (·.added Playbin.made) :=
        fun change gst => gst.background_added _ Playbin.made_silent change
      have unset := passes_made (fun _ => ⟨none⟩) (Gst.added · Playbin.made) adding
      have placed := passes_made (fun created => ⟨some created⟩) (Gst.added · Playbin.made) adding
      refine ⟨_, unset, fun self like => ⟨rfl, rfl, ?_⟩⟩
      refine ⟨_, placed, fun later alike => ⟨rfl, ?_, ?_⟩⟩
      · show (⟨some ⟨some self.gst.created⟩, _⟩ : MediaPlayer) = ⟨some ⟨some later.gst.created⟩, _⟩
        rw [created self like, created later alike]
      · refine element_rest placed ⟨some seen.2⟩ _ (fun self like => by rw [created self like]) ?_
        exact watch_rest ready seen

/-- Every method does, statement by statement, what the player does at once. -/
theorem reducible :
    Reducible body MediaPlayer.background MediaPlayer.call view where
  keeps := background_keeps
  completes := fun method seen =>
    match method with
    | .setup made ready => setup_rest made ready seen
    | .serve request => serve_rest request seen
    | .getPosition position => querySeconds_rest position seen
    | .getDuration duration => querySeconds_rest duration seen
    | .teardown => teardown_rest seen

section Keeps

/-- The statement does not set mpPlaybin to null. -/
def Keeps (effect : MediaPlayer → MediaPlayer) : Prop :=
  ∀ self, self.mpPlaybin.isSome = true → (effect self).mpPlaybin.isSome = true

variable {last : (MediaPlayer → MediaPlayer × MediaPlayer.Returned) → Prop}

theorem element_keeps (next : Option Nat → Code)
    (rest : ∀ pointer, (next pointer).Each Keeps last) : (element next).Each Keeps last :=
  ⟨fun _ => id, fun self => rest self.element⟩

theorem guarded_keeps (body otherwise : Code) (present : body.Each Keeps last)
    (absent : otherwise.Each Keeps last) : (guarded body otherwise).Each Keeps last := by
  refine ⟨fun _ => id, fun self => ?_⟩
  dsimp only
  split
  · refine element_keeps _ fun pointer => ?_
    split
    · exact present
    · exact absent
  · exact absent

theorem queryElement_keeps (next : Code) (rest : next.Each Keeps last) :
    (queryElement next).Each Keeps last :=
  element_keeps _ fun _ => ⟨fun _ => id, fun _ => rest⟩

variable (returns : ∀ effect, (Keeps fun self => (effect self).1) → last effect)

include returns

theorem ret_keeps (value : MediaPlayer.Returned) : (ret value).Each Keeps last :=
  returns _ fun _ => id

theorem onElement_keeps (body : Playbin → Playbin × Bool) : (onElement body).Each Keeps last := by
  refine element_keeps _ fun pointer => returns _ fun self present => ?_
  cases pointer with
  | none => exact present
  | some element => exact present

theorem changeState_keeps (state : GstState) (change : StateChange) :
    (changeState state change).Each Keeps last :=
  guarded_keeps _ _ (onElement_keeps returns _) (ret_keeps returns _)

theorem sendSeekEvent_keeps (rate : Gdouble) (position : Option Int) (done : Bool) :
    (sendSeekEvent rate position done).Each Keeps last := by
  refine guarded_keeps _ _ (queryElement_keeps _ ?_) (ret_keeps returns _)
  cases position with
  | none => exact ret_keeps returns _
  | some position => exact onElement_keeps returns _

theorem serve_keeps (request : Request) : (serve request).Each Keeps last := by
  cases request with
  | start change => exact changeState_keeps returns .playing change
  | pause change => exact changeState_keeps returns .paused change
  | stop change => exact changeState_keeps returns .null change
  | seek secs done => exact guarded_keeps _ _ (onElement_keeps returns _) (ret_keeps returns _)
  | setRate rate position done => exact sendSeekEvent_keeps returns rate position done
  | setFile filepath uri =>
      exact guarded_keeps _ _ (onElement_keeps returns _) (ret_keeps returns _)

theorem querySeconds_keeps (query : Option Int) : (querySeconds query).Each Keeps last := by
  refine guarded_keeps _ _ (queryElement_keeps _ ?_) (ret_keeps returns _)
  cases query with
  | none => exact ret_keeps returns _
  | some time => exact ret_keeps returns _

theorem setup_keeps (made : Bool) (ready : StateChange) : (setup made ready).Each Keeps last := by
  refine ⟨fun _ _ => rfl, fun _ => ⟨fun _ => id, fun self => ?_⟩⟩
  dsimp only
  split
  · exact ret_keeps returns _
  · refine ⟨fun _ => id, fun self => ⟨fun _ _ => rfl, fun _ => element_keeps _ fun pointer => ?_⟩⟩
    split
    · exact ret_keeps returns _
    · refine element_keeps _ fun pointer => ⟨fun self present => ?_, fun _ => ?_⟩
      · cases pointer with
        | none => exact present
        | some element => exact present
      · exact changeState_keeps returns .ready ready

omit returns in
/-- Only the last statement of teardown sets mpPlaybin to null. -/
theorem body_keeps (method : MediaPlayer.Method) :
    (body method).Each Keeps
      fun effect => method ≠ .teardown → Keeps fun self => (effect self).1 := by
  cases method with
  | setup made ready => exact setup_keeps (fun _ keeps _ => keeps) made ready
  | serve request => exact serve_keeps (fun _ keeps _ => keeps) request
  | getPosition position => exact querySeconds_keeps (fun _ keeps _ => keeps) position
  | getDuration duration => exact querySeconds_keeps (fun _ keeps _ => keeps) duration
  | teardown =>
      refine guarded_keeps _ _ ⟨fun self present => ?_, fun _ => ?_⟩ (absurd rfl)
      · dsimp only
        split
        · exact present
        · exact present
      · exact absurd rfl

end Keeps

section Runs

open Linearizability Transition

variable {θ : Type} [DecidableEq θ]

/-- Main opens a session while the dispatcher calls start, is made to wait, and finds the
element there. -/
def startDuringSetup : List (Move MediaPlayer.Method Background Bool) :=
  [.call false (.setup true ⟨.success, .ready⟩), .lock false, .execute false,
    .call true (.serve (.start ⟨.async, .playing⟩))] ++
  List.replicate 10 (.execute false) ++
  [.change (.post 0 .eos), .unlock false, .lock true] ++
  List.replicate 4 (.execute true) ++
  [.finish false, .unlock true, .finish true]

end Runs

end MediaPlayerLock

end MediaplayerServer
