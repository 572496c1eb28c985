import MediaplayerServer.MediaPlayer

set_option autoImplicit false

namespace MediaplayerServer

/-- A pipeline that posts nothing and has nothing left to deliver. -/
structure Playbin.Silent (playbin : Playbin) : Prop where
  flushing : playbin.flushing = true
  queue : playbin.queue = []

namespace Playbin

theorem made_silent : Playbin.made.Silent := ⟨rfl, rfl⟩

/-- Whatever the answer, a state change touches the state and the bus only. -/
theorem gstElementSetState_cases (playbin : Playbin) (target : GstState) (change : StateChange) :
    ∃ state flushing queue,
      (playbin.gstElementSetState target change).1 =
        { playbin with state := state, flushing := flushing, queue := queue } ∧
      (queue = [] ∨ queue = playbin.queue) := by
  unfold gstElementSetState
  split
  · exact ⟨_, _, _, rfl, Or.inl rfl⟩
  · split
    · exact ⟨_, _, _, rfl, Or.inr rfl⟩
    · exact ⟨_, _, _, rfl, Or.inr rfl⟩

theorem gstElementSetState_applied (playbin : Playbin) (target : GstState)
    (change : StateChange)
    (applied : (playbin.gstElementSetState target change).2 ≠ .failure) :
    (playbin.gstElementSetState target change).1.state = target := by
  unfold gstElementSetState at applied ⊢
  split
  · rename_i null
    exact null.symm
  · split
    · rename_i above failed
      simp only [above, failed, ↓reduceIte, ne_eq, not_true_eq_false] at applied
    · rfl

/-- Seeks move the position and the rate only. -/
theorem sendSeekEvent_cases (playbin : Playbin) (rate : Gdouble) (position : Option Int)
    (done : Bool) :
    ∃ moved turned, (playbin.sendSeekEvent rate position done).1 =
      { playbin with position := moved, rate := turned } := by
  unfold sendSeekEvent
  split
  · exact ⟨_, _, rfl⟩
  · dsimp only
    unfold gstElementSendEvent
    split <;> exact ⟨_, _, rfl⟩

theorem gstElementSeekSimple_cases (playbin : Playbin) (target : Int) (done : Bool) :
    ∃ moved turned, (playbin.gstElementSeekSimple target done).1 =
      { playbin with position := moved, rate := turned } := by
  unfold gstElementSeekSimple
  split <;> exact ⟨_, _, rfl⟩

/-- What a request can do to the pipeline it reaches: no request touches the watch or
the reference count, none adds to the bus, only setFile sets the URI, and only start
and pause open a silent bus or leave NULL. -/
theorem serve_cases (playbin : Playbin) (request : Request) :
    ∃ uri state position rate flushing queue,
      (playbin.serve request).1 =
        { playbin with
          uri := uri, state := state, position := position, rate := rate,
          flushing := flushing, queue := queue } ∧
      (queue = [] ∨ queue = playbin.queue) ∧
      ((∀ path name, request ≠ .setFile path name) → uri = playbin.uri) ∧
      (request.raises = false →
        (state = .null ∧ flushing = true ∧ queue = []) ∨
          (state = playbin.state ∧ flushing = playbin.flushing ∧ queue = playbin.queue)) := by
  cases request with
  | start change =>
      obtain ⟨state, flushing, queue, same, emptied⟩ :=
        playbin.gstElementSetState_cases .playing change
      exact ⟨_, state, _, _, flushing, queue, same, emptied, fun _ => rfl, nofun⟩
  | pause change =>
      obtain ⟨state, flushing, queue, same, emptied⟩ :=
        playbin.gstElementSetState_cases .paused change
      exact ⟨_, state, _, _, flushing, queue, same, emptied, fun _ => rfl, nofun⟩
  | stop change =>
      exact ⟨_, _, _, _, _, _, rfl, Or.inl rfl, fun _ => rfl, fun _ => Or.inl ⟨rfl, rfl, rfl⟩⟩
  | seek secs done =>
      obtain ⟨moved, turned, same⟩ :=
        playbin.gstElementSeekSimple_cases (secs.toNat * MediaPlayer.gstSecond) done
      exact ⟨_, _, moved, turned, _, _, same, Or.inr rfl, fun _ => rfl,
        fun _ => Or.inr ⟨rfl, rfl, rfl⟩⟩
  | setRate rate position done =>
      obtain ⟨moved, turned, same⟩ := playbin.sendSeekEvent_cases rate position done
      exact ⟨_, _, moved, turned, _, _, same, Or.inr rfl, fun _ => rfl,
        fun _ => Or.inr ⟨rfl, rfl, rfl⟩⟩
  | setFile path name =>
      exact ⟨_, _, _, _, _, _, rfl, Or.inr rfl, fun other => absurd rfl (other path name),
        fun _ => Or.inr ⟨rfl, rfl, rfl⟩⟩

@[simp] theorem serve_watch (playbin : Playbin) (request : Request) :
    (playbin.serve request).1.watch = playbin.watch := by
  obtain ⟨_, _, _, _, _, _, same, -⟩ := playbin.serve_cases request
  rw [same]

@[simp] theorem serve_refs (playbin : Playbin) (request : Request) :
    (playbin.serve request).1.refs = playbin.refs := by
  obtain ⟨_, _, _, _, _, _, same, -⟩ := playbin.serve_cases request
  rw [same]

theorem serve_queue (playbin : Playbin) (request : Request) (message : GstMessage)
    (waiting : message ∈ (playbin.serve request).1.queue) : message ∈ playbin.queue := by
  obtain ⟨_, _, _, _, _, _, same, emptied, -⟩ := playbin.serve_cases request
  rw [same] at waiting
  rcases emptied with rfl | rfl
  · cases waiting
  · exact waiting

theorem serve_uri (playbin : Playbin) (request : Request)
    (other : ∀ path name, request ≠ .setFile path name) :
    (playbin.serve request).1.uri = playbin.uri := by
  obtain ⟨_, _, _, _, _, _, same, -, kept, -⟩ := playbin.serve_cases request
  rw [same]
  exact kept other

theorem serve_silent (playbin : Playbin) (request : Request) (silent : playbin.Silent)
    (lowers : request.raises = false) : (playbin.serve request).1.Silent := by
  obtain ⟨_, _, _, _, _, _, same, -, -, bus⟩ := playbin.serve_cases request
  rw [same]
  rcases bus lowers with ⟨-, flushing, queue⟩ | ⟨-, flushing, queue⟩
  · exact ⟨flushing, queue⟩
  · exact ⟨flushing.trans silent.flushing, queue.trans silent.queue⟩

theorem serve_null (playbin : Playbin) (request : Request) (null : playbin.state = .null)
    (lowers : request.raises = false) : (playbin.serve request).1.state = .null := by
  obtain ⟨_, _, _, _, _, _, same, -, -, bus⟩ := playbin.serve_cases request
  rw [same]
  rcases bus lowers with ⟨state, -⟩ | ⟨state, -⟩
  · exact state
  · exact state.trans null

theorem serve_start (playbin : Playbin) (change : StateChange)
    (granted : (playbin.serve (.start change)).2 = true) :
    (playbin.serve (.start change)).1.state = .playing := by
  apply gstElementSetState_applied
  simpa only [serve, changeState, decide_eq_true_eq] using granted

/-- The pipeline as MediaPlayer::setup leaves it. -/
def installed (ready : StateChange) : Playbin :=
  (gstElementSetState { made with watch := true } .ready ready).1

theorem installed_cases (ready : StateChange) :
    ∃ state flushing, installed ready =
      { made with state := state, flushing := flushing, watch := true } := by
  obtain ⟨state, flushing, queue, same, emptied⟩ :=
    gstElementSetState_cases { made with watch := true } .ready ready
  have empty : queue = [] := by
    rcases emptied with rfl | rfl <;> rfl
  subst empty
  exact ⟨state, flushing, same⟩

@[simp] theorem installed_watch (ready : StateChange) : (installed ready).watch = true := by
  obtain ⟨_, _, same⟩ := installed_cases ready
  rw [same]

@[simp] theorem installed_uri (ready : StateChange) : (installed ready).uri = none := by
  obtain ⟨_, _, same⟩ := installed_cases ready
  rw [same]
  rfl

@[simp] theorem installed_refs (ready : StateChange) : (installed ready).refs = 1 := by
  obtain ⟨_, _, same⟩ := installed_cases ready
  rw [same]
  rfl

@[simp] theorem installed_queue (ready : StateChange) : (installed ready).queue = [] := by
  obtain ⟨_, _, same⟩ := installed_cases ready
  rw [same]
  rfl

end Playbin

namespace MediaPlayer

theorem withElement_none (self : MediaPlayer) (body : Playbin → Playbin × Bool)
    (absent : self.element = none) : self.withElement body = (self, false) := by
  simp only [withElement, absent]

theorem withElement_some (self : MediaPlayer) (body : Playbin → Playbin × Bool) (element : Nat)
    (held : self.element = some element) :
    self.withElement body =
      ({ self with gst := self.gst.set element (body (self.gst.playbin element)).1 },
        (body (self.gst.playbin element)).2) := by
  simp only [withElement, held]

@[simp] theorem withElement_mpPlaybin (self : MediaPlayer) (body : Playbin → Playbin × Bool) :
    (self.withElement body).1.mpPlaybin = self.mpPlaybin := by
  unfold withElement
  split <;> rfl

@[simp] theorem withElement_element (self : MediaPlayer) (body : Playbin → Playbin × Bool) :
    (self.withElement body).1.element = self.element := by
  simp only [element, withElement_mpPlaybin]

@[simp] theorem withElement_created (self : MediaPlayer) (body : Playbin → Playbin × Bool) :
    (self.withElement body).1.gst.created = self.gst.created := by
  unfold withElement
  split <;> rfl

@[simp] theorem withElement_posted (self : MediaPlayer) (body : Playbin → Playbin × Bool) :
    (self.withElement body).1.gst.posted = self.gst.posted := by
  unfold withElement
  split <;> rfl

@[simp] theorem withElement_nullUnrefs (self : MediaPlayer) (body : Playbin → Playbin × Bool) :
    (self.withElement body).1.gst.nullUnrefs = self.gst.nullUnrefs := by
  unfold withElement
  split <;> rfl

theorem withElement_self (self : MediaPlayer) (body : Playbin → Playbin × Bool) (element : Nat)
    (held : self.element = some element) :
    (self.withElement body).1.gst.playbin element = (body (self.gst.playbin element)).1 := by
  rw [withElement_some self body element held, Gst.set_self]

theorem withElement_other (self : MediaPlayer) (body : Playbin → Playbin × Bool) (other : Nat)
    (orphan : self.element ≠ some other) :
    (self.withElement body).1.gst.playbin other = self.gst.playbin other := by
  cases held : self.element with
  | none => rw [withElement_none self body held]
  | some element =>
      have differ : other ≠ element := by
        rintro rfl
        exact orphan held
      rw [withElement_some self body element held]
      exact Gst.set_other self.gst element other _ differ

/-- All six requests are guarded alike. -/
theorem serve_eq (self : MediaPlayer) (request : Request) :
    self.serve request = self.withElement fun playbin => playbin.serve request := by
  cases request <;> rfl

theorem setup_made (self : MediaPlayer) (ready : StateChange) :
    (self.setup true ready).1 =
      { mpPlaybin := some ⟨some self.gst.created⟩
        gst := { self.gst.set self.gst.created (Playbin.installed ready) with
          created := self.gst.created + 1 } } := by
  simp [setup, MyElement.setup, changeState, withElement, element, Gst.gstBusAddWatch,
    Gst.gstElementFactoryMake, Gst.set, Function.update_idem, Playbin.changeState,
    Playbin.installed]

/-- The inverted test of MyElement::teardown: a live element is dropped without being
unreferenced. -/
theorem teardown_some (self : MediaPlayer) (element : Nat)
    (held : self.element = some element) :
    self.teardown = ({ self with mpPlaybin := none }, true) := by
  obtain ⟨wrapper, present, wrapped⟩ := Option.bind_eq_some_iff.mp held
  simp [teardown, present, wrapped, MyElement.teardown]

theorem teardown_none (self : MediaPlayer) (absent : self.element = none) :
    self.teardown = (self, false) := by
  unfold teardown
  split
  · rename_i wrapper present
    have wrapped : wrapper.mElement = none := by
      simpa only [element, present, Option.bind_some] using absent
    simp only [wrapped, Option.isSome_none, Bool.false_eq_true, ↓reduceIte]
  · rfl

end MediaPlayer

end MediaplayerServer
