import MediaplayerServer.MediaPlayerFacts

set_option autoImplicit false

namespace MediaplayerServer

/-- What a client can ask a pipeline to change. -/
structure Settings where
  uri : Option String
  state : GstState
  position : Int
  rate : Gdouble
  deriving DecidableEq, Repr

def Playbin.settings (playbin : Playbin) : Settings :=
  ⟨playbin.uri, playbin.state, playbin.position, playbin.rate⟩

/-- A client operation with the answers of the GStreamer calls it makes. start, pause and
stop differ by their target; `setState` is whatever gst_element_set_state does, for the
target NULL too. -/
inductive Operation
  | changeState (target : GstState) (setState : Playbin → Playbin × GstStateChangeReturn)
  | seek (secs : UInt32) (done : Bool)
  | setRate (rate : Gdouble) (position : Option Int) (done : Bool)
  | setFile (filepath : String) (uri : Option String)

namespace Operation

/-- The part of the operation behind the guard. -/
def body (playbin : Playbin) : Operation → Playbin × Bool
  | changeState _ setState => ((setState playbin).1, decide ((setState playbin).2 ≠ .failure))
  | seek secs done => playbin.gstElementSeekSimple (secs.toNat * MediaPlayer.gstSecond) done
  | setRate rate position done => playbin.sendSeekEvent rate position done
  | setFile _ uri => ({ playbin with uri := uri }, true)

def run (self : MediaPlayer) (operation : Operation) : MediaPlayer × Bool :=
  self.withElement fun playbin => operation.body playbin

end Operation

/-- The operation of a request, with the pipelines' own state changes. -/
def Request.operation : Request → Operation
  | .start change => .changeState .playing fun playbin =>
      playbin.gstElementSetState .playing change
  | .pause change => .changeState .paused fun playbin => playbin.gstElementSetState .paused change
  | .stop change => .changeState .null fun playbin => playbin.gstElementSetState .null change
  | .seek secs done => .seek secs done
  | .setRate rate position done => .setRate rate position done
  | .setFile filepath uri => .setFile filepath uri

theorem serve_eq_run (self : MediaPlayer) (request : Request) :
    self.serve request = request.operation.run self := by
  cases request <;> rfl

namespace Operation

/-- A failing state change changes nothing, and any other one sets the target. -/
def Honest (playbin : Playbin) : Operation → Prop
  | changeState target setState =>
      ((setState playbin).2 = .failure → (setState playbin).1.settings = playbin.settings) ∧
        ((setState playbin).2 ≠ .failure → (setState playbin).1.state = target)
  | _ => True

/-- GStreamer takes the change: every call that the operation needs for it succeeds. -/
def Accepted (playbin : Playbin) : Operation → Prop
  | changeState _ setState => (setState playbin).2 ≠ .failure
  | seek _ done => done = true
  | setRate rate position done => position ≠ none ∧ rate ≠ .finite 0 ∧ done = true
  | setFile _ uri => uri ≠ none

/-- The requested value is in place. -/
def InPlace (playbin : Playbin) : Operation → Prop
  | changeState target _ => playbin.state = target
  | seek secs _ => playbin.position = secs.toNat * MediaPlayer.gstSecond
  | setRate rate _ _ => playbin.rate = rate
  | setFile _ uri => playbin.uri = uri

/-- The change was applied to the current pipeline. -/
def Applied (self : MediaPlayer) (operation : Operation) : Prop :=
  ∃ element, self.element = some element ∧
    operation.Accepted (self.gst.playbin element) ∧
    operation.InPlace ((operation.run self).1.gst.playbin element)

/-- The result says whether the change was applied, and false leaves all as it was. -/
structure Truthful (self : MediaPlayer) (operation : Operation) : Prop where
  applied : (operation.run self).2 = true ↔ operation.Applied self
  unchanged : (operation.run self).2 = false →
    (operation.run self).1.mpPlaybin = self.mpPlaybin ∧
      ∀ element, ((operation.run self).1.gst.playbin element).settings =
        (self.gst.playbin element).settings

/-- setFile with a path that has no URI. -/
def Unlocated (operation : Operation) : Prop :=
  ∃ filepath, operation = setFile filepath none

/-- A refused state change that leaves the state alone leaves everything else alone. -/
theorem gstElementSetState_refused (playbin : Playbin) (target : GstState)
    (change : StateChange) (kept : change.ret = .failure → change.left = playbin.state)
    (failed : (playbin.gstElementSetState target change).2 = .failure) :
    (playbin.gstElementSetState target change).1.settings = playbin.settings := by
  unfold Playbin.gstElementSetState at failed ⊢
  by_cases null : target = .null
  · rw [if_pos null] at failed
    cases failed
  · rw [if_neg null] at failed ⊢
    by_cases refused : change.ret = .failure
    · rw [if_pos refused, Playbin.settings, kept refused]
      rfl
    · rw [if_neg refused] at failed
      exact absurd failed refused

/-- The pipelines' own state changes are honest where a failure leaves the state alone. -/
theorem request_honest (playbin : Playbin) (request : Request)
    (kept : ∀ change, request = .start change ∨ request = .pause change →
      change.ret = .failure → change.left = playbin.state) :
    request.operation.Honest playbin := by
  cases request with
  | start change =>
      exact ⟨gstElementSetState_refused playbin .playing change (kept change (Or.inl rfl)),
        playbin.gstElementSetState_applied .playing change⟩
  | pause change =>
      exact ⟨gstElementSetState_refused playbin .paused change (kept change (Or.inr rfl)),
        playbin.gstElementSetState_applied .paused change⟩
  | stop change =>
      refine ⟨fun failed => ?_, playbin.gstElementSetState_applied .null change⟩
      cases failed
  | seek secs done => trivial
  | setRate rate position done => trivial
  | setFile filepath uri => trivial

/-- A seek event is sent exactly if there is a position to seek to, the rate is not zero
and the pipeline takes it. -/
theorem sendSeekEvent_eq (playbin : Playbin) (rate : Gdouble) (position : Option Int)
    (done : Bool) :
    playbin.sendSeekEvent rate position done =
      if position ≠ none ∧ rate ≠ .finite 0 ∧ done = true then
        ({ playbin with position := position.getD 0, rate := rate }, true)
      else (playbin, false) := by
  cases position with
  | none =>
      rw [if_neg (fun sent => sent.1 rfl)]
      rfl
  | some position =>
      by_cases zero : rate = .finite 0
      · subst zero
        rw [if_neg (fun sent => sent.2.1 rfl)]
        rfl
      · cases done with
        | false =>
            rw [if_neg (fun sent => absurd sent.2.2 (by decide))]
            simp only [Playbin.sendSeekEvent, gstEventNewSeek, if_neg zero]
            split <;> rfl
        | true =>
            rw [if_pos ⟨nofun, zero, rfl⟩]
            simp only [Playbin.sendSeekEvent, gstEventNewSeek, if_neg zero]
            split <;> rfl

/-- Behind the guard, every operation but an unlocated setFile tells the truth. -/
theorem body_accepted (playbin : Playbin) (operation : Operation)
    (located : ¬ operation.Unlocated) :
    (operation.body playbin).2 = true ↔ operation.Accepted playbin := by
  cases operation with
  | changeState target setState => exact decide_eq_true_iff
  | seek secs done => cases done <;> simp [body, Accepted, Playbin.gstElementSeekSimple]
  | setRate rate position done =>
      rw [body, Accepted, sendSeekEvent_eq]
      split
      · rename_i sent
        exact iff_of_true rfl sent
      · rename_i refused
        exact iff_of_false nofun refused
  | setFile filepath uri =>
      refine iff_of_true rfl fun missing => located ⟨filepath, ?_⟩
      rw [missing]

theorem body_inPlace (playbin : Playbin) (operation : Operation)
    (honest : operation.Honest playbin) (accepted : operation.Accepted playbin) :
    operation.InPlace (operation.body playbin).1 := by
  cases operation with
  | changeState target setState => exact honest.2 accepted
  | seek secs done =>
      cases accepted
      rfl
  | setRate rate position done =>
      rw [Accepted] at accepted
      rw [InPlace, body, sendSeekEvent_eq, if_pos accepted]
  | setFile filepath uri => rfl

theorem body_unchanged (playbin : Playbin) (operation : Operation)
    (honest : operation.Honest playbin) (failed : (operation.body playbin).2 = false) :
    (operation.body playbin).1.settings = playbin.settings := by
  cases operation with
  | changeState target setState =>
      rw [body, decide_eq_false_iff_not, ne_eq, not_not] at failed
      exact honest.1 failed
  | seek secs done =>
      cases done with
      | false => rfl
      | true => cases failed
  | setRate rate position done =>
      rw [body, sendSeekEvent_eq] at failed ⊢
      split at failed
      · cases failed
      · rename_i refused
        rw [if_neg refused]
  | setFile filepath uri => cases failed

/-- A playing pipeline is asked to play a path that has no URI. -/
def live : MediaPlayer where
  mpPlaybin := some ⟨some 0⟩
  gst := Gst.initial.gstElementFactoryMake.set 0
    { Playbin.made with uri := some "file:///a.mp3", state := .playing }

/-- setFile returns true, and the URI is gone. -/
theorem unlocated_file_acknowledged :
    ((setFile "/b.mp3" none).run live).2 = true ∧
      (((setFile "/b.mp3" none).run live).1.gst.playbin 0).uri = none ∧
      ¬ (setFile "/b.mp3" none).Applied live := by
  refine ⟨rfl, rfl, ?_⟩
  rintro ⟨element, -, accepted, -⟩
  exact accepted rfl

theorem run_some (self : MediaPlayer) (operation : Operation) (element : Nat)
    (held : self.element = some element) :
    (operation.run self).2 = (operation.body (self.gst.playbin element)).2 ∧
      (operation.run self).1.gst.playbin element =
        (operation.body (self.gst.playbin element)).1 := by
  constructor
  · rw [run, self.withElement_some _ element held]
  · exact self.withElement_self _ element held

theorem applied_iff (self : MediaPlayer) (operation : Operation) (element : Nat)
    (held : self.element = some element)
    (honest : operation.Honest (self.gst.playbin element)) :
    operation.Applied self ↔ operation.Accepted (self.gst.playbin element) := by
  constructor
  · rintro ⟨other, same, accepted, -⟩
    rw [held, Option.some.injEq] at same
    rwa [same]
  · intro accepted
    refine ⟨element, held, accepted, ?_⟩
    rw [(run_some self operation element held).2]
    exact body_inPlace _ operation honest accepted

/-- The result of a client operation is truthful exactly if it is not a setFile, on an
element, whose path has no URI. -/
theorem result_truthful_iff (self : MediaPlayer) (operation : Operation)
    (honest : ∀ element, self.element = some element →
      operation.Honest (self.gst.playbin element)) :
    operation.Truthful self ↔ self.element = none ∨ ¬ operation.Unlocated := by
  cases held : self.element with
  | none =>
      have nothing : operation.run self = (self, false) := self.withElement_none _ held
      refine iff_of_true ⟨?_, ?_⟩ (Or.inl rfl)
      · rw [nothing]
        refine iff_of_false nofun ?_
        rintro ⟨element, present, -⟩
        rw [held] at present
        cases present
      · intro _
        rw [nothing]
        exact ⟨rfl, fun _ => rfl⟩
  | some element =>
      have here := honest element held
      obtain ⟨result, after⟩ := run_some self operation element held
      constructor
      · rintro ⟨applied, -⟩
        right
        rintro ⟨filepath, rfl⟩
        rw [result, applied_iff self _ element held here] at applied
        exact applied.mp rfl rfl
      · rintro (absent | located)
        · cases absent
        · constructor
          · rw [result, applied_iff self operation element held here]
            exact body_accepted _ operation located
          · intro failed
            refine ⟨self.withElement_mpPlaybin _, fun other => ?_⟩
            by_cases same : other = element
            · rw [same, after]
              rw [result] at failed
              exact body_unchanged _ operation here failed
            · have orphan : self.element ≠ some other := by
                rw [held, ne_eq, Option.some.injEq]
                exact Ne.symm same
              rw [run, self.withElement_other _ other orphan]

/-- A refused start says so, and the pipeline plays on. -/
theorem refused_start_truthful :
    (Request.start ⟨.failure, .playing⟩).operation.Truthful live :=
  (result_truthful_iff live (Request.start ⟨.failure, .playing⟩).operation
    (fun element held => request_honest _ _ (by
      cases held
      rintro change (asked | asked) -
      · cases asked
        rfl
      · cases asked))).mpr
    (Or.inr (by rintro ⟨filepath, same⟩; cases same))

end Operation

end MediaplayerServer
