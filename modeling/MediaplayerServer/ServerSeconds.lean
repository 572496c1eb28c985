import MediaplayerServer.ServerTick

set_option autoImplicit false

namespace MediaplayerServer

open Transition

namespace MediaPlayer

/-- What a query answers: nothing where there is no element to ask. -/
def answer (self : MediaPlayer) (query : Option Int) : Option Int :=
  self.element.bind fun _ => query

theorem querySeconds_answer (self : MediaPlayer) (query : Option Int) :
    self.querySeconds query =
      match self.answer query with
      | none => -1
      | some time => toInt (gstTimeAsSeconds time) := by
  unfold querySeconds answer
  cases self.element <;> cases query <;> rfl

/-- The number of values of a 32-bit `int` from 0 on, 2^31. -/
def intRange : Int := 2147483648

theorem toInt_lt (value : Int) : toInt value < intRange := by
  have bound : value.bmod uintRange < ((uintRange : Int) + 1) / 2 := Int.bmod_lt (by decide)
  exact bound

theorem toInt_eq_neg_one_iff (value : Int) :
    toInt value = -1 ↔ value % uintRange = uintRange - 1 := by
  unfold toInt uintRange Int.bmod
  dsimp only
  split <;> omega

theorem toInt_eq_self (value : Int) (positive : 0 ≤ value) (fits : value < intRange) :
    toInt value = value := by
  unfold intRange at fits
  exact Int.bmod_eq_of_le_mul_two (by unfold uintRange; omega) (by unfold uintRange; omega)

end MediaPlayer

open MediaPlayer

/-- What it may mean that an answer is a known time: every time from 0 on is one, a failure and
GST_CLOCK_TIME_NONE are none, and other negative times may be or not. -/
structure KnownTime (known : Option Int → Prop) : Prop where
  time : ∀ time, 0 ≤ time → known (some time)
  failed : ¬known none
  none : ¬known (some (-1))

/-- The answer is a time from 0 on. -/
def Timed (answer : Option Int) : Prop := ∃ time, answer = some time ∧ 0 ≤ time

theorem timed_known : KnownTime Timed where
  time := fun time positive => ⟨time, rfl, positive⟩
  failed := by rintro ⟨time, ⟨⟩, -⟩
  none := by
    rintro ⟨time, same, positive⟩
    cases same
    exact absurd positive (by decide)

/-- The query failed, or reported GST_CLOCK_TIME_NONE. -/
def Unknown (answer : Option Int) : Prop := answer = none ∨ answer = some (-1)

/-- The seconds that an answer should give: the full ones of a known time, and -1
instead of an unknown one. -/
structure ExactSeconds (answer : Option Int) (seconds : Int) : Prop where
  known : ∀ time, answer = some time → 0 ≤ time → seconds = time.fdiv gstSecond
  unknown : Unknown answer → seconds = -1

/-- The answer is not the unknown time, and its seconds fit an `int`. -/
def Representable (answer : Option Int) : Prop :=
  ∀ time, answer = some time → time ≠ -1 ∧ time < intRange * gstSecond

/-- A getter that gives -1 for the answer: the query failed, or its whole seconds are the
`int` -1. -/
def Untold (answer : Option Int) : Prop :=
  ∀ time, answer = some time → gstTimeAsSeconds time % uintRange = uintRange - 1

theorem gstTimeAsSeconds_eq (time : Int) (positive : 0 ≤ time) :
    gstTimeAsSeconds time = time.fdiv gstSecond := by
  rw [gstTimeAsSeconds, Int.tdiv_eq_ediv_of_nonneg positive,
    Int.fdiv_eq_ediv_of_nonneg time (by decide)]

theorem seconds_lt_iff (time : Int) :
    time.fdiv gstSecond < intRange ↔ time < intRange * gstSecond := by
  rw [Int.fdiv_eq_ediv_of_nonneg time (by decide)]
  exact Int.ediv_lt_iff_lt_mul (by decide)

/-- getPosition and getDuration are exact for such answers only. -/
theorem exact_iff (self : MediaPlayer) (query : Option Int) :
    ExactSeconds (self.answer query) (self.querySeconds query) ↔
      Representable (self.answer query) := by
  rw [querySeconds_answer]
  cases self.answer query with
  | none => exact iff_of_true ⟨nofun, fun _ => rfl⟩ nofun
  | some time =>
      constructor
      · intro precise time answered
        cases answered
        constructor
        · rintro rfl
          exact absurd (precise.unknown (Or.inr rfl)) (by decide)
        · rw [← seconds_lt_iff]
          by_cases positive : 0 ≤ time
          · rw [← precise.known time rfl positive]
            exact toInt_lt _
          · rw [seconds_lt_iff, intRange, gstSecond]
            omega
      · intro representable
        obtain ⟨told, fits⟩ := representable time rfl
        constructor
        · intro same answered positive
          cases answered
          change toInt (gstTimeAsSeconds time) = _
          rw [gstTimeAsSeconds_eq time positive]
          exact toInt_eq_self _ (Int.fdiv_nonneg positive (by decide))
            ((seconds_lt_iff time).mpr fits)
        · rintro (failed | untold)
          · cases failed
          · exact absurd (Option.some.inj untold) told

theorem querySeconds_eq_neg_one_iff (self : MediaPlayer) (query : Option Int) :
    self.querySeconds query = -1 ↔ Untold (self.answer query) := by
  rw [querySeconds_answer]
  cases self.answer query with
  | none => exact iff_of_true rfl nofun
  | some time =>
      dsimp only
      rw [toInt_eq_neg_one_iff]
      exact ⟨fun told _ same => Option.some.inj same ▸ told, fun untold => untold time rfl⟩

-- of the negative times, minus one second gives -1, and minus two seconds another number
example : toInt (gstTimeAsSeconds (-1000000000)) = -1 ∧
    toInt (gstTimeAsSeconds (-2000000000)) = -2 := by decide

theorem toUint_eq_self (value : Int) (positive : 0 ≤ value) (fits : value < uintRange) :
    (toUint value : Int) = value := by
  rw [toUint, Int.emod_eq_of_lt positive fits, Int.toNat_of_nonneg positive]

/-- A seek's target in nanoseconds. -/
theorem seek_target (self : MediaPlayer) (secs : UInt32) (element : Nat)
    (held : self.element = some element) :
    ((self.seek secs true).1.gst.playbin element).position = secs.toNat * gstSecond := by
  rw [seek, withElement_self self _ element held]
  rfl

/-- The target of any 32-bit number of seconds fits a gint64. -/
theorem seek_target_lt (secs : UInt32) :
    (secs.toNat * gstSecond : Int) < 9223372036854775808 := by
  have bound := secs.toNat_lt
  unfold gstSecond
  omega

namespace Server

/-- The number is that of the answer's full seconds, if these fit a 32-bit `uint`. -/
def Fits (answer : Option Int) (number : Nat) : Prop :=
  ∀ time, answer = some time → 0 ≤ time.fdiv gstSecond → time.fdiv gstSecond < uintRange →
    number = time.fdiv gstSecond

/-- Seconds and nanoseconds agree around one updateProgress, with reads in `first` and
`second`: a seek hands on the exact target, both getters are exact, and the client is told
both numbers if both times are known, and nothing otherwise. -/
structure Agrees (known : Option Int → Prop) (secs : UInt32) (first second final : Server)
    (position duration : Option Int) : Prop where
  target : (secs.toNat * gstSecond : Int) < 9223372036854775808
  lands : ∀ element, first.element = some element →
    ((first.player.seek secs true).1.gst.playbin element).position = secs.toNat * gstSecond
  getPosition : ExactSeconds (first.player.answer position) (first.player.getPosition position)
  getDuration : ExactSeconds (second.player.answer duration) (second.player.getDuration duration)
  emits : known (first.player.answer position) → known (second.player.answer duration) →
    ∃ p d, final.signals = .notifyProgress p d :: second.signals ∧
      Fits (first.player.answer position) p ∧ Fits (second.player.answer duration) d
  silent : ¬(known (first.player.answer position) ∧ known (second.player.answer duration)) →
    final.signals = second.signals
  reported : first.player.answer position = some (secs.toNat * gstSecond) →
    known (second.player.answer duration) →
    ∃ d, final.signals = .notifyProgress secs.toNat d :: second.signals

theorem Tick.signals {first second final : Server} {position duration : Option Int}
    {between : List Action} (tick : Tick first position between second)
    (stepped : step second (.tickDuration duration) = some final) :
    final.signals =
      second.progress (first.player.getPosition position) (second.player.getDuration duration) := by
  obtain ⟨read, ticking, rfl⟩ := (step_tickDuration_iff _ _ _).mp stepped
  rw [tick.ticking, Dispatcher.ticking.injEq] at ticking
  rw [ticking]

/-- Nothing is told without a skeleton, or where one of the numbers is -1. -/
theorem progress_silent_iff (server : Server) (position duration : Int) :
    server.progress position duration = server.signals ↔
      (server.handshake.mMediaplayerInterface = true → position = -1 ∨ duration = -1) := by
  unfold progress emit
  by_cases told : position ≠ -1 ∧ duration ≠ -1
  · rw [if_pos told]
    split
    · rename_i created
      refine iff_of_false (List.cons_ne_self _ _) fun unknown => ?_
      exact (unknown created).elim told.1 told.2
    · rename_i missing
      exact iff_of_true rfl fun created => absurd created missing
  · rw [if_neg told]
    exact iff_of_true rfl fun _ => by omega

theorem progress_told (server : Server) (position duration : Int)
    (created : server.handshake.mMediaplayerInterface = true) (first : position ≠ -1)
    (second : duration ≠ -1) :
    server.progress position duration =
      .notifyProgress (toUint position) (toUint duration) :: server.signals := by
  unfold progress emit
  rw [if_pos ⟨first, second⟩, if_pos created]

/-- An exact getter's number is still exact as an argument of the signal. -/
theorem fits_of_exact {answer : Option Int} {seconds : Int} (exact : ExactSeconds answer seconds) :
    Fits answer (toUint seconds) := by
  intro time told positive fits
  have later : 0 ≤ time := by
    rw [Int.fdiv_eq_ediv_of_nonneg time (by decide)] at positive
    exact (Int.ediv_nonneg_iff_of_pos (by decide)).mp positive
  rw [exact.known time told later]
  exact toUint_eq_self _ positive fits

/-- Seconds and nanoseconds agree exactly if neither query reports the unknown time or a
time of 2^31 seconds or more, the skeleton exists when there is something to tell, and both times
are known where neither passes for -1 seconds, and only there. -/
theorem seconds_agree_iff (known : Option Int → Prop) (knows : KnownTime known) (secs : UInt32)
    (first second final : Server) (position duration : Option Int) (between : List Action)
    (tick : Tick first position between second)
    (stepped : step second (.tickDuration duration) = some final) :
    Agrees known secs first second final position duration ↔
      Representable (first.player.answer position) ∧
        Representable (second.player.answer duration) ∧
        (known (first.player.answer position) → known (second.player.answer duration) →
          second.handshake.mMediaplayerInterface = true) ∧
        (second.handshake.mMediaplayerInterface = true →
          (known (first.player.answer position) ∧ known (second.player.answer duration) ↔
            ¬Untold (first.player.answer position) ∧
              ¬Untold (second.player.answer duration))) := by
  have signals := tick.signals stepped
  have position_iff := querySeconds_eq_neg_one_iff first.player position
  have duration_iff := querySeconds_eq_neg_one_iff second.player duration
  constructor
  · intro agrees
    have told : known (first.player.answer position) → known (second.player.answer duration) →
        second.handshake.mMediaplayerInterface = true ∧
          first.player.getPosition position ≠ -1 ∧ second.player.getDuration duration ≠ -1 := by
      intro timed lasting
      obtain ⟨p, d, emitted, -, -⟩ := agrees.emits timed lasting
      obtain ⟨created, read, long, -, -⟩ :=
        progress_emitted second _ _ p d (signals.symm.trans emitted)
      exact ⟨created, read, long⟩
    refine ⟨(exact_iff _ _).mp agrees.getPosition, (exact_iff _ _).mp agrees.getDuration,
      fun timed lasting => (told timed lasting).1, fun created => ⟨?_, ?_⟩⟩
    · rintro ⟨timed, lasting⟩
      obtain ⟨-, read, long⟩ := told timed lasting
      exact ⟨read ∘ position_iff.mpr, long ∘ duration_iff.mpr⟩
    · rintro ⟨read, long⟩
      by_contra unknown
      have silent := (progress_silent_iff second _ _).mp
        (signals.symm.trans (agrees.silent unknown)) created
      exact silent.elim (read ∘ position_iff.mp) (long ∘ duration_iff.mp)
  · rintro ⟨positioned, lasting, created, told⟩
    have getPosition := (exact_iff first.player position).mpr positioned
    have getDuration := (exact_iff second.player duration).mpr lasting
    have emits : known (first.player.answer position) →
        known (second.player.answer duration) →
        final.signals = .notifyProgress (toUint (first.player.getPosition position))
          (toUint (second.player.getDuration duration)) :: second.signals := by
      intro timed long
      have skeleton := created timed long
      obtain ⟨first_told, second_told⟩ := (told skeleton).mp ⟨timed, long⟩
      rw [signals]
      exact progress_told second _ _ skeleton (first_told ∘ position_iff.mp)
        (second_told ∘ duration_iff.mp)
    refine ⟨seek_target_lt secs, seek_target first.player secs, getPosition, getDuration,
      ?_, ?_, ?_⟩
    · intro timed long
      exact ⟨_, _, emits timed long, fits_of_exact getPosition, fits_of_exact getDuration⟩
    · intro unknown
      rw [signals]
      refine (progress_silent_iff second _ _).mpr fun skeleton => ?_
      rcases not_and_or.mp (unknown ∘ (told skeleton).mpr) with read | long
      · exact Or.inl (position_iff.mpr (not_not.mp read))
      · exact Or.inr (duration_iff.mpr (not_not.mp long))
    · intro landed long
      have positive : 0 ≤ (secs.toNat * gstSecond : Int) := by unfold gstSecond; omega
      have timed : known (first.player.answer position) := landed ▸ knows.time _ positive
      have exact := fits_of_exact getPosition _ landed
      rw [Int.mul_fdiv_cancel _ (by decide)] at exact
      have small : (secs.toNat : Int) < uintRange := Int.ofNat_lt.mpr secs.toNat_lt
      have same := Int.natCast_inj.mp (exact (Int.natCast_nonneg _) small)
      exact ⟨_, same ▸ emits timed long⟩

/-- The unknown duration of a live stream is told as 0 seconds. -/
theorem unknown_duration_told :
    ∃ first second final,
      run step initial startedRun = some first ∧ Tick first (some 5000000000) [] second ∧
      step second (.tickDuration (some (-1))) = some final ∧
      second.player.getDuration (some (-1)) = 0 ∧
      final.signals = .notifyProgress 5 0 :: second.signals ∧
      ∀ known, ¬Agrees known 5 first second final (some 5000000000) (some (-1)) := by
  refine ⟨_, _, _, rfl, ⟨rfl, ⟨_, rfl, rfl⟩, nofun⟩, rfl, rfl, rfl, fun known agrees => ?_⟩
  exact absurd (agrees.getDuration.unknown (Or.inr rfl)) (by decide)

/-- Ordinary times are told. -/
theorem ordinary_times_agree :
    ∃ first second final,
      run step initial startedRun = some first ∧ Tick first (some 5000000000) [] second ∧
      step second (.tickDuration (some 9500000000)) = some final ∧
      Agrees Timed 5 first second final (some 5000000000) (some 9500000000) := by
  refine ⟨_, _, _, rfl, ⟨rfl, ⟨_, rfl, rfl⟩, nofun⟩, rfl, ?_⟩
  refine (seconds_agree_iff Timed timed_known 5 _ _ _ (some 5000000000) (some 9500000000) []
    ⟨rfl, ⟨_, rfl, rfl⟩, nofun⟩ rfl).mpr ⟨?_, ?_, fun _ _ => rfl, fun _ => iff_of_true ?_ ?_⟩
  · rintro - ⟨⟩
    decide
  · rintro - ⟨⟩
    decide
  · exact ⟨timed_known.time _ (by decide), timed_known.time _ (by decide)⟩
  · exact ⟨fun untold => absurd (untold _ rfl) (by decide),
      fun untold => absurd (untold _ rfl) (by decide)⟩

end Server

end MediaplayerServer
