import MediaplayerServer.Linearizability
import MediaplayerServer.Transition
import Mathlib.Logic.Function.Basic

set_option autoImplicit false

/- An object whose operations run statement by statement behind one lock, while its
environment changes it between any two statements. Where these changes could as well have
come before the operation they fall into, the threads see every operation take effect at once. -/
namespace MediaplayerServer.LockedObject

open Linearizability Transition

variable {σ Op Res Env θ : Type}

/-- The rest of an operation. A statement goes wrong in a state where it is not `defined`;
what comes after it may depend on the state it met. The last one returns. -/
inductive Code (σ Res : Type)
  | last (defined : σ → Prop) (effect : σ → σ × Res)
  | step (defined : σ → Prop) (effect : σ → σ) (next : σ → Code σ Res)

/-- The next statement does not go wrong. -/
def Code.Defined : Code σ Res → σ → Prop
  | .last defined _ => defined
  | .step defined _ _ => defined

/-- Where a thread is: it holds the lock while `inside` or `leaving`. -/
inductive Phase (σ Op Res : Type)
  | idle
  | waiting (op : Op)
  | inside (op : Op) (code : Code σ Res)
  | leaving (result : Res)
  | returning (result : Res)

/-- The calls of a thread are told apart by a serial number. -/
structure System (σ Op Res θ : Type) where
  object : σ
  holder : Option θ
  phase : θ → Phase σ Op Res
  serial : θ → Nat
  log : List (LogEntry (θ × Nat) Op Res)

inductive Move (Op Env θ : Type)
  | call (thread : θ) (op : Op)
  | lock (thread : θ)
  | execute (thread : θ)
  | unlock (thread : θ)
  | finish (thread : θ)
  | change (env : Env)
  deriving DecidableEq, Repr

namespace System

def initial (object : σ) : System σ Op Res θ where
  object := object
  holder := none
  phase := fun _ => .idle
  serial := fun _ => 0
  log := []

/-- The call a thread is in, or will make next. -/
def current (system : System σ Op Res θ) (thread : θ) : θ × Nat :=
  (thread, system.serial thread)

variable [DecidableEq θ]

def enter (system : System σ Op Res θ) (thread : θ) (phase : Phase σ Op Res) :
    System σ Op Res θ :=
  { system with phase := Function.update system.phase thread phase }

def step (body : Op → Code σ Res) (environment : Env → σ → Option σ) (system : System σ Op Res θ) :
    Move Op Env θ → Option (System σ Op Res θ)
  | .call thread op =>
      match system.phase thread with
      | .idle =>
          some { system.enter thread (.waiting op) with
            log := .event (.invoke (system.current thread) op) :: system.log }
      | _ => none
  | .lock thread =>
      match system.phase thread, system.holder with
      | .waiting op, none =>
          some { system.enter thread (.inside op (body op)) with holder := some thread }
      | _, _ => none
  | .execute thread =>
      match system.phase thread with
      | .inside op (.step _ effect next) =>
          some { system.enter thread (.inside op (next system.object)) with
            object := effect system.object }
      | .inside op (.last _ effect) =>
          some { system.enter thread (.leaving (effect system.object).2) with
            object := (effect system.object).1
            log := .effect ⟨system.current thread, op, (effect system.object).2⟩ :: system.log }
      | _ => none
  | .unlock thread =>
      match system.phase thread with
      | .leaving result => some { system.enter thread (.returning result) with holder := none }
      | _ => none
  | .finish thread =>
      match system.phase thread with
      | .returning result =>
          some { system.enter thread .idle with
            serial := Function.update system.serial thread (system.serial thread + 1)
            log := .event (.respond (system.current thread) result) :: system.log }
      | _ => none
  | .change env =>
      (environment env system.object).map fun object => { system with object := object }

end System

/-- The object with its operations done at once, between changes of the environment: the
states it can be in after operations with these results. -/
inductive Atomic (spec : Op → σ → σ × Res) (environment : Env → σ → Option σ) (start : σ) :
    σ → List (Op × Res) → Prop
  | start : Atomic spec environment start start []
  | operation (object : σ) (trace : List (Op × Res)) (op : Op)
      (before : Atomic spec environment start object trace) :
      Atomic spec environment start (spec op object).1 (trace ++ [(op, (spec op object).2)])
  | change (object after : σ) (trace : List (Op × Res)) (env : Env)
      (before : Atomic spec environment start object trace)
      (changed : environment env object = some after) :
      Atomic spec environment start after trace

/-- A change after what was `done` so far is the same change before it. -/
def Passes (environment : Env → σ → Option σ) (done : σ → σ) : Prop :=
  ∀ env object, environment env (done object) = (environment env object).map done

theorem passes_id (environment : Env → σ → Option σ) : Passes environment id :=
  fun env object => (congrFun Option.map_id (environment env object)).symm

/-- The code completes an operation that has so far done `done`: its statements do not go
wrong, only what changes pass is done before the last one, and the last one is the rest of the
operation. All of this may rely on what the environment leaves alone, the `seen` part. -/
def Completes {α : Type} (environment : Env → σ → Option σ) (view : σ → α) (seen : α)
    (spec : σ → σ × Res) : (σ → σ) → Code σ Res → Prop
  | done, .last defined effect => ∀ object, view object = seen →
      defined (done object) ∧ effect (done object) = spec object
  | done, .step defined effect next => ∃ further, Passes environment further ∧
      ∀ object, view object = seen → defined (done object) ∧
        effect (done object) = further object ∧
          Completes environment view seen spec further (next (done object))

/-- Every operation completes what `spec` does at once. -/
structure Reducible {α : Type} (body : Op → Code σ Res) (environment : Env → σ → Option σ)
    (spec : Op → σ → σ × Res) (view : σ → α) : Prop where
  keeps : ∀ env object after, environment env object = some after → view after = view object
  completes : ∀ op seen, Completes environment view seen (spec op) id (body op)

section Moves

variable [DecidableEq θ] (body : Op → Code σ Res) (environment : Env → σ → Option σ)

/-- What each move needs and does. -/
inductive Moved (system : System σ Op Res θ) : Move Op Env θ → System σ Op Res θ → Prop
  | called (thread : θ) (op : Op) (free : system.phase thread = .idle) :
      Moved system (.call thread op) { system.enter thread (.waiting op) with
        log := .event (.invoke (system.current thread) op) :: system.log }
  | locked (thread : θ) (op : Op) (waits : system.phase thread = .waiting op)
      (free : system.holder = none) :
      Moved system (.lock thread)
        { system.enter thread (.inside op (body op)) with holder := some thread }
  | stepped (thread : θ) (op : Op) (defined : σ → Prop) (effect : σ → σ) (next : σ → Code σ Res)
      (runs : system.phase thread = .inside op (.step defined effect next)) :
      Moved system (.execute thread)
        { system.enter thread (.inside op (next system.object)) with
          object := effect system.object }
  | ended (thread : θ) (op : Op) (defined : σ → Prop) (effect : σ → σ × Res)
      (runs : system.phase thread = .inside op (.last defined effect)) :
      Moved system (.execute thread)
        { system.enter thread (.leaving (effect system.object).2) with
          object := (effect system.object).1
          log := .effect ⟨system.current thread, op, (effect system.object).2⟩ :: system.log }
  | unlocked (thread : θ) (result : Res) (leaves : system.phase thread = .leaving result) :
      Moved system (.unlock thread)
        { system.enter thread (.returning result) with holder := none }
  | finished (thread : θ) (result : Res) (returns : system.phase thread = .returning result) :
      Moved system (.finish thread) { system.enter thread .idle with
        serial := Function.update system.serial thread (system.serial thread + 1)
        log := .event (.respond (system.current thread) result) :: system.log }
  | changed (env : Env) (object : σ) (happens : environment env system.object = some object) :
      Moved system (.change env) { system with object := object }

theorem step_of_moved (system next : System σ Op Res θ) (move : Move Op Env θ)
    (moved : Moved body environment system move next) :
    system.step body environment move = some next := by
  cases moved with
  | called thread op free => simp only [System.step, free]
  | locked thread op waits free => simp only [System.step, waits, free]
  | stepped thread op defined effect next runs => simp only [System.step, runs]
  | ended thread op defined effect runs => simp only [System.step, runs]
  | unlocked thread result leaves => simp only [System.step, leaves]
  | finished thread result returns => simp only [System.step, returns]
  | changed env object happens => simp only [System.step, happens, Option.map_some]

theorem moved_of_step (system next : System σ Op Res θ) (move : Move Op Env θ)
    (stepped : system.step body environment move = some next) :
    Moved body environment system move next := by
  cases move with
  | call thread op =>
      simp only [System.step] at stepped
      split at stepped <;> cases stepped
      exact .called thread op (by assumption)
  | lock thread =>
      simp only [System.step] at stepped
      split at stepped <;> cases stepped
      exact .locked thread _ (by assumption) (by assumption)
  | execute thread =>
      simp only [System.step] at stepped
      split at stepped <;> cases stepped
      · exact .stepped thread _ _ _ _ (by assumption)
      · exact .ended thread _ _ _ (by assumption)
  | unlock thread =>
      simp only [System.step] at stepped
      split at stepped <;> cases stepped
      exact .unlocked thread _ (by assumption)
  | finish thread =>
      simp only [System.step] at stepped
      split at stepped <;> cases stepped
      exact .finished thread _ (by assumption)
  | change env =>
      obtain ⟨object, happens, rfl⟩ := Option.map_eq_some_iff.mp stepped
      exact .changed env object happens

end Moves

/-- What the log tells of a call, by where its thread is in it. -/
def Told {ι : Type} (log : List (LogEntry ι Op Res)) (id : ι) : Phase σ Op Res → Prop
  | .idle => ∀ entry ∈ log, entry.id ≠ id
  | .waiting op => .event (.invoke id op) ∈ log ∧ ∀ other ∈ effects log, other.id ≠ id
  | .inside op _ => .event (.invoke id op) ∈ log ∧ ∀ other ∈ effects log, other.id ≠ id
  | .leaving result => ∃ op, .effect ⟨id, op, result⟩ ∈ log
  | .returning result => ∃ op, .effect ⟨id, op, result⟩ ∈ log

/-- What is logged of one call does not matter to another. -/
theorem Told.cons {ι : Type} {log : List (LogEntry ι Op Res)} {id : ι} {phase : Phase σ Op Res}
    (told : Told log id phase) {entry : LogEntry ι Op Res} (other : entry.id ≠ id) :
    Told (entry :: log) id phase := by
  have fresh : (∀ operation ∈ effects log, operation.id ≠ id) →
      ∀ operation ∈ effects (entry :: log), operation.id ≠ id := by
    intro before operation member
    rw [mem_effects_iff] at member
    rcases List.mem_cons.mp member with rfl | old
    · exact other
    · exact before operation ((mem_effects_iff _ _).mpr old)
  cases phase with
  | idle =>
      intro entry' member
      rcases List.mem_cons.mp member with rfl | old
      · exact other
      · exact told entry' old
  | waiting op => exact ⟨List.mem_cons_of_mem _ told.1, fresh told.2⟩
  | inside op code => exact ⟨List.mem_cons_of_mem _ told.1, fresh told.2⟩
  | leaving result => exact told.imp fun op member => List.mem_cons_of_mem _ member
  | returning result => exact told.imp fun op member => List.mem_cons_of_mem _ member

/-- The thread is between taking the lock and giving it back. -/
def Phase.holds : Phase σ Op Res → Bool
  | .inside _ _ => true
  | .leaving _ => true
  | _ => false

/-- The operations a log tells of, with their results. -/
def results {ι : Type} (log : List (LogEntry ι Op Res)) : List (Op × Res) :=
  (effects log).map fun operation => (operation.op, operation.result)

section Invariant

variable {α : Type} (environment : Env → σ → Option σ) (view : σ → α) (spec : Op → σ → σ × Res)

/-- What the holder of the lock has made of the object `before` its operation. -/
def Phase.Stands (before now : σ) : Phase σ Op Res → Prop
  | .inside op code => ∃ done, Passes environment done ∧ now = done before ∧
      Completes environment view (view before) (spec op) done code
  | _ => now = before

def System.Stands (system : System σ Op Res θ) (before : σ) : Prop :=
  match system.holder with
  | none => system.object = before
  | some thread => (system.phase thread).Stands environment view spec before system.object

/-- The log is that of operations done at once, and the object is what they made of it, up to
what the holder of the lock is doing. -/
structure Explained (start : σ) (system : System σ Op Res θ) : Prop where
  sound : Sound system.log
  known : ∀ entry ∈ system.log, entry.id.2 ≤ system.serial entry.id.1
  told : ∀ thread, Told system.log (system.current thread) (system.phase thread)
  held : ∀ thread, system.holder = some thread ↔ (system.phase thread).holds = true
  object : ∃ before, Atomic spec environment start before (results system.log) ∧
    system.Stands environment view spec before

end Invariant

theorem explained_initial {α : Type} (environment : Env → σ → Option σ) (view : σ → α)
    (spec : Op → σ → σ × Res) (start : σ) :
    Explained environment view spec start ((System.initial start : System σ Op Res θ)) where
  sound := trivial
  known := List.forall_mem_nil _
  told := fun _ => List.forall_mem_nil _
  held := fun _ => ⟨nofun, nofun⟩
  object := ⟨start, .start, rfl⟩

section Steps

variable [DecidableEq θ]

theorem forall_enter (property : θ → Phase σ Op Res → Prop) (system : System σ Op Res θ)
    (thread : θ) (phase : Phase σ Op Res)
    (others : ∀ other, other ≠ thread → property other (system.phase other))
    (own : property thread phase) (other : θ) :
    property other ((system.enter thread phase).phase other) := by
  unfold System.enter
  dsimp only
  by_cases same : other = thread
  · subst same
    rw [Function.update_self]
    exact own
  · rw [Function.update_of_ne same]
    exact others other same

variable {α : Type} {body : Op → Code σ Res} {environment : Env → σ → Option σ} {view : σ → α}
  {spec : Op → σ → σ × Res} {start : σ} {system next : System σ Op Res θ} {move : Move Op Env θ}
  (explained : Explained environment view spec start system)
  (stepped : system.step body environment move = some next)

include explained stepped

theorem step_sound : Sound next.log := by
  cases moved_of_step body environment system next move stepped with
  | called thread op free =>
      have fresh := explained.told thread
      rw [free] at fresh
      exact ⟨explained.sound, fresh⟩
  | ended thread op defined effect runs =>
      have pending := explained.told thread
      rw [runs] at pending
      exact ⟨explained.sound, pending⟩
  | finished thread result returns =>
      have done := explained.told thread
      rw [returns] at done
      exact ⟨explained.sound, done⟩
  | _ => exact explained.sound

theorem step_known : ∀ entry ∈ next.log, entry.id.2 ≤ next.serial entry.id.1 := by
  cases moved_of_step body environment system next move stepped with
  | called thread op free =>
      intro entry member
      rcases List.mem_cons.mp member with rfl | old
      · exact Nat.le_refl _
      · exact explained.known entry old
  | ended thread op defined effect runs =>
      intro entry member
      rcases List.mem_cons.mp member with rfl | old
      · exact Nat.le_refl _
      · exact explained.known entry old
  | finished thread result returns =>
      have more : ∀ other, system.serial other ≤
          Function.update system.serial thread (system.serial thread + 1) other := by
        intro other
        by_cases same : other = thread
        · subst same
          rw [Function.update_self]
          exact Nat.le_succ _
        · exact Nat.le_of_eq (Function.update_of_ne same _ _).symm
      intro entry member
      rcases List.mem_cons.mp member with rfl | old
      · exact more thread
      · exact Nat.le_trans (explained.known entry old) (more _)
  | _ => exact explained.known

theorem step_told : ∀ thread, Told next.log (next.current thread) (next.phase thread) := by
  have apart : ∀ thread other : θ, other ≠ thread → system.current thread ≠ system.current other :=
    fun thread other differ same => differ (congrArg Prod.fst same).symm
  cases moved_of_step body environment system next move stepped with
  | called thread op free =>
      refine forall_enter (fun other => Told _ (system.current other)) system thread _ ?_ ?_
      · exact fun other differ => (explained.told other).cons (apart thread other differ)
      · have fresh := explained.told thread
        rw [free] at fresh
        refine ⟨List.mem_cons_self, fun operation member => ?_⟩
        rw [effects_event, mem_effects_iff] at member
        exact fresh _ member
  | locked thread op waits free =>
      refine forall_enter (fun other => Told _ (system.current other)) system thread _ ?_ ?_
      · exact fun other _ => explained.told other
      · have pending := explained.told thread
        rw [waits] at pending
        exact pending
  | stepped thread op defined effect next runs =>
      refine forall_enter (fun other => Told _ (system.current other)) system thread _ ?_ ?_
      · exact fun other _ => explained.told other
      · have pending := explained.told thread
        rw [runs] at pending
        exact pending
  | ended thread op defined effect runs =>
      refine forall_enter (fun other => Told _ (system.current other)) system thread _ ?_ ?_
      · exact fun other differ => (explained.told other).cons (apart thread other differ)
      · exact ⟨op, List.mem_cons_self⟩
  | unlocked thread result leaves =>
      refine forall_enter (fun other => Told _ (system.current other)) system thread _ ?_ ?_
      · exact fun other _ => explained.told other
      · have done := explained.told thread
        rw [leaves] at done
        exact done
  | finished thread result returns =>
      intro other
      by_cases same : other = thread
      · -- the next serial number is above every one in the log
        subst same
        unfold System.enter System.current
        dsimp only
        rw [Function.update_self, Function.update_self]
        intro entry member
        rcases List.mem_cons.mp member with rfl | old
        · exact fun same => absurd (congrArg Prod.snd same) (Nat.ne_of_lt (Nat.lt_succ_self _))
        · rintro same
          have below := explained.known entry old
          rw [same] at below
          exact Nat.not_succ_le_self _ below
      · unfold System.enter System.current
        dsimp only
        rw [Function.update_of_ne same, Function.update_of_ne same]
        exact (explained.told other).cons (apart thread other same)
  | changed env object happens => exact explained.told

omit stepped in
theorem held_enter (thread : θ) (phase : Phase σ Op Res)
    (same : phase.holds = (system.phase thread).holds) (other : θ) :
    system.holder = some other ↔ ((system.enter thread phase).phase other).holds = true := by
  refine forall_enter (fun other phase => system.holder = some other ↔ phase.holds = true)
    system thread phase ?_ ?_ other
  · exact fun other _ => explained.held other
  · rw [same]
    exact explained.held thread

theorem step_held : ∀ thread, next.holder = some thread ↔ (next.phase thread).holds = true := by
  cases moved_of_step body environment system next move stepped with
  | called thread op free =>
      exact held_enter explained thread _ (congrArg Phase.holds free).symm
  | locked thread op waits free =>
      refine forall_enter (fun other phase => some thread = some other ↔ phase.holds = true)
        system thread _ ?_ (iff_of_true rfl rfl)
      intro other differ
      refine iff_of_false (fun same => differ (Option.some.inj same).symm) fun holds => ?_
      have held := (explained.held other).mpr holds
      rw [free] at held
      cases held
  | stepped thread op defined effect next runs =>
      exact held_enter explained thread _ (congrArg Phase.holds runs).symm
  | ended thread op defined effect runs =>
      exact held_enter explained thread _ (congrArg Phase.holds runs).symm
  | unlocked thread result leaves =>
      refine forall_enter (fun other phase => none = some other ↔ phase.holds = true)
        system thread _ ?_ (iff_of_false nofun nofun)
      intro other differ
      refine iff_of_false nofun fun holds => ?_
      have own := (explained.held thread).mpr (congrArg Phase.holds leaves)
      rw [(explained.held other).mpr holds] at own
      exact differ (Option.some.inj own)
  | finished thread result returns =>
      exact held_enter explained thread _ (congrArg Phase.holds returns).symm
  | changed env object happens => exact explained.held

omit [DecidableEq θ] explained stepped in
/-- Where an operation has got to depends on the object and on who holds the lock. -/
theorem stands_congr {before : σ} (stands : system.Stands environment view spec before)
    (object : next.object = system.object) (holder : next.holder = system.holder)
    (phase : ∀ thread, system.holder = some thread → next.phase thread = system.phase thread) :
    next.Stands environment view spec before := by
  unfold System.Stands at stands ⊢
  rw [holder, object]
  cases held : system.holder with
  | none =>
      rw [held] at stands
      exact stands
  | some thread =>
      rw [held] at stands
      dsimp only
      rw [phase thread held]
      exact stands

omit stepped in
theorem enter_phase (thread : θ) (phase : Phase σ Op Res)
    (free : (system.phase thread).holds = false) (other : θ)
    (held : system.holder = some other) :
    (system.enter thread phase).phase other = system.phase other := by
  refine Function.update_of_ne ?_ _ _
  rintro rfl
  rw [(explained.held other).mp held] at free
  cases free

omit [DecidableEq θ] stepped in
theorem holder_stands {before : σ} (stands : system.Stands environment view spec before)
    (thread : θ) (holds : (system.phase thread).holds = true) :
    (system.phase thread).Stands environment view spec before system.object := by
  unfold System.Stands at stands
  rw [(explained.held thread).mpr holds] at stands
  exact stands

omit stepped in
/-- A thread that does not hold the lock may go where it likes outside. -/
theorem outside_stands {before : σ} (stands : system.Stands environment view spec before)
    (thread : θ) (phase : Phase σ Op Res) (serial : θ → Nat)
    (log : List (LogEntry (θ × Nat) Op Res))
    (free : (system.phase thread).holds = false) :
    { system.enter thread phase with serial := serial, log := log }.Stands environment view spec
      before :=
  stands_congr stands rfl rfl (enter_phase explained thread phase free)

omit explained stepped in
theorem locked_stands {before : σ}
    (stands : system.Stands environment view spec before)
    (reducible : Reducible body environment spec view) (thread : θ) (op : Op)
    (free : system.holder = none) :
    { system.enter thread (.inside op (body op)) with holder := some thread }.Stands environment
      view spec before := by
  unfold System.Stands at stands ⊢
  rw [free] at stands
  dsimp only [System.enter] at stands ⊢
  rw [Function.update_self]
  exact ⟨id, passes_id environment, stands, reducible.completes op _⟩

omit stepped in
theorem executed_stands {before : σ} (stands : system.Stands environment view spec before)
    (thread : θ) (op : Op) (defined : σ → Prop) (effect : σ → σ) (rest : σ → Code σ Res)
    (runs : system.phase thread = .inside op (.step defined effect rest)) :
    { system.enter thread (.inside op (rest system.object)) with
      object := effect system.object }.Stands environment view spec before := by
  have holds := congrArg Phase.holds runs
  have here := holder_stands explained stands thread holds
  rw [runs] at here
  obtain ⟨done, -, reached, further, passes, statement⟩ := here
  obtain ⟨-, same, completes⟩ := statement before rfl
  unfold System.Stands
  dsimp only [System.enter]
  rw [(explained.held thread).mpr holds]
  dsimp only
  rw [Function.update_self, reached]
  exact ⟨further, passes, same, completes⟩

omit stepped in
/-- The last statement of an operation is where it takes effect. -/
theorem ended_stands {before : σ} (stands : system.Stands environment view spec before)
    (thread : θ) (op : Op) (defined : σ → Prop) (effect : σ → σ × Res)
    (log : List (LogEntry (θ × Nat) Op Res))
    (runs : system.phase thread = .inside op (.last defined effect)) :
    effect system.object = spec op before ∧
      { system.enter thread (.leaving (effect system.object).2) with
        object := (effect system.object).1
        log := log }.Stands environment view spec (spec op before).1 := by
  have holds := congrArg Phase.holds runs
  have here := holder_stands explained stands thread holds
  rw [runs] at here
  obtain ⟨done, -, reached, completes⟩ := here
  obtain ⟨-, same⟩ := completes before rfl
  rw [← reached] at same
  refine ⟨same, ?_⟩
  unfold System.Stands
  dsimp only [System.enter]
  rw [(explained.held thread).mpr holds]
  dsimp only
  rw [Function.update_self, same]
  rfl

omit stepped in
theorem unlocked_stands {before : σ} (stands : system.Stands environment view spec before)
    (thread : θ) (result : Res) (leaves : system.phase thread = .leaving result) :
    { system.enter thread (.returning result) with holder := none }.Stands environment view spec
      before := by
  have here := holder_stands explained stands thread (congrArg Phase.holds leaves)
  rw [leaves] at here
  exact here

omit [DecidableEq θ] explained stepped in
/-- A change is one of the object before the operation that is under way, too. -/
theorem changed_stands {before object : σ} (stands : system.Stands environment view spec before)
    (reducible : Reducible body environment spec view) (env : Env)
    (happens : environment env system.object = some object) :
    ∃ after, environment env before = some after ∧
      { system with object := object }.Stands environment view spec after := by
  unfold System.Stands at stands ⊢
  dsimp only
  cases holder : system.holder with
  | none =>
      rw [holder] at stands
      dsimp only at stands
      rw [stands] at happens
      exact ⟨object, happens, rfl⟩
  | some thread =>
      rw [holder] at stands
      dsimp only at stands ⊢
      cases phase : system.phase thread with
      | inside op code =>
          rw [phase] at stands
          obtain ⟨done, passes, reached, completes⟩ := stands
          rw [reached, passes] at happens
          obtain ⟨after, happened, rfl⟩ := Option.map_eq_some_iff.mp happens
          refine ⟨after, happened, done, passes, rfl, ?_⟩
          rw [reducible.keeps env before after happened]
          exact completes
      | _ =>
          rw [phase] at stands
          rw [show system.object = before from stands] at happens
          exact ⟨object, happens, rfl⟩

omit [DecidableEq θ] stepped in
/-- The next statement does not go wrong. -/
theorem statement_defined (thread : θ) (op : Op) (code : Code σ Res)
    (runs : system.phase thread = .inside op code) : code.Defined system.object := by
  obtain ⟨before, -, stands⟩ := explained.object
  have here := holder_stands explained stands thread (congrArg Phase.holds runs)
  rw [runs] at here
  obtain ⟨done, -, same, completes⟩ := here
  rw [same]
  cases code with
  | last defined effect => exact (completes before rfl).1
  | step defined effect next =>
      obtain ⟨further, -, rest⟩ := completes
      exact (rest before rfl).1

theorem step_object (reducible : Reducible body environment spec view) :
    ∃ before, Atomic spec environment start before (results next.log) ∧
      next.Stands environment view spec before := by
  obtain ⟨before, atomic, stands⟩ := explained.object
  cases moved_of_step body environment system next move stepped with
  | called thread op free =>
      refine ⟨before, ?_, outside_stands explained stands thread _ _ _ (congrArg Phase.holds free)⟩
      rw [results, effects_event]
      exact atomic
  | locked thread op waits free =>
      exact ⟨before, atomic, locked_stands stands reducible thread op free⟩
  | stepped thread op defined effect rest runs =>
      exact ⟨before, atomic, executed_stands explained stands thread op defined effect rest runs⟩
  | ended thread op defined effect runs =>
      obtain ⟨same, here⟩ := ended_stands explained stands thread op defined effect _ runs
      refine ⟨(spec op before).1, ?_, here⟩
      rw [results, effects_effect, List.map_append, List.map_singleton, same]
      exact .operation before _ op atomic
  | unlocked thread result leaves =>
      exact ⟨before, atomic, unlocked_stands explained stands thread result leaves⟩
  | finished thread result returns =>
      refine ⟨before, ?_,
        outside_stands explained stands thread _ _ _ (congrArg Phase.holds returns)⟩
      rw [results, effects_event]
      exact atomic
  | changed env object happens =>
      obtain ⟨after, happened, here⟩ := changed_stands stands reducible env happens
      exact ⟨after, .change before after _ env atomic happened, here⟩

theorem step_explained (reducible : Reducible body environment spec view) :
    Explained environment view spec start next where
  sound := step_sound explained stepped
  known := step_known explained stepped
  told := step_told explained stepped
  held := step_held explained stepped
  object := step_object explained stepped reducible

end Steps

section Statements

/-- Every statement of the code, whatever states it meets, has the property. -/
def Code.Each (step : (σ → σ) → Prop) (last : (σ → σ × Res) → Prop) : Code σ Res → Prop
  | .last _ effect => last effect
  | .step _ effect next => step effect ∧ ∀ object, (next object).Each step last

variable (step : Op → (σ → σ) → Prop) (last : Op → (σ → σ × Res) → Prop)

/-- What is left of the operations that threads are in has statements with the property only. -/
def System.Within (system : System σ Op Res θ) : Prop :=
  ∀ thread op code, system.phase thread = .inside op code → code.Each (step op) (last op)

theorem initial_within (start : σ) :
    ((System.initial start : System σ Op Res θ)).Within step last :=
  fun _ _ _ => nofun

theorem step_within [DecidableEq θ] {body : Op → Code σ Res} {environment : Env → σ → Option σ}
    {system next : System σ Op Res θ} {move : Move Op Env θ}
    (bodies : ∀ op, (body op).Each (step op) (last op)) (within : system.Within step last)
    (stepped : system.step body environment move = some next) : next.Within step last := by
  have entered : ∀ thread phase, (∀ op code, phase = .inside op code →
      code.Each (step op) (last op)) → (system.enter thread phase).Within step last :=
    fun thread phase own => forall_enter
      (fun _ phase => ∀ op code, phase = .inside op code → code.Each (step op) (last op))
      system thread phase (fun other _ => within other) own
  cases moved_of_step body environment system next move stepped with
  | called thread op free => exact entered thread _ fun _ _ => nofun
  | locked thread op waits free =>
      refine entered thread _ fun op code same => ?_
      cases same
      exact bodies op
  | stepped thread op defined effect rest runs =>
      refine entered thread _ fun op code same => ?_
      cases same
      exact (within thread _ _ runs).2 system.object
  | ended thread op defined effect runs => exact entered thread _ fun _ _ => nofun
  | unlocked thread result leaves => exact entered thread _ fun _ _ => nofun
  | finished thread result returns => exact entered thread _ fun _ _ => nofun
  | changed change object happens => exact within

end Statements

section Runs

variable [DecidableEq θ] {α : Type} {body : Op → Code σ Res} {environment : Env → σ → Option σ}
  {view : σ → α} {spec : Op → σ → σ × Res} {start : σ} {system : System σ Op Res θ}
  {moves : List (Move Op Env θ)} (reducible : Reducible body environment spec view)
  (reached : run (System.step body environment) (System.initial start) moves = some system)

include reducible reached

theorem run_explained : Explained environment view spec start system :=
  run_invariant_of_step
    (fun _ _ _ explained stepped => step_explained explained stepped reducible)
    (explained_initial environment view spec start) reached

/-- The threads see operations that are done at once. -/
theorem linearizable :
    Linearization (fun trace => ∃ object, Atomic spec environment start object trace)
      (history system.log) (effects system.log) := by
  have explained := run_explained reducible reached
  obtain ⟨before, atomic, -⟩ := explained.object
  exact explained.sound.linearization ⟨before, atomic⟩

/-- While nobody holds the lock the object is what the operations made of it. -/
theorem unlocked_object (free : system.holder = none) :
    Atomic spec environment start system.object (results system.log) := by
  obtain ⟨before, atomic, stands⟩ := (run_explained reducible reached).object
  unfold System.Stands at stands
  rw [free] at stands
  dsimp only at stands
  rw [stands]
  exact atomic

end Runs

section Progress

variable [DecidableEq θ] {body : Op → Code σ Res} {environment : Env → σ → Option σ}

/-- The thread has given the lock back, and the others are where they were. -/
structure Released (system final : System σ Op Res θ) (thread : θ) : Prop where
  free : final.holder = none
  returning : ∃ result, final.phase thread = .returning result
  serial : final.serial = system.serial
  others : ∀ other, other ≠ thread → final.phase other = system.phase other

theorem released_of_step {system next : System σ Op Res θ} {move : Move Op Env θ} (thread : θ)
    (phase : Phase σ Op Res) (stepped : system.step body environment move = some next)
    (serial : next.serial = system.serial)
    (phases : next.phase = Function.update system.phase thread phase)
    (onward : CanReach (System.step body environment) (Released next · thread) next) :
    CanReach (System.step body environment) (Released system · thread) system := by
  obtain ⟨moves, final, reached, released⟩ := onward
  refine canReach_step stepped ⟨moves, final, reached, released.free, released.returning,
    released.serial.trans serial, fun other differ => ?_⟩
  rw [released.others other differ, phases]
  exact Function.update_of_ne differ _ _

theorem leaving_releases (system : System σ Op Res θ) (thread : θ) (result : Res)
    (leaves : system.phase thread = .leaving result) :
    CanReach (System.step body environment) (Released system · thread) system := by
  obtain ⟨next, stepped, free, serial, phases⟩ : ∃ next,
      system.step body environment (.unlock thread) = some next ∧ next.holder = none ∧
        next.serial = system.serial ∧
          next.phase = Function.update system.phase thread (.returning result) :=
    ⟨_, step_of_moved _ _ system _ _ (.unlocked thread result leaves), rfl, rfl, rfl⟩
  refine canReach_step stepped (canReach_here ⟨free, ⟨result, ?_⟩, serial, fun other differ => ?_⟩)
  · rw [phases]
    exact Function.update_self ..
  · rw [phases]
    exact Function.update_of_ne differ _ _

/-- An operation has only so many statements. -/
theorem inside_releases (thread : θ) (op : Op) (code : Code σ Res) (system : System σ Op Res θ)
    (runs : system.phase thread = .inside op code) :
    CanReach (System.step body environment) (Released system · thread) system := by
  induction code generalizing system with
  | last defined effect =>
      obtain ⟨next, stepped, serial, phases⟩ : ∃ next,
          system.step body environment (.execute thread) = some next ∧
            next.serial = system.serial ∧ next.phase =
              Function.update system.phase thread (.leaving (effect system.object).2) :=
        ⟨_, step_of_moved _ _ system _ _ (.ended thread op defined effect runs), rfl, rfl⟩
      refine released_of_step thread _ stepped serial phases ?_
      refine leaving_releases next thread (effect system.object).2 ?_
      rw [phases]
      exact Function.update_self ..
  | step defined effect rest ih =>
      obtain ⟨next, stepped, serial, phases⟩ : ∃ next,
          system.step body environment (.execute thread) = some next ∧
            next.serial = system.serial ∧ next.phase =
              Function.update system.phase thread (.inside op (rest system.object)) :=
        ⟨_, step_of_moved _ _ system _ _ (.stepped thread op defined effect rest runs), rfl, rfl⟩
      refine released_of_step thread _ stepped serial phases ?_
      refine ih system.object next ?_
      rw [phases]
      exact Function.update_self ..

/-- Whoever holds the lock can give it back. -/
theorem holder_releases {α : Type} {view : σ → α} {spec : Op → σ → σ × Res} {start : σ}
    {system : System σ Op Res θ} (explained : Explained environment view spec start system)
    (thread : θ) (holds : system.holder = some thread) :
    CanReach (System.step body environment) (Released system · thread) system := by
  have held := (explained.held thread).mp holds
  cases phase : system.phase thread with
  | inside op code => exact inside_releases thread op code system phase
  | leaving result => exact leaving_releases system thread result phase
  | idle => rw [phase] at held; cases held
  | waiting op => rw [phase] at held; cases held
  | returning result => rw [phase] at held; cases held

/-- The call a thread is in has returned. -/
def Answered (id : θ × Nat) (final : System σ Op Res θ) : Prop :=
  ∃ result, .event (.respond id result) ∈ final.log

theorem canReach_onward {system : System σ Op Res θ} {thread : θ}
    {goal : System σ Op Res θ → Prop}
    (released : CanReach (System.step body environment) (Released system · thread) system)
    (onward : ∀ final, Released system final thread →
      CanReach (System.step body environment) goal final) :
    CanReach (System.step body environment) goal system := by
  obtain ⟨moves, middle, reached, holds⟩ := released
  obtain ⟨rest, final, further, met⟩ := onward middle holds
  exact ⟨moves ++ rest, final, (run_append_iff _ _ _ _ _).mpr ⟨middle, reached, further⟩, met⟩

theorem returning_answers (system : System σ Op Res θ) (thread : θ) (result : Res)
    (returns : system.phase thread = .returning result) :
    CanReach (System.step body environment) (Answered (system.current thread)) system := by
  refine canReach_step (step_of_moved _ _ system _ _ (.finished thread result returns)) ?_
  exact canReach_here ⟨result, List.mem_cons_self⟩

theorem released_answers (system final : System σ Op Res θ) (thread : θ)
    (released : Released system final thread) :
    CanReach (System.step body environment) (Answered (system.current thread)) final := by
  obtain ⟨result, returns⟩ := released.returning
  have same : final.current thread = system.current thread :=
    congrArg (Prod.mk thread) (congrFun released.serial thread)
  rw [← same]
  exact returning_answers final thread result returns

/-- With the lock free, a thread that waits for it can take it and finish its call. -/
theorem waiting_answers (system : System σ Op Res θ) (thread : θ) (op : Op)
    (waits : system.phase thread = .waiting op) (free : system.holder = none) :
    CanReach (System.step body environment) (Answered (system.current thread)) system := by
  obtain ⟨next, stepped, serial, phases⟩ : ∃ next,
      system.step body environment (.lock thread) = some next ∧
        next.serial = system.serial ∧
          next.phase = Function.update system.phase thread (.inside op (body op)) :=
    ⟨_, step_of_moved _ _ system _ _ (.locked thread op waits free), rfl, rfl⟩
  have released : CanReach (System.step body environment) (Released system · thread) system := by
    refine released_of_step thread _ stepped serial phases ?_
    refine inside_releases thread op (body op) next ?_
    rw [phases]
    exact Function.update_self ..
  exact canReach_onward released (released_answers system · thread)

/-- No call is stuck: whoever holds the lock can give it back, and then the call can take
it, be carried out and return. -/
theorem call_can_return {α : Type} {view : σ → α} {spec : Op → σ → σ × Res} {start : σ}
    {system : System σ Op Res θ} {moves : List (Move Op Env θ)}
    (reducible : Reducible body environment spec view)
    (reached : run (System.step body environment) (System.initial start) moves = some system)
    (thread : θ) (busy : system.phase thread ≠ .idle) :
    CanReach (System.step body environment) (Answered (system.current thread)) system := by
  have explained := run_explained reducible reached
  cases phase : system.phase thread with
  | idle => exact absurd phase busy
  | returning result => exact returning_answers system thread result phase
  | inside op code =>
      exact canReach_onward (inside_releases thread op code system phase)
        (released_answers system · thread)
  | leaving result =>
      exact canReach_onward (leaving_releases system thread result phase)
        (released_answers system · thread)
  | waiting op =>
      cases holder : system.holder with
      | none => exact waiting_answers system thread op phase holder
      | some other =>
          have differ : thread ≠ other := by
            rintro rfl
            have held := (explained.held thread).mp holder
            rw [phase] at held
            cases held
          refine canReach_onward (holder_releases explained other holder) fun final released => ?_
          have same : final.current thread = system.current thread :=
            congrArg (Prod.mk thread) (congrFun released.serial thread)
          rw [← same]
          exact waiting_answers final thread op ((released.others thread differ).trans phase)
            released.free

end Progress

end MediaplayerServer.LockedObject
