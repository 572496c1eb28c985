import Mathlib.Data.List.Basic

set_option autoImplicit false

namespace MediaplayerServer.Linearizability

variable {ι Op Res : Type}

/-- What clients see of a call: that it was made, and what it returned. -/
inductive Event (ι Op Res : Type)
  | invoke (id : ι) (op : Op)
  | respond (id : ι) (result : Res)
  deriving DecidableEq, Repr

def Event.id : Event ι Op Res → ι
  | .invoke id _ => id
  | .respond id _ => id

/-- A call with the result it has where it takes effect. -/
structure Effect (ι Op Res : Type) where
  id : ι
  op : Op
  result : Res
  deriving DecidableEq, Repr

/-- `order` explains the history: it has every call that returned, with its result, and
perhaps some that are still pending; the object allows it; and a call that was made after
another one had returned comes after it. -/
structure Linearization (legal : List (Op × Res) → Prop) (history : List (Event ι Op Res))
    (order : List (Effect ι Op Res)) : Prop where
  legal : legal (order.map fun operation => (operation.op, operation.result))
  once : (order.map Effect.id).Nodup
  invoked : ∀ operation ∈ order, .invoke operation.id operation.op ∈ history
  responded : ∀ id result, .respond id result ∈ history →
    ∃ op, (⟨id, op, result⟩ : Effect ι Op Res) ∈ order
  realTime : ∀ first ∈ order, ∀ second ∈ order,
    [.respond first.id first.result, .invoke second.id second.op].Sublist history →
      [first, second].Sublist order

/-- An entry of a log, which holds the latest one first. -/
inductive LogEntry (ι Op Res : Type)
  | event (event : Event ι Op Res)
  | effect (operation : Effect ι Op Res)
  deriving DecidableEq, Repr

namespace LogEntry

def id : LogEntry ι Op Res → ι
  | .event visible => visible.id
  | .effect operation => operation.id

def seen : LogEntry ι Op Res → Option (Event ι Op Res)
  | .event visible => some visible
  | .effect _ => none

def done : LogEntry ι Op Res → Option (Effect ι Op Res)
  | .event _ => none
  | .effect operation => some operation

end LogEntry

/-- The history of a log, in the order of time. -/
def history (log : List (LogEntry ι Op Res)) : List (Event ι Op Res) :=
  (log.filterMap LogEntry.seen).reverse

/-- The effects of a log, in the order of time. -/
def effects (log : List (LogEntry ι Op Res)) : List (Effect ι Op Res) :=
  (log.filterMap LogEntry.done).reverse

/-- A call is made once, takes effect at most once, after it was made, and returns the result
it took effect with. -/
def Sound : List (LogEntry ι Op Res) → Prop
  | [] => True
  | .event (.invoke id _) :: earlier => Sound earlier ∧ ∀ entry ∈ earlier, entry.id ≠ id
  | .event (.respond id result) :: earlier =>
      Sound earlier ∧ ∃ op, .effect ⟨id, op, result⟩ ∈ earlier
  | .effect operation :: earlier =>
      Sound earlier ∧ .event (.invoke operation.id operation.op) ∈ earlier ∧
        ∀ other ∈ effects earlier, other.id ≠ operation.id

section Logs

variable (log : List (LogEntry ι Op Res))

@[simp] theorem history_event (event : Event ι Op Res) :
    history (.event event :: log) = history log ++ [event] :=
  List.reverse_cons

@[simp] theorem history_effect (operation : Effect ι Op Res) :
    history (.effect operation :: log) = history log := rfl

@[simp] theorem effects_event (event : Event ι Op Res) :
    effects (.event event :: log) = effects log := rfl

@[simp] theorem effects_effect (operation : Effect ι Op Res) :
    effects (.effect operation :: log) = effects log ++ [operation] :=
  List.reverse_cons

theorem mem_history_iff (event : Event ι Op Res) : event ∈ history log ↔ .event event ∈ log := by
  induction log with
  | nil => simp [history]
  | cons entry log ih => cases entry <;> simp [ih, or_comm]

theorem mem_effects_iff (operation : Effect ι Op Res) :
    operation ∈ effects log ↔ .effect operation ∈ log := by
  induction log with
  | nil => simp [effects]
  | cons entry log ih => cases entry <;> simp [ih, or_comm]

end Logs

theorem Sound.tail {entry : LogEntry ι Op Res} {log : List (LogEntry ι Op Res)}
    (sound : Sound (entry :: log)) : Sound log := by
  cases entry with
  | effect operation => exact sound.1
  | event event =>
      cases event with
      | invoke id op => exact sound.1
      | respond id result => exact sound.1

theorem Sound.once {log : List (LogEntry ι Op Res)} (sound : Sound log) :
    ((effects log).map Effect.id).Nodup := by
  induction log with
  | nil => exact List.nodup_nil
  | cons entry log ih =>
      cases entry with
      | event event =>
          rw [effects_event]
          exact ih sound.tail
      | effect operation =>
          obtain ⟨earlier, -, fresh⟩ := sound
          rw [effects_effect, List.map_append, List.map_singleton, List.nodup_append]
          refine ⟨ih earlier, List.pairwise_singleton _ _, ?_⟩
          intro id inside other single same
          obtain ⟨operation', member, rfl⟩ := List.mem_map.mp inside
          rw [List.mem_singleton] at single
          exact fresh operation' member (same.trans single)

theorem Sound.invoked {log : List (LogEntry ι Op Res)} (sound : Sound log)
    {operation : Effect ι Op Res} (member : operation ∈ effects log) :
    .invoke operation.id operation.op ∈ history log := by
  induction log with
  | nil => simp [effects] at member
  | cons entry log ih =>
      cases entry with
      | event event =>
          rw [effects_event] at member
          rw [history_event]
          exact List.mem_append_left _ (ih sound.tail member)
      | effect latest =>
          rw [effects_effect, List.mem_append, List.mem_singleton] at member
          rw [history_effect]
          rcases member with before | rfl
          · exact ih sound.tail before
          · exact (mem_history_iff _ _).mpr sound.2.1

theorem Sound.responded {log : List (LogEntry ι Op Res)} (sound : Sound log) {id : ι} {result : Res}
    (returned : .respond id result ∈ history log) :
    ∃ op, (⟨id, op, result⟩ : Effect ι Op Res) ∈ effects log := by
  induction log with
  | nil => simp [history] at returned
  | cons entry log ih =>
      cases entry with
      | effect operation =>
          rw [history_effect] at returned
          obtain ⟨op, member⟩ := ih sound.tail returned
          exact ⟨op, by rw [effects_effect]; exact List.mem_append_left _ member⟩
      | event event =>
          rw [effects_event]
          rw [history_event, List.mem_append, List.mem_singleton] at returned
          rcases returned with before | rfl
          · exact ih sound.tail before
          · obtain ⟨op, member⟩ := sound.2
            exact ⟨op, (mem_effects_iff _ _).mpr member⟩

/-- What took effect before a call was made came before whatever that call did. -/
theorem Sound.realTime {log : List (LogEntry ι Op Res)} (sound : Sound log)
    {first second : Effect ι Op Res} (member : first ∈ effects log)
    (other : second ∈ effects log)
    (before : [.respond first.id first.result, .invoke second.id second.op].Sublist
      (history log)) :
    [first, second].Sublist (effects log) := by
  induction log with
  | nil => simp [effects] at member
  | cons entry log ih =>
      cases entry with
      | effect operation =>
          rw [history_effect] at before
          rw [effects_effect] at member other ⊢
          rw [List.mem_append, List.mem_singleton] at member other
          obtain ⟨earlier, -, fresh⟩ := sound
          -- the first one has returned before, so it is not the effect of this entry
          have returned : Event.respond first.id first.result ∈ history log :=
            before.subset List.mem_cons_self
          obtain ⟨op, done⟩ := earlier.responded returned
          have inside : first ∈ effects log := by
            rcases member with inside | rfl
            · exact inside
            · exact (fresh _ done rfl).elim
          rcases other with also | rfl
          · exact (ih earlier inside also before).trans (List.sublist_append_left _ _)
          · exact (List.singleton_sublist.mpr inside).append (List.Sublist.refl [second])
      | event event =>
          rw [effects_event] at member other ⊢
          rw [history_event] at before
          rcases List.sublist_append_iff.mp before with ⟨left, right, split, inLeft, inRight⟩
          rcases List.sublist_singleton.mp inRight with rfl | rfl
          · rw [List.append_nil] at split
            exact ih sound.tail member other (split ▸ inLeft)
          · -- the second one is made only now, so it has had no effect yet
            have ends := congrArg List.getLast? split
            rw [List.getLast?_concat] at ends
            obtain rfl : Event.invoke second.id second.op = event := by simpa using ends
            exact (sound.2 _ ((mem_effects_iff _ _).mp other) rfl).elim

/-- The effects of a sound log explain its history. -/
theorem Sound.linearization {legal : List (Op × Res) → Prop} {log : List (LogEntry ι Op Res)}
    (sound : Sound log)
    (allowed : legal ((effects log).map fun operation => (operation.op, operation.result))) :
    Linearization legal (history log) (effects log) where
  legal := allowed
  once := sound.once
  invoked := fun _ member => sound.invoked member
  responded := fun _ _ returned => sound.responded returned
  realTime := fun _ member _ other before => sound.realTime member other before

end MediaplayerServer.Linearizability
