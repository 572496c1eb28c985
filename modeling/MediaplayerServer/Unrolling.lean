import Mathlib.Data.Fintype.Card
import Mathlib.Data.Set.Finite.Lattice
import Mathlib.Logic.Relation
import Mathlib.Order.WellFounded

set_option autoImplicit false

/- Recursive definitions that carry no measure. The definition is given by its body,
which takes the function it recurs on as an argument; unrolled to a depth it answers
`none` wherever it would have to recur more deeply. -/
namespace MediaplayerServer.Unrolling

open Relation

variable {α β : Type}

def unroll (body : (α → Option β) → α → Option β) : Nat → α → Option β
  | 0, _ => none
  | depth + 1, argument => body (unroll body depth) argument

/-- The definition returns on the argument: some depth is enough. -/
def Returns (body : (α → Option β) → α → Option β) (argument : α) : Prop :=
  ∃ depth, (unroll body depth argument).isSome = true

/-- `calls argument other` holds when the body, run on `argument`, recurs on `other`: it
returns exactly if all those calls do. -/
def Exact (body : (α → Option β) → α → Option β) (calls : α → α → Prop) : Prop :=
  ∀ recur argument, (body recur argument).isSome = true ↔
    ∀ other, calls argument other → (recur other).isSome = true

section Depth

variable {body : (α → Option β) → α → Option β} {calls : α → α → Prop}

theorem unroll_mono (exact : Exact body calls) (depth more : Nat) (argument : α)
    (enough : (unroll body depth argument).isSome = true) :
    (unroll body (depth + more) argument).isSome = true := by
  induction depth generalizing argument with
  | zero => cases enough
  | succ depth ih =>
      rw [show depth + 1 + more = depth + more + 1 by omega]
      rw [unroll, exact] at enough ⊢
      intro other called
      exact ih other (enough other called)

theorem acc_of_returns (exact : Exact body calls) (argument : α)
    (returns : Returns body argument) : Acc (flip calls) argument := by
  obtain ⟨depth, enough⟩ := returns
  induction depth generalizing argument with
  | zero => cases enough
  | succ depth ih =>
      rw [unroll, exact] at enough
      exact Acc.intro argument fun other called => ih other (enough other called)

/-- Finitely many calls that each return do so at one common depth. -/
theorem common_depth (exact : Exact body calls) (others : Set α) (finite : others.Finite)
    (each : ∀ other ∈ others, Returns body other) :
    ∃ depth, ∀ other ∈ others, (unroll body depth other).isSome = true := by
  induction others, finite using Set.Finite.induction_on with
  | empty => exact ⟨0, fun other member => absurd member (Set.notMem_empty other)⟩
  | @insert other others _ _ ih =>
      obtain ⟨depth, enough⟩ := ih fun other member => each other (Set.mem_insert_of_mem _ member)
      obtain ⟨own, returned⟩ := each other (Set.mem_insert _ _)
      refine ⟨depth + own, fun candidate member => ?_⟩
      rcases Set.mem_insert_iff.mp member with rfl | member
      · rw [Nat.add_comm]
        exact unroll_mono exact own depth candidate returned
      · exact unroll_mono exact depth own candidate (enough candidate member)

theorem returns_of_acc (exact : Exact body calls)
    (finite : ∀ argument, {other | calls argument other}.Finite) (argument : α)
    (reaches : Acc (flip calls) argument) : Returns body argument := by
  induction reaches with
  | intro argument _ ih =>
      obtain ⟨depth, enough⟩ := common_depth exact {other | calls argument other}
        (finite argument) (fun other called => ih other called)
      refine ⟨depth + 1, ?_⟩
      rw [unroll, exact]
      exact enough

/-- A recursion with finitely many calls at each argument returns exactly if no chain of
calls goes on forever. -/
theorem returns_iff_acc (exact : Exact body calls)
    (finite : ∀ argument, {other | calls argument other}.Finite) (argument : α) :
    Returns body argument ↔ Acc (flip calls) argument :=
  ⟨acc_of_returns exact argument, returns_of_acc exact finite argument⟩

end Depth

section Cycle

variable {calls : α → α → Prop}

theorem acc_of_path {first last : α} (path : ReflTransGen calls first last)
    (reaches : Acc (flip calls) first) : Acc (flip calls) last := by
  induction path with
  | refl => exact reaches
  | tail _ last ih => exact ih.inv last

theorem no_cycle_of_acc {argument : α} (reaches : Acc (flip calls) argument) :
    ¬TransGen calls argument argument := by
  induction reaches with
  | intro argument _ ih =>
      intro cycle
      -- the cycle also runs through the first call it makes
      obtain ⟨other, called, back⟩ := TransGen.head'_iff.mp cycle
      exact ih other called (TransGen.tail' back called)

/-- Among finitely many reachable arguments, a chain of calls can go on forever only by
coming back to where it was. -/
theorem acc_iff_no_cycle (argument : α)
    (finite : {other | ReflTransGen calls argument other}.Finite) :
    Acc (flip calls) argument ↔
      ¬∃ other, ReflTransGen calls argument other ∧ TransGen calls other other := by
  constructor
  · rintro reaches ⟨other, path, cycle⟩
    exact no_cycle_of_acc (acc_of_path path reaches) cycle
  · intro acyclic
    let Reached := {other // ReflTransGen calls argument other}
    let later : Reached → Reached → Prop := fun next previous =>
      TransGen calls previous.1 next.1
    have : Finite Reached := finite
    have : IsTrans Reached later := ⟨fun _ _ _ second first => first.trans second⟩
    have : Std.Irrefl later := ⟨fun other cycle => acyclic ⟨other.1, other.2, cycle⟩⟩
    have wellFounded : WellFounded later := Finite.wellFounded_of_trans_of_irrefl later
    have all : ∀ other : Reached, Acc (flip calls) other.1 := by
      intro other
      induction other using wellFounded.induction with
      | _ other ih =>
          refine Acc.intro other.1 fun next called => ?_
          exact ih ⟨next, other.2.tail called⟩ (TransGen.single called)
    exact all ⟨argument, ReflTransGen.refl⟩

end Cycle

end MediaplayerServer.Unrolling
