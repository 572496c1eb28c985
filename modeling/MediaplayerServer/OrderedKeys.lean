import Mathlib.Data.List.Lex
import Mathlib.Order.Lattice

set_option autoImplicit false

namespace MediaplayerServer.OrderedKeys

section Bounds

variable {α : Type} [LinearOrder α]

/-- The least of the keys that is not below the bound. -/
def lowerBound (bound : α) : List α → Option α
  | [] => none
  | key :: rest =>
      match lowerBound bound rest with
      | none => if bound ≤ key then some key else none
      | some least => if bound ≤ key ∧ key < least then some key else some least

def IsLowerBound (bound : α) (keys : List α) : Option α → Prop
  | none => ∀ key ∈ keys, ¬bound ≤ key
  | some least => least ∈ keys ∧ bound ≤ least ∧ ∀ key ∈ keys, bound ≤ key → least ≤ key

theorem lowerBound_spec (bound : α) (keys : List α) :
    IsLowerBound bound keys (lowerBound bound keys) := by
  induction keys with
  | nil => exact nofun
  | cons key rest ih =>
      rw [lowerBound]
      cases found : lowerBound bound rest with
      | none =>
          rw [found] at ih
          dsimp only
          by_cases above : bound ≤ key
          · rw [if_pos above]
            refine ⟨List.mem_cons_self, above, List.forall_mem_cons.mpr ⟨fun _ => le_rfl, ?_⟩⟩
            exact fun other member higher => absurd higher (ih other member)
          · rw [if_neg above]
            exact List.forall_mem_cons.mpr ⟨above, ih⟩
      | some least =>
          rw [found] at ih
          obtain ⟨member, below, smallest⟩ := ih
          dsimp only
          by_cases smaller : bound ≤ key ∧ key < least
          · rw [if_pos smaller]
            refine ⟨List.mem_cons_self, smaller.1, List.forall_mem_cons.mpr ⟨fun _ => le_rfl, ?_⟩⟩
            exact fun other inside higher => smaller.2.le.trans (smallest other inside higher)
          · rw [if_neg smaller]
            refine ⟨List.mem_cons_of_mem _ member, below, List.forall_mem_cons.mpr ⟨?_, smallest⟩⟩
            exact fun above => not_lt.mp fun less => smaller ⟨above, less⟩

end Bounds

section Texts

variable {α : Type} [LinearOrder α]

theorem le_append (start rest : List α) : start ≤ start ++ rest := by
  induction start with
  | nil =>
      cases rest with
      | nil => exact le_rfl
      | cons first others => exact (List.nil_lt_cons first others).le
  | cons first others ih => exact List.cons_le_cons first ih

theorem head_le_head {first head : α} {others tail : List α}
    (below : first :: others ≤ head :: tail) : first ≤ head := by
  rcases below.lt_or_eq with less | equal
  · exact List.head_le_of_lt less
  · exact le_of_eq (List.cons.inj equal).1

theorem tail_le_tail {first : α} {others tail : List α}
    (below : first :: others ≤ first :: tail) : others ≤ tail := by
  refine not_lt.mp fun less => not_lt.mpr below ?_
  exact List.Lex.cons less

/-- What lies between a text and one that begins with it begins with it as well. -/
theorem prefix_of_between {start text rest : List α} (above : start ≤ text)
    (below : text ≤ start ++ rest) : start <+: text := by
  induction start generalizing text with
  | nil => exact List.nil_prefix
  | cons first others ih =>
      cases text with
      | nil => exact absurd above (not_le_of_gt (List.nil_lt_cons first others))
      | cons head tail =>
          obtain rfl : first = head := le_antisymm (head_le_head above) (head_le_head below)
          exact List.cons_prefix_cons.mpr
            ⟨rfl, ih (tail_le_tail above) (tail_le_tail below)⟩

/-- Only the lower bound of a text can show whether some key begins with it. -/
theorem prefix_lowerBound_iff (start : List α) (keys : List (List α)) :
    (∃ least, lowerBound start keys = some least ∧ start <+: least) ↔
      ∃ key ∈ keys, start <+: key := by
  have spec := lowerBound_spec start keys
  constructor
  · rintro ⟨least, found, inside⟩
    rw [found] at spec
    exact ⟨least, spec.1, inside⟩
  · rintro ⟨key, member, rest, rfl⟩
    cases found : lowerBound start keys with
    | none =>
        rw [found] at spec
        exact absurd (le_append start rest) (spec _ member)
    | some least =>
        rw [found] at spec
        have below := spec.2.2 _ member (le_append start rest)
        exact ⟨least, rfl, prefix_of_between spec.2.1 below⟩

end Texts

end MediaplayerServer.OrderedKeys
