import Mathlib.Data.List.Basic
import Mathlib.Data.List.TakeWhile

set_option autoImplicit false

namespace MediaplayerServer.CMemory

/-- What a memory area holds at each offset. -/
abbrev Memory : Type := Nat → UInt8

/-- The bytes of a C string, without the NUL that ends it. -/
structure CString where
  bytes : List UInt8
  nulFree : 0 ∉ bytes
  deriving DecidableEq

theorem not_mem_takeWhile (bytes : List UInt8) : 0 ∉ bytes.takeWhile (· ≠ 0) := by
  intro member
  simpa using List.mem_takeWhile_imp member

/-- The C string that starts a sequence of bytes. -/
def CString.ofBytes (bytes : List UInt8) : CString :=
  ⟨bytes.takeWhile (· ≠ 0), not_mem_takeWhile bytes⟩

def memcpy (memory : Memory) (target : Nat) (bytes : List UInt8) : Memory := fun address =>
  if target ≤ address then (bytes[address - target]?).getD (memory address) else memory address

/-- The C string at `start`, read up to the end of the area at most. -/
def readString (memory : Memory) (start stop : Nat) : List UInt8 :=
  ((List.range (stop - start)).map fun index => memory (start + index)).takeWhile (· ≠ 0)

theorem memcpy_inside (memory : Memory) (target : Nat) (bytes : List UInt8) (index : Nat) :
    memcpy memory target bytes (target + index) =
      (bytes[index]?).getD (memory (target + index)) := by
  rw [memcpy, if_pos (Nat.le_add_right target index), Nat.add_sub_cancel_left]

theorem memcpy_outside (memory : Memory) (target : Nat) (bytes : List UInt8) (address : Nat)
    (outside : address < target ∨ target + bytes.length ≤ address) :
    memcpy memory target bytes address = memory address := by
  unfold memcpy
  split
  · have past : bytes.length ≤ address - target := by omega
    rw [List.getElem?_eq_none past, Option.getD_none]
  · rfl

/-- A text copied over the start of another. -/
def overlay (new old : List UInt8) : List UInt8 :=
  new ++ old.drop new.length

@[simp] theorem overlay_nil (new : List UInt8) : overlay new [] = new := by
  rw [overlay, List.drop_nil, List.append_nil]

theorem overlay_length (new old : List UInt8) :
    (overlay new old).length = max new.length old.length := by
  rw [overlay, List.length_append, List.length_drop]
  omega

theorem overlay_getElem? (new old : List UInt8) (index : Nat) :
    (overlay new old)[index]? = (new[index]?).or (old[index]?) := by
  by_cases inside : index < new.length
  · rw [overlay, List.getElem?_append_left inside, List.getElem?_eq_getElem inside, Option.some_or]
  · rw [Nat.not_lt] at inside
    rw [overlay, List.getElem?_append_right inside, List.getElem?_drop,
      List.getElem?_eq_none inside, Option.none_or]
    congr 1
    omega

theorem overlay_assoc (first second third : List UInt8) :
    overlay (overlay first second) third = overlay first (overlay second third) := by
  apply List.ext_getElem?
  intro index
  simp only [overlay_getElem?, Option.or_assoc]

/-- A copy hides the text under it exactly if that text is no longer. -/
theorem overlay_eq_left_iff (new old : List UInt8) :
    overlay new old = new ↔ old.length ≤ new.length := by
  rw [overlay, List.append_right_eq_self, List.drop_eq_nil_iff]

theorem not_mem_overlay (new old : List UInt8) (left : 0 ∉ new) (right : 0 ∉ old) :
    0 ∉ overlay new old := by
  rw [overlay, List.mem_append]
  rintro (member | member)
  · exact left member
  · exact right (List.mem_of_mem_drop member)

/-- Texts copied one after the other over an old one. -/
def overlays (texts : List (List UInt8)) (old : List UInt8) : List UInt8 :=
  texts.foldl (fun under text => overlay text under) old

theorem overlays_cons (text : List UInt8) (rest : List (List UInt8)) (old : List UInt8) :
    overlays (text :: rest) old = overlays rest (overlay text old) := rfl

theorem overlays_append (first second : List (List UInt8)) (old : List UInt8) :
    overlays (first ++ second) old = overlays second (overlays first old) :=
  List.foldl_append

/-- What a sequence of copies leaves does not depend on what they were copied over,
except behind their longest text. -/
theorem overlays_eq (texts : List (List UInt8)) (old : List UInt8) :
    overlays texts old = overlay (overlays texts []) old := by
  induction texts generalizing old with
  | nil => rfl
  | cons text rest ih =>
      rw [overlays_cons, overlays_cons, ih, ih (overlay text []), overlay_nil, overlay_assoc]

/-- The length of the longest text. -/
def longest (texts : List (List UInt8)) : Nat :=
  texts.foldr (fun text longest => max text.length longest) 0

theorem longest_le_iff (texts : List (List UInt8)) (bound : Nat) :
    longest texts ≤ bound ↔ ∀ text ∈ texts, text.length ≤ bound := by
  induction texts with
  | nil => exact iff_of_true (Nat.zero_le bound) nofun
  | cons text rest ih =>
      rw [List.forall_mem_cons, ← ih]
      exact Nat.max_le

theorem overlays_length (texts : List (List UInt8)) :
    (overlays texts []).length = longest texts := by
  induction texts with
  | nil => rfl
  | cons text rest ih =>
      rw [overlays_cons, overlays_eq, overlay_length, ih, overlay_nil, Nat.max_comm]
      rfl

/-- The last of some texts stands alone exactly if none of the others is longer. -/
theorem overlays_eq_last_iff (texts : List (List UInt8)) :
    overlays texts [] = texts.getLastD [] ↔
      ∀ text ∈ texts, text.length ≤ (texts.getLastD []).length := by
  rcases List.eq_nil_or_concat' texts with none | ⟨earlier, last, split⟩
  · rw [none]
    exact iff_of_true rfl nofun
  · rw [split, List.getLastD_concat, overlays_append, overlays_cons, overlays,
      List.foldl_nil, overlay_eq_left_iff, overlays_length, longest_le_iff]
    constructor
    · intro shorter text member
      rcases List.mem_append.mp member with before | same
      · exact shorter text before
      · rw [List.mem_singleton.mp same]
    · intro shorter text member
      exact shorter text (List.mem_append_left _ member)

/-- The field of `size` bytes at `start` holds the text, and zeros behind it. -/
structure Holds (memory : Memory) (start size : Nat) (text : List UInt8) : Prop where
  room : text.length < size
  nulFree : 0 ∉ text
  bytes : ∀ index, index < size → memory (start + index) = (text[index]?).getD 0

/-- The last byte of the field is a NUL. -/
theorem Holds.last {memory : Memory} {start size : Nat} {text : List UInt8}
    (holds : Holds memory start size text) : memory (start + (size - 1)) = 0 := by
  have room := holds.room
  have behind : text.length ≤ size - 1 := by omega
  rw [holds.bytes (size - 1) (by omega), List.getElem?_eq_none behind, Option.getD_none]

theorem holds_zeros (start size : Nat) (room : 0 < size) : Holds (fun _ => 0) start size [] :=
  ⟨room, List.not_mem_nil, fun _ _ => rfl⟩

theorem Holds.copied {memory : Memory} {start size : Nat} {old : List UInt8}
    (holds : Holds memory start size old) (new : List UInt8) (fits : new.length < size)
    (nulFree : 0 ∉ new) : Holds (memcpy memory start new) start size (overlay new old) := by
  refine ⟨?_, not_mem_overlay new old nulFree holds.nulFree, fun index inside => ?_⟩
  · have room := holds.room
    rw [overlay_length]
    omega
  · rw [memcpy_inside, holds.bytes index inside, overlay_getElem?]
    cases new[index]? <;> rfl

/-- A copy into another field leaves this one alone. -/
theorem Holds.frame {memory : Memory} {start size : Nat} {text : List UInt8}
    (holds : Holds memory start size text) (target : Nat) (new : List UInt8)
    (apart : target + new.length ≤ start ∨ start + size ≤ target) :
    Holds (memcpy memory target new) start size text := by
  refine ⟨holds.room, holds.nulFree, fun index inside => ?_⟩
  rw [memcpy_outside memory target new (start + index) (by omega)]
  exact holds.bytes index inside

theorem takeWhile_of_prefix (text bytes : List UInt8) (nulFree : 0 ∉ text)
    (same : ∀ index, index < text.length → bytes[index]? = text[index]?)
    (ended : bytes[text.length]? = some 0) : bytes.takeWhile (· ≠ 0) = text := by
  induction text generalizing bytes with
  | nil =>
      cases bytes with
      | nil => rfl
      | cons byte rest =>
          have nul : byte = 0 := by simpa using ended
          subst nul
          rfl
  | cons first text ih =>
      rw [List.mem_cons, not_or] at nulFree
      cases bytes with
      | nil => cases ended
      | cons byte rest =>
          have head : byte = first := by simpa using same 0 (Nat.succ_pos _)
          subst head
          have kept : (decide (byte ≠ 0)) = true := by simpa using Ne.symm nulFree.1
          rw [List.takeWhile_cons, if_pos kept]
          congr 1
          refine ih rest nulFree.2 (fun index inside => ?_) ended
          exact same (index + 1) (Nat.succ_lt_succ inside)

/-- Reading the field as a C string gives the text back. -/
theorem Holds.readString {memory : Memory} {start size : Nat} {text : List UInt8}
    (holds : Holds memory start size text) (stop : Nat) (within : start + size ≤ stop) :
    readString memory start stop = text := by
  have room := holds.room
  have cell (index : Nat) (inside : index < size) :
      ((List.range (stop - start)).map fun index => memory (start + index))[index]? =
        some ((text[index]?).getD 0) := by
    have below : index < stop - start := by omega
    rw [List.getElem?_map, List.getElem?_range below, Option.map_some, holds.bytes index inside]
  refine takeWhile_of_prefix text _ holds.nulFree (fun index inside => ?_) ?_
  · rw [cell index (by omega), List.getElem?_eq_getElem inside, Option.getD_some]
  · rw [cell text.length room, List.getElem?_eq_none (Nat.le_refl _), Option.getD_none]

end MediaplayerServer.CMemory
