import Mathlib.Data.List.Basic

set_option autoImplicit false

namespace MediaplayerServer.BoundedLines

variable {α : Type} (ends : α → Bool)

/-- What one read with room for `room` items takes from the stream, and what it leaves. -/
def read : Nat → List α → List α × List α
  | 0, stream => ([], stream)
  | _ + 1, [] => ([], [])
  | room + 1, item :: rest =>
      if ends item then ([item], rest)
      else (item :: (read room rest).1, (read room rest).2)

/-- Put an item in front of the first piece. -/
def glue (item : α) : List (List α) → List (List α)
  | [] => [[item]]
  | piece :: others => (item :: piece) :: others

/-- What the reads yield one after the other, with room for `left` items in the first
buffer and for `room` items in the later ones. -/
def pieces (room : Nat) : Nat → List α → List (List α)
  | _, [] => []
  | left, item :: rest =>
      if ends item || left ≤ 1 then [item] :: pieces room room rest
      else glue item (pieces room (left - 1) rest)

/-- The lines of a stream, each with its terminator. -/
def lines : List α → List (List α)
  | [] => []
  | item :: rest => if ends item then [item] :: lines rest else glue item (lines rest)

/-- A line cut into pieces of `room` items. -/
def cut (room : Nat) (line : List α) : List (List α) :=
  pieces (fun _ => false) room room line

section Reads

theorem read_cons (room : Nat) (item : α) (rest : List α) :
    read ends (room + 1) (item :: rest) =
      if ends item then ([item], rest)
      else (item :: (read ends room rest).1, (read ends room rest).2) := rfl

theorem read_append (room : Nat) (stream : List α) :
    (read ends room stream).1 ++ (read ends room stream).2 = stream := by
  induction room generalizing stream with
  | zero => rfl
  | succ room ih =>
      cases stream with
      | nil => rfl
      | cons item rest =>
          rw [read_cons]
          split
          · rfl
          · exact congrArg (item :: ·) (ih rest)

/-- A read with any room at all makes progress. -/
theorem read_shrinks (room : Nat) (stream : List α) (positive : 0 < room)
    (more : stream ≠ []) : (read ends room stream).2.length < stream.length := by
  obtain ⟨item, rest, rfl⟩ := List.exists_cons_of_ne_nil more
  obtain ⟨room, rfl⟩ := Nat.exists_eq_add_of_lt positive
  rw [Nat.zero_add, read_cons]
  split
  · exact Nat.lt_succ_self _
  · have whole := congrArg List.length (read_append ends room rest)
    have behind : (read ends room rest).2.length ≤ rest.length := by
      rw [List.length_append] at whole
      omega
    exact Nat.lt_succ_of_le behind

theorem pieces_cons (room left : Nat) (item : α) (rest : List α) :
    pieces ends room left (item :: rest) =
      if ends item || left ≤ 1 then [item] :: pieces ends room room rest
      else glue item (pieces ends room (left - 1) rest) := rfl

/-- The pieces are what reading again and again yields. -/
theorem pieces_eq (room left : Nat) (stream : List α) (positive : 0 < left)
    (more : stream ≠ []) :
    pieces ends room left stream =
      (read ends left stream).1 :: pieces ends room room (read ends left stream).2 := by
  induction stream generalizing left with
  | nil => exact absurd rfl more
  | cons item rest ih =>
      obtain ⟨left, rfl⟩ := Nat.exists_eq_add_of_lt positive
      rw [Nat.zero_add, pieces, read_cons]
      by_cases ended : ends item = true
      · rw [if_pos ended, ended, Bool.true_or, if_pos rfl]
      · rw [Bool.not_eq_true] at ended
        rw [ended, Bool.false_or, if_neg Bool.false_ne_true, Nat.add_sub_cancel]
        cases left with
        | zero => rfl
        | succ left =>
            have room_left : ¬ (decide (left + 1 + 1 ≤ 1) = true) := by simp
            rw [if_neg room_left]
            cases rest with
            | nil => rfl
            | cons next rest => rw [ih (left + 1) (Nat.succ_pos left) (by simp), glue]

end Reads

section Lines

theorem glue_append (item : α) (first second : List (List α)) (some : first ≠ []) :
    glue item (first ++ second) = glue item first ++ second := by
  obtain ⟨piece, others, rfl⟩ := List.exists_cons_of_ne_nil some
  rfl

theorem pieces_ne_nil (room left : Nat) (stream : List α) (more : stream ≠ []) :
    pieces ends room left stream ≠ [] := by
  obtain ⟨item, rest, rfl⟩ := List.exists_cons_of_ne_nil more
  rw [pieces]
  split
  · exact List.cons_ne_nil _ _
  · cases pieces ends room (left - 1) rest <;> exact List.cons_ne_nil _ _

theorem lines_ne_nil (stream : List α) : ∀ line ∈ lines ends stream, line ≠ [] := by
  induction stream with
  | nil => nofun
  | cons item rest ih =>
      rw [lines]
      split
      · exact List.forall_mem_cons.mpr ⟨List.cons_ne_nil _ _, ih⟩
      · cases same : lines ends rest with
        | nil => exact List.forall_mem_cons.mpr ⟨List.cons_ne_nil _ _, nofun⟩
        | cons line others =>
            rw [same] at ih
            exact List.forall_mem_cons.mpr
              ⟨List.cons_ne_nil _ _, (List.forall_mem_cons.mp ih).2⟩

/-- A bounded buffer reads the first line in pieces, and then the other ones. -/
theorem pieces_eq_lines (room left : Nat) (stream : List α) :
    pieces ends room left stream =
      match lines ends stream with
      | [] => []
      | line :: others =>
          pieces (fun _ => false) room left line ++ others.flatMap (cut room) := by
  induction stream generalizing left with
  | nil => rfl
  | cons item rest ih =>
      have onward : pieces ends room room rest = (lines ends rest).flatMap (cut room) := by
        rw [ih room]
        cases lines ends rest <;> rfl
      rw [pieces, lines]
      by_cases ended : ends item = true
      · rw [ended, Bool.true_or, if_pos rfl, if_pos rfl, onward]
        simp only [pieces, Bool.false_or, List.flatMap]
        split <;> rfl
      · rw [Bool.not_eq_true] at ended
        rw [ended, Bool.false_or, if_neg Bool.false_ne_true]
        by_cases full : left ≤ 1
        · rw [if_pos (decide_eq_true full), onward]
          cases lines ends rest with
          | nil => simp [glue, pieces]
          | cons line others => simp [glue, pieces, full, cut]
        · rw [if_neg (by rwa [decide_eq_true_eq]), ih (left - 1)]
          have nonempty := lines_ne_nil ends rest
          cases same : lines ends rest with
          | nil => simp [glue, pieces]
          | cons line others =>
              rw [same, List.forall_mem_cons] at nonempty
              rw [glue, glue_append _ _ _ (pieces_ne_nil _ _ _ _ nonempty.1)]
              dsimp only
              rw [pieces_cons, Bool.false_or, if_neg (by rwa [decide_eq_true_eq])]

/-- Reading with a bounded buffer is reading lines, each cut where the buffer is full. -/
theorem pieces_eq_flatMap (room : Nat) (stream : List α) :
    pieces ends room room stream = (lines ends stream).flatMap (cut room) := by
  rw [pieces_eq_lines]
  cases lines ends stream <;> rfl

theorem cut_of_fits (room : Nat) (line : List α) (some : line ≠ []) (fits : line.length ≤ room) :
    cut room line = [line] := by
  unfold cut
  have general : ∀ left, line.length ≤ left → pieces (fun _ => false) room left line = [line] := by
    induction line with
    | nil => exact absurd rfl some
    | cons item rest ih =>
        intro left enough
        rw [List.length_cons] at enough
        cases rest with
        | nil =>
            rw [pieces]
            split <;> rfl
        | cons next rest =>
            have more : ¬ left ≤ 1 := by rw [List.length_cons] at enough; omega
            have within : (next :: rest).length ≤ room := by
              rw [List.length_cons] at fits
              omega
            rw [pieces, Bool.false_or, if_neg (by rwa [decide_eq_true_eq]),
              ih (List.cons_ne_nil _ _) within (left - 1) (by omega), glue]
  exact general room fits

/-- Where every line fits, the buffer makes no difference. -/
theorem pieces_eq_of_fits (room : Nat) (stream : List α)
    (fits : ∀ line ∈ lines ends stream, line.length ≤ room) :
    pieces ends room room stream = lines ends stream := by
  have nonempty := lines_ne_nil ends stream
  have single : ∀ line ∈ lines ends stream, cut room line = [line] := fun line member =>
    cut_of_fits room line (nonempty line member) (fits line member)
  rw [pieces_eq_flatMap, List.flatMap_congr single, List.flatMap_singleton']

theorem lines_append (body rest : List α) (last : α) (free : ∀ item ∈ body, ends item = false)
    (ended : ends last = true) :
    lines ends (body ++ last :: rest) = (body ++ [last]) :: lines ends rest := by
  induction body with
  | nil => rw [List.nil_append, lines, if_pos ended, List.nil_append]
  | cons item body ih =>
      rw [List.forall_mem_cons] at free
      rw [List.cons_append, lines, free.1, if_neg Bool.false_ne_true, ih free.2, glue,
        List.cons_append]

/-- A terminator comes at the end of a line only. -/
theorem line_split (stream : List α) :
    ∀ line ∈ lines ends stream, ∃ body, (∀ item ∈ body, ends item = false) ∧
      (line = body ∨ ∃ last, ends last = true ∧ line = body ++ [last]) := by
  induction stream with
  | nil => nofun
  | cons item rest ih =>
      rw [lines]
      by_cases ended : ends item = true
      · rw [if_pos ended]
        exact List.forall_mem_cons.mpr ⟨⟨[], nofun, Or.inr ⟨item, ended, rfl⟩⟩, ih⟩
      · rw [if_neg ended]
        rw [Bool.not_eq_true] at ended
        cases same : lines ends rest with
        | nil => exact List.forall_mem_cons.mpr ⟨⟨[item], by simpa using ended, Or.inl rfl⟩, nofun⟩
        | cons line others =>
            rw [same, List.forall_mem_cons] at ih
            obtain ⟨⟨body, free, split⟩, later⟩ := ih
            refine List.forall_mem_cons.mpr
              ⟨⟨item :: body, List.forall_mem_cons.mpr ⟨ended, free⟩, ?_⟩, later⟩
            rcases split with rfl | ⟨last, ends, rfl⟩
            · exact Or.inl rfl
            · exact Or.inr ⟨last, ends, rfl⟩

end Lines

end MediaplayerServer.BoundedLines
