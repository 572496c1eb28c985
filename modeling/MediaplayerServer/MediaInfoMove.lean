import MediaplayerServer.MediaInfo

set_option autoImplicit false

namespace MediaplayerServer.MediaInfo

open FileSystem

/-- A move that returns true has put the bytes of src at dst and touched no other file; one
that returns false has changed nothing. -/
structure AllOrNothing (files : FileSystem) (src dst : String) : Prop where
  moved : (move files src dst).2 = true →
    (∃ data, files.read src = some data ∧ (move files src dst).1.read dst = some data) ∧
      ∀ other, files.resolve other ≠ files.resolve src → files.resolve other ≠ files.resolve dst →
        (move files src dst).1.read other = files.read other
  failed : (move files src dst).2 = false → (move files src dst).1 = files

/-- Where the order of the two openings and of the final remove does no harm: dst does not
open, or the source opens and is another file. Else there must be nothing to lose, and dst
must not need the name that is removed. -/
def MovesWhole (files : FileSystem) (src dst : String) : Prop :=
  if src = dst then (files.read src).isSome = true
  else files.opensWrite dst = true →
    if files.opensRead src then
      files.resolve src = files.resolve dst →
        files.read src = some [] ∧
          (files.canRemove src = true → files.name src ∉ files.names dst)
    else files.read dst = some []

theorem move_samePath (files : FileSystem) (path : String) :
    move files path path = (files, true) := by
  rw [move, if_pos rfl]

section Moves

variable {files : FileSystem} {src dst : String}

theorem move_unwritable (differ : src ≠ dst) (closed : files.opensWrite dst = false) :
    move files src dst = (files, false) := by
  have kept : files.openWrite dst = files := by
    rw [openWrite, closed, if_neg Bool.false_ne_true]
  simp only [move, differ, kept, closed, ↓reduceIte, ite_self]

/-- The destination is emptied before the source turns out to be unreadable. -/
theorem move_unreadable (differ : src ≠ dst) (writable : files.opensWrite dst = true)
    (closed : files.opensRead src = false) : move files src dst = (files.write dst [], false) := by
  simp only [move, openWrite, differ, writable, closed, ↓reduceIte]

/-- The bytes that are written are those that src has once dst is empty. -/
theorem move_opened (differ : src ≠ dst) (writable : files.opensWrite dst = true)
    (readable : files.opensRead src = true) (data : List UInt8)
    (left : (files.write dst []).read src = some data) :
    move files src dst = (((files.write dst data).remove src).1, true) := by
  simp only [move, openWrite, differ, writable, readable, left, Bool.true_eq_false, ↓reduceIte,
    Option.getD_some, write_write]

theorem leads_of_opens (writable : files.opensWrite dst = true) :
    (files.resolve dst).isSome = true :=
  (Bool.and_eq_true_iff.mp writable).1

theorem read_of_opens (readable : files.opensRead src = true) :
    ∃ data, files.read src = some data :=
  Option.isSome_iff_exists.mp (Bool.and_eq_true_iff.mp readable).1

/-- Whatever was written to dst, another file is not changed. -/
theorem move_read_other (data : List UInt8) (other : String)
    (source : files.resolve other ≠ files.resolve src)
    (target : files.resolve other ≠ files.resolve dst) :
    ((files.write dst data).remove src).1.read other = files.read other := by
  have still : (files.write dst data).resolve other ≠ (files.write dst data).resolve src :=
    source ∘ (files.resolve_write_inj dst other data src).mp
  rw [read_remove_other _ src other still, files.read_write_other dst other data target]

/-- Between two different files the bytes arrive, whatever becomes of the source's name. -/
theorem move_arrives (writable : files.opensWrite dst = true)
    (readable : files.opensRead src = true) (apart : files.resolve src ≠ files.resolve dst)
    (data : List UInt8) (held : files.read src = some data) :
    move files src dst = (((files.write dst data).remove src).1, true) ∧
      ((files.write dst data).remove src).1.read dst = some data := by
  have differ : src ≠ dst := by
    rintro rfl
    exact apart rfl
  have left : (files.write dst []).read src = some data := by
    rw [files.read_write_other dst src [] apart, held]
  have still : (files.write dst data).resolve dst ≠ (files.write dst data).resolve src :=
    Ne.symm (apart ∘ (files.resolve_write_inj dst src data dst).mp)
  refine ⟨move_opened differ writable readable data left, ?_⟩
  rw [read_remove_other _ src dst still, files.read_write_self dst data (leads_of_opens writable)]

/-- So only src and dst change. -/
theorem move_apart (writable : files.opensWrite dst = true)
    (readable : files.opensRead src = true) (apart : files.resolve src ≠ files.resolve dst) :
    AllOrNothing files src dst := by
  obtain ⟨data, held⟩ := read_of_opens readable
  obtain ⟨result, arrived⟩ := move_arrives writable readable apart data held
  constructor
  · intro _
    rw [result]
    exact ⟨⟨data, held, arrived⟩, fun other source target =>
      move_read_other data other source target⟩
  · rw [result]
    nofun

/-- What is left at dst where src was another path to its file. -/
theorem read_after_alias (readable : files.opensRead src = true)
    (writable : files.opensWrite dst = true) (same : files.resolve src = files.resolve dst) :
    ((files.write dst []).remove src).1.read dst =
      if files.canRemove src = true ∧ files.name src ∈ files.names dst then none
      else some [] := by
  obtain ⟨data, held⟩ := read_of_opens readable
  obtain ⟨inode, leads, -⟩ := (files.read_eq_some_iff src data).mp held
  have emptied : files.write dst [] = files.overwrite inode [] := by
    rw [write, ← same, leads]
  have present : (files.entry (files.name src)).isSome = true := by
    unfold resolve follow at leads
    cases named : files.entry (files.name src) with
    | none =>
        rw [named] at leads
        cases leads
    | some kind => rfl
  have removed : ((files.write dst []).remove src).2 = files.canRemove src := by
    rw [emptied, remove]
    show (if ((files.entry (files.name src)).isSome && files.canRemove src) = true then
      _ else _ : FileSystem × Bool).2 = _
    rw [present, Bool.true_and]
    cases files.canRemove src <;> rfl
  rw [read_remove, removed, files.read_write_self dst [] (leads_of_opens writable), emptied]
  rfl

/-- Two paths to one file: it is emptied, and then perhaps out of reach. -/
theorem move_alias_iff (differ : src ≠ dst) (writable : files.opensWrite dst = true)
    (readable : files.opensRead src = true) (same : files.resolve src = files.resolve dst) :
    AllOrNothing files src dst ↔
      files.read src = some [] ∧
        (files.canRemove src = true → files.name src ∉ files.names dst) := by
  have left : (files.write dst []).read src = some [] :=
    (files.read_write dst src [] (leads_of_opens writable)).trans (if_pos same)
  have result := move_opened differ writable readable [] left
  have after := read_after_alias readable writable same
  constructor
  · intro fine
    obtain ⟨⟨data, held, arrived⟩, -⟩ := fine.moved (by rw [result])
    rw [result, after] at arrived
    split at arrived
    · cases arrived
    · rename_i reached
      rw [held, ← arrived]
      exact ⟨rfl, fun removed passes => reached ⟨removed, passes⟩⟩
  · rintro ⟨empty, reached⟩
    constructor
    · intro _
      rw [result]
      dsimp only
      refine ⟨⟨[], empty, ?_⟩, fun other source target => move_read_other [] other source target⟩
      rw [after, if_neg fun gone => reached gone.1 gone.2]
    · rw [result]
      nofun

theorem move_same_iff (files : FileSystem) (path : String) :
    AllOrNothing files path path ↔ (files.read path).isSome = true := by
  have result := move_samePath files path
  constructor
  · intro fine
    obtain ⟨⟨data, held, -⟩, -⟩ := fine.moved (by rw [result])
    rw [held]
    rfl
  · intro present
    obtain ⟨data, held⟩ := Option.isSome_iff_exists.mp present
    constructor
    · rw [result]
      exact fun _ => ⟨⟨data, held, held⟩, fun _ _ _ => rfl⟩
    · rw [result]
      nofun

theorem move_unwritable_fine (differ : src ≠ dst) (closed : files.opensWrite dst = false) :
    AllOrNothing files src dst := by
  have result := move_unwritable differ closed
  constructor
  · rw [result]
    nofun
  · rw [result]
    exact fun _ => rfl

theorem move_unreadable_iff (differ : src ≠ dst) (writable : files.opensWrite dst = true)
    (closed : files.opensRead src = false) :
    AllOrNothing files src dst ↔ files.read dst = some [] := by
  have result := move_unreadable differ writable closed
  have emptied := files.read_write_self dst [] (leads_of_opens writable)
  constructor
  · intro fine
    have kept := fine.failed (by rw [result])
    rw [result] at kept
    exact (congrArg (FileSystem.read · dst) kept).symm.trans emptied
  · intro empty
    constructor
    · rw [result]
      nofun
    · intro _
      rw [result]
      exact files.write_same dst [] empty

end Moves

/-- A cover is still at the destination while the temporary image is missing. -/
def coverOnly : FileSystem where
  name := fun path => if path = "/out.jpg" then 0 else 1
  entry := fun name => if name = 0 then some (.file 0) else none
  contents := fun _ => [7]
  fresh := 1
  allocated := by
    intro name inode held
    split at held
    · cases held
      exact Nat.one_pos
    · cases held
  symloopMax := 40
  canRead := fun _ => true
  canWrite := fun _ => true
  canRemove := fun _ => true

theorem failed_move_empties :
    (move coverOnly "/tmp/tmp.jpg" "/out.jpg").2 = false ∧
      coverOnly.read "/out.jpg" = some [7] ∧
      (move coverOnly "/tmp/tmp.jpg" "/out.jpg").1.read "/out.jpg" = some [] ∧
      ¬AllOrNothing coverOnly "/tmp/tmp.jpg" "/out.jpg" := by
  have emptied : (move coverOnly "/tmp/tmp.jpg" "/out.jpg").1.read "/out.jpg" = some [] := by
    decide
  refine ⟨by decide, by decide, emptied, fun fine => ?_⟩
  rw [fine.failed (by decide)] at emptied
  exact absurd emptied (by decide)

/-- For every state of the files and every two paths, a move is all or nothing exactly
where the order of its openings does no harm. -/
theorem move_all_or_nothing_iff (files : FileSystem) (src dst : String) :
    AllOrNothing files src dst ↔ MovesWhole files src dst := by
  unfold MovesWhole
  by_cases samePath : src = dst
  · rw [if_pos samePath, ← samePath]
    exact move_same_iff files src
  · rw [if_neg samePath]
    cases writable : files.opensWrite dst with
    | false => exact iff_of_true (move_unwritable_fine samePath writable) nofun
    | true =>
        rw [forall_prop_of_true rfl]
        cases readable : files.opensRead src with
        | false => exact move_unreadable_iff samePath writable readable
        | true =>
            rw [if_pos rfl]
            by_cases same : files.resolve src = files.resolve dst
            · rw [forall_prop_of_true same]
              exact move_alias_iff samePath writable readable same
            · exact iff_of_true (move_apart writable readable same)
                fun shared => absurd shared same

/-- One empty file under two names. -/
def linked : FileSystem where
  name := fun path => if path = "/a.jpg" then 0 else 1
  entry := fun name => if name ≤ 1 then some (.file 0) else none
  contents := fun _ => []
  fresh := 1
  allocated := by
    intro name inode held
    split at held
    · cases held
      exact Nat.one_pos
    · cases held
  symloopMax := 40
  canRead := fun _ => true
  canWrite := fun _ => true
  canRemove := fun _ => true

example : (move linked "/a.jpg" "/b.jpg").2 = true ∧
    (move linked "/a.jpg" "/b.jpg").1.read "/a.jpg" = none ∧
    (move linked "/a.jpg" "/b.jpg").1.read "/b.jpg" = some [] := by decide

end MediaplayerServer.MediaInfo
