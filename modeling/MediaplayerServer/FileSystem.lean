import Mathlib.Logic.Function.Basic

set_option autoImplicit false

/- Files apart from their names: a file may have several names (hard links), a name may lead
on to another one (a symbolic link), and remove takes a name away, not a file. -/
namespace MediaplayerServer

/-- What a directory holds under a name. -/
inductive DirEntry
  | file (inode : Nat)
  | symlink (target : Nat)
  deriving DecidableEq, Repr

/-- Where opening a path arrives: at a file, or at a name that nothing has yet. -/
inductive Location
  | file (inode : Nat)
  | absent (name : Nat)
  deriving DecidableEq, Repr

/-- Where a name leads over at most so many symbolic links. -/
def follow (entry : Nat → Option DirEntry) (links name : Nat) : Option Location :=
  match entry name with
  | none => some (.absent name)
  | some (.file inode) => some (.file inode)
  | some (.symlink target) =>
      match links with
      | 0 => none
      | links + 1 => follow entry links target

/-- The names on the way there, the first and the last one included. -/
def way (entry : Nat → Option DirEntry) (links name : Nat) : List Nat :=
  match entry name with
  | none => [name]
  | some (.file _) => [name]
  | some (.symlink target) =>
      match links with
      | 0 => [name]
      | links + 1 => name :: way entry links target

/-- A name that has got a file leads there. -/
def Location.created (name inode : Nat) (location : Location) : Location :=
  if location = .absent name then .file inode else location

theorem Location.created_inj {name inode : Nat} {first second : Location}
    (left : first ≠ .file inode) (right : second ≠ .file inode)
    (same : first.created name inode = second.created name inode) : first = second := by
  unfold Location.created at same
  split at same
  · rename_i own
    split at same
    · rename_i also
      rw [own, also]
    · exact absurd same.symm right
  · split at same
    · exact absurd same left
    · exact same

section Following

variable {entry : Nat → Option DirEntry} {links start name : Nat}

theorem follow_absent (arrives : follow entry links start = some (.absent name)) :
    entry name = none ∧ name ∈ way entry links start := by
  induction links, start using follow.induct entry with
  | case1 links start held =>
      rw [follow, held, Option.some.injEq, Location.absent.injEq] at arrives
      rw [way, held, arrives]
      exact ⟨arrives ▸ held, List.mem_singleton_self name⟩
  | case2 links start inode held =>
      rw [follow, held] at arrives
      cases arrives
  | case3 start target held =>
      rw [follow, held] at arrives
      cases arrives
  | case4 start target held links ih =>
      rw [follow, held] at arrives
      rw [way, held]
      exact (ih arrives).imp_right (List.mem_cons_of_mem start)

theorem follow_file {inode : Nat} (arrives : follow entry links start = some (.file inode)) :
    ∃ name, entry name = some (.file inode) := by
  induction links, start using follow.induct entry with
  | case1 links start held =>
      rw [follow, held] at arrives
      cases arrives
  | case2 links start own held =>
      rw [follow, held, Option.some.injEq, Location.file.injEq] at arrives
      exact ⟨start, by rw [held, arrives]⟩
  | case3 start target held =>
      rw [follow, held] at arrives
      cases arrives
  | case4 start target held links ih =>
      rw [follow, held] at arrives
      exact ih arrives

theorem follow_mono {location : Location} (arrives : follow entry links start = some location)
    {more : Nat} (enough : links ≤ more) : follow entry more start = some location := by
  induction links, start using follow.induct entry generalizing more with
  | case1 links start held =>
      rw [follow, held] at arrives ⊢
      exact arrives
  | case2 links start inode held =>
      rw [follow, held] at arrives ⊢
      exact arrives
  | case3 start target held =>
      rw [follow, held] at arrives
      cases arrives
  | case4 start target held links ih =>
      rw [follow, held] at arrives
      obtain ⟨more, rfl⟩ := Nat.exists_eq_add_of_le' (Nat.succ_le_of_lt enough)
      rw [follow, held]
      exact ih arrives (Nat.le_of_succ_le_succ enough)

/-- Every name on the way leads to where the way ends. -/
theorem follow_of_way {location : Location} (arrives : follow entry links start = some location)
    (passes : name ∈ way entry links start) : follow entry links name = some location := by
  induction links, start using follow.induct entry with
  | case1 links start held =>
      rw [way, held, List.mem_singleton] at passes
      rw [passes, arrives]
  | case2 links start inode held =>
      rw [way, held, List.mem_singleton] at passes
      rw [passes, arrives]
  | case3 start target held =>
      rw [way, held, List.mem_singleton] at passes
      rw [passes, arrives]
  | case4 start target held links ih =>
      rw [way, held] at passes
      rcases List.mem_cons.mp passes with rfl | later
      · exact arrives
      · rw [follow, held] at arrives
        exact follow_mono (ih arrives later) (Nat.le_succ links)

/-- A name that had nothing has got a file. -/
theorem follow_created {inode : Nat} (free : entry name = none) :
    follow (Function.update entry name (some (.file inode))) links start =
      (follow entry links start).map (Location.created name inode) := by
  have differ : ∀ {start kind}, entry start = some kind → start ≠ name := by
    rintro start kind held rfl
    cases free.symm.trans held
  induction links, start using follow.induct entry with
  | case1 links start held =>
      rw [follow, follow, held]
      by_cases own : start = name
      · rw [own, Function.update_self]
        exact congrArg some (if_pos rfl).symm
      · rw [Function.update_of_ne own, held]
        exact congrArg some (if_neg (own ∘ Location.absent.inj)).symm
  | case2 links start other held =>
      rw [follow, follow, Function.update_of_ne (differ held), held]
      rfl
  | case3 start target held =>
      rw [follow, follow, Function.update_of_ne (differ held), held]
      rfl
  | case4 start target held links ih =>
      rw [follow, follow, Function.update_of_ne (differ held), held]
      exact ih

theorem follow_removed_off (avoids : name ∉ way entry links start) :
    follow (Function.update entry name none) links start = follow entry links start := by
  induction links, start using follow.induct entry with
  | case1 links start held =>
      rw [way, held, List.mem_singleton] at avoids
      rw [follow, follow, Function.update_of_ne (Ne.symm avoids), held]
  | case2 links start inode held =>
      rw [way, held, List.mem_singleton] at avoids
      rw [follow, follow, Function.update_of_ne (Ne.symm avoids), held]
  | case3 start target held =>
      rw [way, held, List.mem_singleton] at avoids
      rw [follow, follow, Function.update_of_ne (Ne.symm avoids), held]
  | case4 start target held links ih =>
      rw [way, held, List.mem_cons, not_or] at avoids
      rw [follow, follow, Function.update_of_ne (Ne.symm avoids.1), held]
      exact ih avoids.2

theorem follow_removed_on (passes : name ∈ way entry links start) :
    follow (Function.update entry name none) links start = some (.absent name) := by
  have here : ∀ links, follow (Function.update entry name none) links name =
      some (.absent name) := by
    intro links
    rw [follow, Function.update_self]
  induction links, start using follow.induct entry with
  | case1 links start held =>
      rw [way, held, List.mem_singleton] at passes
      rw [← passes, here]
  | case2 links start inode held =>
      rw [way, held, List.mem_singleton] at passes
      rw [← passes, here]
  | case3 start target held =>
      rw [way, held, List.mem_singleton] at passes
      rw [← passes, here]
  | case4 start target held links ih =>
      by_cases own : start = name
      · rw [own, here]
      · rw [way, held] at passes
        rw [follow, Function.update_of_ne own, held]
        exact ih ((List.mem_cons.mp passes).resolve_left (Ne.symm own))

end Following

/-- `fresh` is the next inode to be given out, and `symloopMax` how many symbolic links one
path may go over. The other three answer whether a path can be opened or removed, as far as
that is not a matter of what is there. -/
structure FileSystem where
  name : String → Nat
  entry : Nat → Option DirEntry
  contents : Nat → List UInt8
  fresh : Nat
  allocated : ∀ name inode, entry name = some (.file inode) → inode < fresh
  symloopMax : Nat
  canRead : String → Bool
  canWrite : String → Bool
  canRemove : String → Bool

namespace FileSystem

theorem allocated_created (files : FileSystem) (name other inode : Nat)
    (held : Function.update files.entry name (some (.file files.fresh)) other =
      some (.file inode)) : inode < files.fresh + 1 := by
  by_cases own : other = name
  · rw [own, Function.update_self, Option.some.injEq, DirEntry.file.injEq] at held
    rw [held]
    exact Nat.lt_succ_self inode
  · rw [Function.update_of_ne own] at held
    exact Nat.lt_succ_of_lt (files.allocated other inode held)

theorem allocated_removed (files : FileSystem) (name other inode : Nat)
    (held : Function.update files.entry name none other = some (.file inode)) :
    inode < files.fresh := by
  by_cases own : other = name
  · rw [own, Function.update_self] at held
    cases held
  · rw [Function.update_of_ne own] at held
    exact files.allocated other inode held

def resolve (files : FileSystem) (path : String) : Option Location :=
  follow files.entry files.symloopMax (files.name path)

/-- The names that opening the path goes through. -/
def names (files : FileSystem) (path : String) : List Nat :=
  way files.entry files.symloopMax (files.name path)

def read (files : FileSystem) (path : String) : Option (List UInt8) :=
  match files.resolve path with
  | some (.file inode) => some (files.contents inode)
  | _ => none

def overwrite (files : FileSystem) (inode : Nat) (data : List UInt8) : FileSystem :=
  { files with contents := Function.update files.contents inode data }

/-- A new file under a name. -/
def create (files : FileSystem) (name : Nat) (data : List UInt8) : FileSystem :=
  { files with
    entry := Function.update files.entry name (some (.file files.fresh))
    contents := Function.update files.contents files.fresh data
    fresh := files.fresh + 1
    allocated := files.allocated_created name }

/-- A file that is there gets new contents; else one is made. -/
def write (files : FileSystem) (path : String) (data : List UInt8) : FileSystem :=
  match files.resolve path with
  | none => files
  | some (.file inode) => files.overwrite inode data
  | some (.absent name) => files.create name data

/-- std::ifstream opens an existing file. -/
def opensRead (files : FileSystem) (path : String) : Bool :=
  (files.read path).isSome && files.canRead path

def opensWrite (files : FileSystem) (path : String) : Bool :=
  (files.resolve path).isSome && files.canWrite path

/-- Opening for writing empties the file, or creates it. -/
def openWrite (files : FileSystem) (path : String) : FileSystem :=
  if files.opensWrite path then files.write path [] else files

/-- remove unlinks the name itself, also where that is a symbolic link. A failure leaves
everything as it was. -/
def remove (files : FileSystem) (path : String) : FileSystem × Bool :=
  if (files.entry (files.name path)).isSome && files.canRemove path then
    ({ files with
        entry := Function.update files.entry (files.name path) none
        allocated := files.allocated_removed (files.name path) }, true)
  else (files, false)

section Operations

variable (files : FileSystem) (path other : String)

theorem read_eq_some_iff (data : List UInt8) :
    files.read path = some data ↔
      ∃ inode, files.resolve path = some (.file inode) ∧ files.contents inode = data := by
  unfold read
  split
  · rename_i inode held
    simp only [Option.some.injEq, held, Location.file.injEq, exists_eq_left']
  · rename_i none
    refine iff_of_false nofun ?_
    rintro ⟨inode, held, -⟩
    exact none inode held

theorem resolve_lt (inode : Nat) (held : files.resolve path = some (.file inode)) :
    inode < files.fresh := by
  obtain ⟨name, own⟩ := follow_file held
  exact files.allocated name inode own

theorem read_overwrite (inode : Nat) (data : List UInt8) :
    (files.overwrite inode data).read other =
      if files.resolve other = some (.file inode) then some data else files.read other := by
  have same : (files.overwrite inode data).resolve other = files.resolve other := rfl
  unfold read
  rw [same]
  cases files.resolve other with
  | none => rfl
  | some location =>
      cases location with
      | absent name => rfl
      | file led =>
          by_cases own : led = inode
          · rw [if_pos (by rw [own]), own]
            exact congrArg some (Function.update_self ..)
          · rw [if_neg (own ∘ Location.file.inj ∘ Option.some.inj)]
            exact congrArg some (Function.update_of_ne own ..)

theorem resolve_create (name : Nat) (data : List UInt8) (free : files.entry name = none) :
    (files.create name data).resolve other =
      (files.resolve other).map (Location.created name files.fresh) :=
  follow_created free

theorem read_create (name : Nat) (data : List UInt8) (free : files.entry name = none) :
    (files.create name data).read other =
      if files.resolve other = some (.absent name) then some data else files.read other := by
  unfold read
  rw [files.resolve_create other name data free]
  cases held : files.resolve other with
  | none => rfl
  | some location =>
      by_cases own : location = .absent name
      · rw [if_pos (congrArg some own), Option.map_some, Location.created, if_pos own]
        exact congrArg some (Function.update_self ..)
      · rw [if_neg (own ∘ Option.some.inj), Option.map_some, Location.created, if_neg own]
        cases location with
        | absent name => rfl
        | file inode =>
            have older := files.resolve_lt other inode held
            exact congrArg some (Function.update_of_ne (Nat.ne_of_lt older) ..)

theorem write_cases (data : List UInt8) :
    files.resolve path = none ∧ files.write path data = files ∨
      (∃ inode, files.resolve path = some (.file inode) ∧
        files.write path data = files.overwrite inode data) ∨
      ∃ name, files.resolve path = some (.absent name) ∧ files.entry name = none ∧
        files.write path data = files.create name data := by
  unfold write
  cases held : files.resolve path with
  | none => exact Or.inl ⟨rfl, rfl⟩
  | some location =>
      cases location with
      | file inode => exact Or.inr (Or.inl ⟨inode, rfl, rfl⟩)
      | absent name => exact Or.inr (Or.inr ⟨name, rfl, (follow_absent held).1, rfl⟩)

/-- What is written to a path is read from all paths that lead to the same place. -/
theorem read_write (data : List UInt8) (leads : (files.resolve path).isSome = true) :
    (files.write path data).read other =
      if files.resolve other = files.resolve path then some data else files.read other := by
  rcases files.write_cases path data with ⟨nowhere, -⟩ | ⟨inode, held, same⟩ |
    ⟨name, held, free, same⟩
  · rw [nowhere] at leads
    cases leads
  · rw [same, held]
    exact files.read_overwrite other inode data
  · rw [same, held]
    exact files.read_create other name data free

theorem read_write_other (data : List UInt8) (apart : files.resolve other ≠ files.resolve path) :
    (files.write path data).read other = files.read other := by
  cases held : files.resolve path with
  | none => rw [write, held]
  | some location =>
      rw [files.read_write path other data (by rw [held]; rfl), if_neg apart]

@[simp] theorem read_write_self (data : List UInt8)
    (leads : (files.resolve path).isSome = true) :
    (files.write path data).read path = some data := by
  rw [files.read_write path path data leads, if_pos rfl]

/-- Paths that lead apart still do after a write: what is made is a new file. -/
theorem resolve_write_inj (data : List UInt8) (third : String) :
    (files.write path data).resolve other = (files.write path data).resolve third ↔
      files.resolve other = files.resolve third := by
  rcases files.write_cases path data with ⟨-, same⟩ | ⟨inode, -, same⟩ | ⟨name, -, free, same⟩
  · rw [same]
  · rw [same]
    exact Iff.rfl
  · rw [same, files.resolve_create other name data free, files.resolve_create third name data free]
    have older : ∀ path, ∀ location ∈ files.resolve path, location ≠ .file files.fresh := by
      rintro path location held rfl
      exact Nat.lt_irrefl _ (files.resolve_lt path files.fresh held)
    refine ⟨fun equal => ?_, congrArg _⟩
    cases left : files.resolve other with
    | none =>
        rw [left, Option.map_none, eq_comm, Option.map_eq_none_iff] at equal
        exact equal.symm
    | some first =>
        cases right : files.resolve third with
        | none =>
            rw [left, right] at equal
            cases equal
        | some second =>
            rw [left, right, Option.map_some, Option.map_some, Option.some.injEq] at equal
            exact congrArg some
              (Location.created_inj (older other first left) (older third second right) equal)

theorem opensWrite_write (data : List UInt8) :
    (files.write path data).opensWrite other = files.opensWrite other := by
  unfold opensWrite
  rcases files.write_cases path data with ⟨-, same⟩ | ⟨inode, -, same⟩ | ⟨name, -, free, same⟩
  · rw [same]
  · rw [same]
    rfl
  · rw [same, files.resolve_create other name data free, Option.isSome_map]
    rfl

theorem canRead_write (data : List UInt8) :
    (files.write path data).canRead = files.canRead := by
  rcases files.write_cases path data with ⟨-, same⟩ | ⟨inode, -, same⟩ | ⟨name, -, -, same⟩ <;>
    rw [same] <;> rfl

theorem write_write (first second : List UInt8) :
    (files.write path first).write path second = files.write path second := by
  rcases files.write_cases path first with ⟨held, same⟩ | ⟨inode, held, same⟩ |
    ⟨name, held, free, same⟩
  · rw [same]
  · have still : (files.overwrite inode first).resolve path = some (.file inode) := held
    rw [same, write, still, write, held]
    dsimp only [overwrite]
    rw [Function.update_idem]
  · have made : (files.create name first).resolve path = some (.file files.fresh) := by
      rw [files.resolve_create path name first free, held, Option.map_some, Location.created,
        if_pos rfl]
    rw [same, write, made, write, held]
    dsimp only [overwrite, create]
    rw [Function.update_idem]

theorem write_same (data : List UInt8) (held : files.read path = some data) :
    files.write path data = files := by
  obtain ⟨inode, leads, same⟩ := (files.read_eq_some_iff path data).mp held
  rw [write, leads, ← same]
  dsimp only [overwrite]
  rw [Function.update_eq_self]

/-- A path goes through the last name of another one only on its way to the same place. -/
theorem resolve_of_names (location : Location) (leads : files.resolve other = some location)
    (passes : files.name path ∈ files.names other) : files.resolve path = some location :=
  follow_of_way leads passes

theorem resolve_remove :
    (files.remove path).1.resolve other =
      if (files.remove path).2 = true ∧ files.name path ∈ files.names other then
        some (.absent (files.name path))
      else files.resolve other := by
  unfold remove
  split
  · by_cases passes : files.name path ∈ files.names other
    · rw [if_pos ⟨rfl, passes⟩]
      exact follow_removed_on passes
    · rw [if_neg (passes ·.2)]
      exact follow_removed_off passes
  · rw [if_neg nofun]

theorem opensWrite_remove (writable : files.opensWrite other = true) :
    (files.remove path).1.opensWrite other = true := by
  have rights : (files.remove path).1.canWrite = files.canWrite := by
    unfold remove
    split <;> rfl
  obtain ⟨leads, allowed⟩ := Bool.and_eq_true_iff.mp writable
  unfold opensWrite
  rw [rights, resolve_remove]
  split
  · exact allowed
  · exact writable

theorem canRead_remove : (files.remove path).1.canRead = files.canRead := by
  unfold remove
  split <;> rfl

/-- Paths that lead apart still do after one of their names was removed. -/
theorem resolve_remove_ne (leads : (files.resolve other).isSome = true)
    (apart : files.resolve other ≠ files.resolve path) :
    (files.remove path).1.resolve other ≠ (files.remove path).1.resolve path := by
  have avoids : files.name path ∉ files.names other := by
    obtain ⟨location, held⟩ := Option.isSome_iff_exists.mp leads
    exact fun passes => apart (held.trans (files.resolve_of_names path other _ held passes).symm)
  rw [resolve_remove, resolve_remove, if_neg (avoids ·.2)]
  split
  · exact fun freed => avoids (follow_absent freed).2
  · exact apart

/-- A file can no longer be read over a name that was removed, and is there otherwise. -/
theorem read_remove :
    (files.remove path).1.read other =
      if (files.remove path).2 = true ∧ files.name path ∈ files.names other then none
      else files.read other := by
  have contents : (files.remove path).1.contents = files.contents := by
    unfold remove
    split <;> rfl
  unfold read
  rw [resolve_remove, contents]
  by_cases gone : (files.remove path).2 = true ∧ files.name path ∈ files.names other
  · rw [if_pos gone, if_pos gone]
  · rw [if_neg gone, if_neg gone]

theorem read_remove_other (apart : files.resolve other ≠ files.resolve path) :
    (files.remove path).1.read other = files.read other := by
  rw [read_remove]
  split
  · rename_i gone
    cases held : files.resolve other with
    | none => rw [read, held]
    | some location =>
        have same := files.resolve_of_names path other location held gone.2
        exact absurd (held.trans same.symm) apart
  · rfl

end Operations

end FileSystem

end MediaplayerServer
