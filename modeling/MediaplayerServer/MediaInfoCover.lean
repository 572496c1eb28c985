import MediaplayerServer.MediaInfoMove

set_option autoImplicit false

namespace MediaplayerServer

open CMemory
open FileSystem

/-- The path of the temporary image. -/
def tempImage : String := MediaInfo.fresh.mTempImg

/-- The cover image that discovering a file leaves in the temporary image: the one of
the last callback that has one. -/
def cover : List Callback → Option (List UInt8)
  | [] => none
  | callback :: rest => (cover rest).or (callback.image.map GstBuffer.written)

/-- What earlier requests left in the temporary image; a missing one counts as empty. -/
def residue (files : FileSystem) : List UInt8 :=
  (files.read tempImage).getD []

/-- Requests change the files by writing to paths and by removing the temporary image. -/
structure Kept (holds : FileSystem → Prop) : Prop where
  write : ∀ files path data, holds files → holds (files.write path data)
  remove : ∀ files, holds files → holds (files.remove tempImage).1

namespace Kept

variable {holds : FileSystem → Prop} (kept : Kept holds)

include kept

theorem saveImage {files : FileSystem} (path : String) (img : GstBuffer) (valid : holds files) :
    holds (saveImage files path img) := by
  unfold MediaplayerServer.saveImage
  split
  · exact kept.write files path _ valid
  · exact valid

theorem printTagForeach (path : String) (state : FileSystem × Memory) (callback : Callback)
    (valid : holds state.1) : holds (printTagForeach path state callback).1 := by
  unfold MediaplayerServer.printTagForeach
  dsimp only
  split
  · exact kept.saveImage path _ valid
  · exact valid

theorem callbacks (path : String) (callbacks : List Callback) (state : FileSystem × Memory)
    (valid : holds state.1) :
    holds (callbacks.foldl (MediaplayerServer.printTagForeach path) state).1 := by
  induction callbacks generalizing state with
  | nil => exact valid
  | cons callback rest ih => exact ih _ (kept.printTagForeach path state callback valid)

theorem move {files : FileSystem} (dst : String) (valid : holds files) :
    holds (MediaInfo.move files tempImage dst).1 := by
  have opened : holds (files.openWrite dst) := by
    unfold openWrite
    split
    · exact kept.write files dst _ valid
    · exact valid
  unfold MediaInfo.move
  split
  · exact valid
  · dsimp only
    split
    · exact opened
    · split
      · exact opened
      · exact kept.remove _ (kept.write _ dst _ opened)

theorem refresh (discover : Discover) (self : MediaInfo) {files : FileSystem} (path : String)
    (valid : holds files) : holds (self.refresh discover files path).2 := by
  unfold MediaInfo.refresh
  split
  · exact kept.callbacks self.mTempImg (discover files path) (files, self.mMediaInfo) valid
  · exact valid

end Kept

theorem refresh_mTempImg (discover : Discover) (files : FileSystem) (path : String) :
    (MediaInfo.fresh.refresh discover files path).1.mTempImg = tempImage := by
  unfold MediaInfo.refresh
  split <;> rfl

theorem Kept.handle {holds : FileSystem → Prop} (kept : Kept holds) (discover : Discover)
    {files : FileSystem} (request : InfoRequest) (valid : holds files) :
    holds (request.handle discover files) := by
  cases request with
  | getTags path =>
      have title := kept.refresh discover MediaInfo.fresh path valid
      exact kept.refresh discover _ path (kept.refresh discover _ path title)
  | getImage path dst =>
      have discovered := kept.refresh discover MediaInfo.fresh path valid
      show holds (MediaInfo.move _ (MediaInfo.fresh.refresh discover files path).1.mTempImg dst).1
      rw [refresh_mTempImg]
      exact kept.move dst discovered

/-- What writing and removing keeps, every history of requests keeps. -/
theorem Kept.handleAll {holds : FileSystem → Prop} (kept : Kept holds) (discover : Discover)
    {files : FileSystem} (history : List InfoRequest) (valid : holds files) :
    holds (handleAll discover files history) := by
  induction history generalizing files with
  | nil => exact valid
  | cons request rest ih => exact ih (kept.handle discover request valid)

theorem opensWrite_kept (path : String) : Kept fun files => files.opensWrite path = true where
  write := fun files other data writable => by rwa [opensWrite_write]
  remove := fun files writable => files.opensWrite_remove tempImage path writable

theorem printTagForeach_read (path : String) (state : FileSystem × Memory)
    (callback : Callback) (writable : state.1.opensWrite path = true) :
    (printTagForeach path state callback).1.read path =
      (callback.image.map GstBuffer.written).or (state.1.read path) := by
  cases saved : callback.image with
  | none => simp only [printTagForeach, saved, Option.map_none, Option.none_or]
  | some img =>
      have leads := (Bool.and_eq_true_iff.mp writable).1
      simp only [printTagForeach, saved, saveImage, writable, ↓reduceIte,
        read_write_self _ _ _ leads, Option.map_some, Option.some_or]

/-- The temporary image after the callbacks of one discovery. -/
theorem callbacks_read (path : String) (callbacks : List Callback)
    (state : FileSystem × Memory) (writable : state.1.opensWrite path = true) :
    (callbacks.foldl (printTagForeach path) state).1.read path =
      (cover callbacks).or (state.1.read path) := by
  induction callbacks generalizing state with
  | nil => rfl
  | cons callback rest ih =>
      have still : (printTagForeach path state callback).1.opensWrite path = true :=
        (opensWrite_kept path).printTagForeach path state callback writable
      rw [List.foldl_cons, ih _ still, printTagForeach_read path state callback writable, cover,
        Option.or_assoc]

/-- The temporary image and the destination can be opened, and are different files. -/
structure Movable (files : FileSystem) (dst : String) : Prop where
  apart : files.resolve dst ≠ files.resolve tempImage
  readTemp : files.canRead tempImage = true
  writeTemp : files.opensWrite tempImage = true
  writeDst : files.opensWrite dst = true

/-- Requests leave it so: a file that is made anew is no other path's file. -/
theorem movable_kept (dst : String) : Kept fun files => Movable files dst where
  write := fun files path data movable =>
    { apart := movable.apart ∘ (files.resolve_write_inj path dst data tempImage).mp
      readTemp := by rw [canRead_write, movable.readTemp]
      writeTemp := by rw [opensWrite_write, movable.writeTemp]
      writeDst := by rw [opensWrite_write, movable.writeDst] }
  remove := fun files movable =>
    { apart := files.resolve_remove_ne tempImage dst (MediaInfo.leads_of_opens movable.writeDst)
        movable.apart
      readTemp := by rw [canRead_remove, movable.readTemp]
      writeTemp := files.opensWrite_remove tempImage tempImage movable.writeTemp
      writeDst := files.opensWrite_remove tempImage dst movable.writeDst }

/-- Moving the temporary image leaves its bytes at the destination, and nothing there
when it does not exist. -/
theorem move_read (files : FileSystem) (dst : String) (movable : Movable files dst) :
    (MediaInfo.move files tempImage dst).1.read dst = some (residue files) := by
  have differ : tempImage ≠ dst := by
    rintro rfl
    exact movable.apart rfl
  cases present : files.read tempImage with
  | none =>
      have closed : files.opensRead tempImage = false := by
        rw [opensRead, present, Option.isSome_none, Bool.false_and]
      rw [MediaInfo.move_unreadable differ movable.writeDst closed, residue, present]
      exact files.read_write_self dst [] (MediaInfo.leads_of_opens movable.writeDst)
  | some data =>
      have readable : files.opensRead tempImage = true := by
        rw [opensRead, present, movable.readTemp, Option.isSome_some, Bool.and_self]
      obtain ⟨result, arrived⟩ :=
        MediaInfo.move_arrives movable.writeDst readable movable.apart.symm data present
      rw [result, residue, present]
      exact arrived

/-- The cover that serving a request for the path saves: none for the empty path, which a
fresh MediaInfo takes for the one it already knows. -/
def ownCover (discover : Discover) (files : FileSystem) (path : String) : Option (List UInt8) :=
  if path = "" then none else cover (discover files path)

theorem refresh_residue (discover : Discover) (files : FileSystem) (path : String)
    (writable : files.opensWrite tempImage = true) :
    residue (MediaInfo.fresh.refresh discover files path).2 =
      (ownCover discover files path).getD (residue files) := by
  by_cases empty : path = ""
  · subst empty
    rfl
  · have stale : MediaInfo.fresh.mFilePath ≠ path := fun same => empty same.symm
    rw [MediaInfo.refresh, if_pos stale, ownCover, if_neg empty, residue, getTags]
    have read := callbacks_read tempImage (discover files path)
      (files, MediaInfo.fresh.mMediaInfo) writable
    dsimp only
    rw [show MediaInfo.fresh.mTempImg = tempImage from rfl, read]
    cases cover (discover files path) <;> rfl

/-- What getImage puts at the destination: the file's own cover, or else whatever the
temporary image still held. -/
theorem handleGetImage_read (discover : Discover) (files : FileSystem) (path dst : String)
    (movable : Movable files dst) :
    (handleGetImage discover files path dst).read dst =
      some ((ownCover discover files path).getD (residue files)) := by
  have later := (movable_kept dst).refresh discover MediaInfo.fresh path movable
  rw [handleGetImage, MediaInfo.getImage]
  dsimp only
  rw [refresh_mTempImg, move_read _ dst later,
    refresh_residue discover files path movable.writeTemp]

theorem ownCover_congr (discover : Discover) (files other : FileSystem) (path : String)
    (byContents : ∀ files other : FileSystem, files.read path = other.read path →
      discover files path = discover other path)
    (same : files.read path = other.read path) :
    ownCover discover files path = ownCover discover other path := by
  rw [ownCover, ownCover, byContents files other same]

/-- A discovery of files of one byte: the file 1 has a cover, every other file has none. -/
def oneCover : Discover := fun files path =>
  if files.read path = some [1] then [⟨gstTagImage, .sample (some ⟨[9], true⟩) none⟩] else []

theorem oneCover_byContents (path : String) (files other : FileSystem)
    (same : files.read path = other.read path) : oneCover files path = oneCover other path := by
  rw [oneCover, oneCover, same]

/-- Two media files, of which only /a.mp3 has a cover, and no image anywhere yet. -/
def twoSongs : FileSystem where
  name := fun path =>
    if path = "/a.mp3" then 0
    else if path = "/b.mp3" then 1
    else if path = "/out.jpg" then 2
    else if path = "/tmp/tmp.jpg" then 3
    else 4
  entry := fun name => if name < 2 then some (.file name) else none
  contents := fun inode => if inode = 0 then [1] else [2]
  fresh := 2
  allocated := by
    intro name inode held
    split at held
    · cases held
      assumption
    · cases held
  symloopMax := 40
  canRead := fun _ => true
  canWrite := fun _ => true
  canRemove := fun _ => true

/-- The cover that an earlier getTags of /a.mp3 left behind goes to the image of /b.mp3,
which has none. -/
theorem stale_cover_delivered :
    (handleAll oneCover twoSongs [.getTags "/a.mp3"]).read "/b.mp3" =
        (handleAll oneCover twoSongs []).read "/b.mp3" ∧
      (handleAll oneCover twoSongs [.getTags "/a.mp3"]).read "/out.jpg" =
        (handleAll oneCover twoSongs []).read "/out.jpg" ∧
      (handleGetImage oneCover (handleAll oneCover twoSongs [.getTags "/a.mp3"])
        "/b.mp3" "/out.jpg").read "/out.jpg" = some [9] ∧
      (handleGetImage oneCover (handleAll oneCover twoSongs [])
        "/b.mp3" "/out.jpg").read "/out.jpg" = some [] := by
  decide

/-- Whatever two histories came before, getImage puts the same bytes at the destination
exactly if the file has a cover of its own or both histories left the same bytes in the
temporary image; and it puts nothing foreign there exactly if the file has a cover or
nothing was left. -/
theorem cover_history_independent_iff (discover : Discover) (files : FileSystem)
    (first second : List InfoRequest) (path dst : String)
    (byContents : ∀ files other : FileSystem, files.read path = other.read path →
      discover files path = discover other path)
    (movable : Movable files dst)
    (sameFile : (handleAll discover files first).read path =
      (handleAll discover files second).read path) :
    ((handleGetImage discover (handleAll discover files first) path dst).read dst =
          (handleGetImage discover (handleAll discover files second) path dst).read dst ↔
        (ownCover discover (handleAll discover files first) path).isSome = true ∨
          residue (handleAll discover files first) = residue (handleAll discover files second)) ∧
      ((handleGetImage discover (handleAll discover files first) path dst).read dst =
          some ((ownCover discover (handleAll discover files first) path).getD []) ↔
        (ownCover discover (handleAll discover files first) path).isSome = true ∨
          residue (handleAll discover files first) = []) := by
  have movable1 := (movable_kept dst).handleAll discover first movable
  have movable2 := (movable_kept dst).handleAll discover second movable
  have same := ownCover_congr discover _ _ path byContents sameFile
  rw [handleGetImage_read discover _ path dst movable1,
    handleGetImage_read discover _ path dst movable2, ← same, Option.some.injEq,
    Option.some.injEq]
  cases ownCover discover (handleAll discover files first) path with
  | none =>
      simp only [Option.getD_none, Option.isSome_none, Bool.false_eq_true, false_or, and_self]
  | some image =>
      simp only [Option.getD_some, Option.isSome_some, true_or, and_self]

/-- With a cover of its own, the image of /a.mp3 does not depend on an earlier request. -/
theorem own_cover_delivered :
    (handleGetImage oneCover (handleAll oneCover twoSongs [.getTags "/b.mp3"])
        "/a.mp3" "/out.jpg").read "/out.jpg" =
      (handleGetImage oneCover (handleAll oneCover twoSongs []) "/a.mp3" "/out.jpg").read
        "/out.jpg" :=
  (cover_history_independent_iff oneCover twoSongs [.getTags "/b.mp3"] [] "/a.mp3" "/out.jpg"
    (oneCover_byContents "/a.mp3") ⟨by decide, by decide, by decide, by decide⟩
    (by decide)).1.mpr (Or.inl (by decide))

end MediaplayerServer
