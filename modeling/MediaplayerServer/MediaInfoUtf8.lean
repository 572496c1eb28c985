import MediaplayerServer.MediaInfoRecord
import MediaplayerServer.Utf8

set_option autoImplicit false

namespace MediaplayerServer

open CMemory

namespace MediaInfo

/-- A path that is known is not discovered again. -/
theorem refresh_known (discover : Discover) (self : MediaInfo) (files : FileSystem)
    (inFilePath : String) (known : self.mFilePath = inFilePath) :
    self.refresh discover files inFilePath = (self, files) := by
  unfold refresh
  rw [if_neg (not_not_intro known)]

theorem refresh_path (discover : Discover) (self : MediaInfo) (files : FileSystem)
    (inFilePath : String) :
    (self.refresh discover files inFilePath).1.mFilePath = inFilePath := by
  unfold refresh
  split
  · rfl
  · rename_i known
    exact not_not.mp known

end MediaInfo

/-- One of the three strings of mediainfo_complete_get_tags. -/
def sent (field : Field) (reply : FileSystem × List UInt8 × List UInt8 × List UInt8) :
    List UInt8 :=
  match field with
  | .title => reply.2.1
  | .artist => reply.2.2.1
  | .album => reply.2.2.2

/-- The three getters of handleGetTags read the record of one discovery. -/
theorem sent_handleGetTags (discover : Discover) (files : FileSystem) (filepath : String)
    (field : Field) :
    sent field (handleGetTags discover files filepath) =
      member (MediaInfo.fresh.refresh discover files filepath).1.mMediaInfo field := by
  have known := MediaInfo.refresh_path discover MediaInfo.fresh files filepath
  have again := MediaInfo.refresh_known discover _
    (MediaInfo.fresh.refresh discover files filepath).2 filepath known
  cases field <;>
    simp only [handleGetTags, MediaInfo.getTitle, MediaInfo.getArtist, MediaInfo.getAlbum,
      MediaInfo.getField, again, sent] <;>
    rfl

/-- What print_tag_foreach leaves of a value in a zeroed MediaInfo_s. -/
def stored (field : Field) (files : FileSystem) (mImagePath : String) (value : CString) :
    List UInt8 :=
  member (printTagForeach mImagePath (files, fun _ => 0) ⟨field.tag, .string value⟩).2 field

theorem stored_eq_take (field : Field) (files : FileSystem) (mImagePath : String)
    (value : CString) :
    stored field files mImagePath value = value.bytes.take (Field.size - 1) := by
  have single := member_processFile files mImagePath
    (.uri [⟨field.tag, .string value⟩]) field
  rw [Entry.callbacks, texts_own field ⟨field.tag, .string value⟩ rfl] at single
  rw [← copied_eq_take]
  exact single.trans (overlay_nil _)

/-- So many a, and an é. -/
def accented (count : Nat) : CString where
  bytes := List.replicate count 97 ++ [0xc3, 0xa9]
  nulFree := by
    rw [List.mem_append, List.mem_replicate, not_or]
    exact ⟨fun repeated => absurd repeated.2 (by decide), by decide⟩

theorem accented_valid (count : Nat) : Utf8.Valid (accented count).bytes :=
  (Utf8.valid_replicate 97 (Utf8.valid_encode ['a']) count).append (Utf8.valid_encode ['é'])

theorem accented_last (count : Nat) : (accented count).bytes[count + 1]? = some 0xa9 := by
  rw [accented, List.getElem?_append_right (by simp), List.length_replicate,
    Nat.add_sub_cancel_left]
  rfl

/-- An é that begins with the last byte copied is cut in half. -/
theorem accented_title_cut :
    Utf8.Valid (accented 1022).bytes ∧
      ¬ Utf8.Valid (stored .title noFiles "/tmp/tmp.jpg" (accented 1022)) := by
  refine ⟨accented_valid 1022, ?_⟩
  have last := accented_last 1022
  have length : (accented 1022).bytes.length = 1024 := by
    rw [accented, List.length_append, List.length_replicate]
    rfl
  rw [stored_eq_take, Utf8.valid_take_iff _ (accented_valid 1022), length]
  rintro (short | ⟨byte, same, first⟩)
  · exact absurd short (by decide)
  · cases same.symm.trans last
    exact absurd first (by decide)

/-- The stored text of a UTF-8 value is sent as it is stored, and is UTF-8 and a prefix of
the value exactly if the value has at most 1023 bytes or a character begins behind them. -/
theorem tags_sendable_iff (field : Field) (files : FileSystem) (value : CString)
    (valid : Utf8.Valid value.bytes) :
    (∀ (discover : Discover) (filepath : String), filepath ≠ "" →
        discover files filepath = [⟨field.tag, .string value⟩] →
        sent field (handleGetTags discover files filepath) =
          stored field files MediaInfo.fresh.mTempImg value) ∧
      ∀ mImagePath : String,
        Utf8.Valid (stored field files mImagePath value) ∧
            stored field files mImagePath value <+: value.bytes ↔
          value.bytes.length ≤ Field.size - 1 ∨
            ∃ byte, value.bytes[Field.size - 1]? = some byte ∧ byte.IsUTF8FirstByte := by
  constructor
  · intro discover filepath named found
    have stale : MediaInfo.fresh.mFilePath ≠ filepath := Ne.symm named
    rw [sent_handleGetTags, MediaInfo.refresh, if_pos stale, getTags, found]
    rfl
  · intro mImagePath
    rw [stored_eq_take, Utf8.valid_take_iff value.bytes valid]
    exact and_iff_left (List.take_prefix _ _)

/-- A short title is sent whole. -/
theorem short_title_sendable :
    Utf8.Valid (stored .title noFiles "/tmp/tmp.jpg" (accented 3)) ∧
      stored .title noFiles "/tmp/tmp.jpg" (accented 3) <+: (accented 3).bytes :=
  ((tags_sendable_iff .title noFiles (accented 3) (accented_valid 3)).2 "/tmp/tmp.jpg").mpr
    (Or.inl (by decide))

end MediaplayerServer
