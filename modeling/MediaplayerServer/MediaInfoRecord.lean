import MediaplayerServer.MediaInfoCache

set_option autoImplicit false

namespace MediaplayerServer

open CMemory

/-- What a filename stands for, by the branches of process_file: a valid URI, a directory
that opens, or anything else, with a URI made for it unless that fails. What is discovered
at a URI comes as the calls of print_tag_foreach that print_info makes. -/
inductive Entry
  | uri (callbacks : List Callback)
  | directory (entries : List Entry)
  | file (discovered : Option (List Callback))

mutual

def processFile (mImagePath : String) (state : FileSystem × Memory) :
    Entry → FileSystem × Memory
  | .uri callbacks => callbacks.foldl (printTagForeach mImagePath) state
  | .directory entries => processEntries mImagePath state entries
  | .file none => state
  | .file (some callbacks) => callbacks.foldl (printTagForeach mImagePath) state

/-- The loop over g_dir_read_name. -/
def processEntries (mImagePath : String) (state : FileSystem × Memory) :
    List Entry → FileSystem × Memory
  | [] => state
  | entry :: rest => processEntries mImagePath (processFile mImagePath state entry) rest

end

mutual

/-- All calls of print_tag_foreach below a path, in the order of the recursion. -/
def Entry.callbacks : Entry → List Callback
  | .uri callbacks => callbacks
  | .directory entries => entriesCallbacks entries
  | .file discovered => discovered.getD []

def entriesCallbacks : List Entry → List Callback
  | [] => []
  | entry :: rest => entry.callbacks ++ entriesCallbacks rest

end

mutual

theorem processFile_eq (mImagePath : String) (state : FileSystem × Memory) (entry : Entry) :
    processFile mImagePath state entry =
      entry.callbacks.foldl (printTagForeach mImagePath) state := by
  cases entry with
  | uri callbacks => rw [processFile, Entry.callbacks]
  | directory entries => rw [processFile, Entry.callbacks, processEntries_eq]
  | file discovered =>
      cases discovered with
      | none => rw [processFile, Entry.callbacks, Option.getD_none, List.foldl_nil]
      | some callbacks => rw [processFile, Entry.callbacks, Option.getD_some]

theorem processEntries_eq (mImagePath : String) (state : FileSystem × Memory)
    (entries : List Entry) :
    processEntries mImagePath state entries =
      (entriesCallbacks entries).foldl (printTagForeach mImagePath) state := by
  cases entries with
  | nil => rw [processEntries, entriesCallbacks, List.foldl_nil]
  | cons entry rest =>
      rw [processEntries, entriesCallbacks, List.foldl_append, processFile_eq,
        processEntries_eq]

end

/-- A getTags call on a directory tree is process_file's walk over it. -/
theorem getTags_processFile (entry : Entry) (inFilePath outImagePath : String)
    (files : FileSystem) (mediainfo : Memory) :
    getTags (fun _ _ => entry.callbacks) inFilePath outImagePath files mediainfo =
      processFile outImagePath (files, mediainfo) entry := by
  rw [processFile_eq, getTags]

/-- The values that callbacks give for a member, in their order. -/
def values (field : Field) (callbacks : List Callback) : List (List UInt8) :=
  callbacks.filterMap fun callback =>
    if callback.tag = field.tag then some callback.value.str.bytes else none

/-- The value of the last callback for a member, empty if there was none. -/
def lastValue (field : Field) (callbacks : List Callback) : List UInt8 :=
  (values field callbacks).getLastD []

theorem copied_eq_take (str : CString) : copied str = str.bytes.take (Field.size - 1) := by
  rw [copied]
  split
  · rw [List.take_length, List.take_of_length_le (by omega)]
  · rfl

theorem texts_eq_map (field : Field) (callbacks : List Callback) :
    texts field callbacks = (values field callbacks).map (List.take (Field.size - 1)) := by
  rw [texts, values, List.map_filterMap]
  congr 1
  funext callback
  split
  · rw [copied_eq_take, Option.map_some]
  · rfl

theorem getLastD_map_take (values : List (List UInt8)) (count : Nat) :
    (values.map (List.take count)).getLastD [] = (values.getLastD []).take count := by
  rcases List.eq_nil_or_concat' values with none | ⟨earlier, last, split⟩
  · rw [none, List.map_nil, List.getLastD_nil, List.take_nil]
  · rw [split, List.map_append, List.map_singleton, List.getLastD_concat, List.getLastD_concat]

/-- A member read as a C string. -/
def member (memory : Memory) (field : Field) : List UInt8 :=
  readString memory field.offset sizeofMediaInfo

theorem member_processFile (files : FileSystem) (mImagePath : String) (entry : Entry)
    (field : Field) :
    member (processFile mImagePath (files, fun _ => 0) entry).2 field =
      overlays (texts field entry.callbacks) [] := by
  have zeros : Holds (files, fun _ => (0 : UInt8)).2 field.offset Field.size [] :=
    holds_zeros _ _ (by decide)
  have written := holds_callbacks zeros mImagePath entry.callbacks
  rw [processFile_eq]
  exact written.readString sizeofMediaInfo field.within

/-- One member shows its last value exactly if no earlier one, capped, is longer. -/
theorem last_value_iff (field : Field) (callbacks : List Callback) :
    overlays (texts field callbacks) [] = (lastValue field callbacks).take (Field.size - 1) ↔
      ∀ value ∈ values field callbacks,
        min value.length (Field.size - 1) ≤ (lastValue field callbacks).length := by
  rw [lastValue, ← getLastD_map_take, ← texts_eq_map, overlays_eq_last_iff, texts_eq_map,
    List.forall_mem_map, getLastD_map_take]
  refine forall₂_congr fun value _ => ?_
  rw [List.length_take, List.length_take]
  omega

/-- A directory with the title "cd" and, further down, the title "x". -/
def twoTitles : Entry :=
  .directory
    [.file (some [⟨"title", .string ⟨[99, 100], by decide⟩⟩]),
      .directory [.file (some [⟨"title", .string ⟨[120], by decide⟩⟩])]]

/-- The title of the record is then "xd", and neither of the two. -/
theorem titles_mixed :
    member (processFile "/tmp/tmp.jpg" (noFiles, fun _ => 0) twoTitles).2 .title = [120, 100] ∧
      (lastValue .title twoTitles.callbacks).take (Field.size - 1) = [120] := by
  constructor
  · exact (member_processFile noFiles "/tmp/tmp.jpg" twoTitles .title).trans (by decide)
  · decide

/-- After any walk, and so after any calls of print_tag_foreach, title, artist and album are
the last values written to them exactly if no value, cut off at 1023 bytes, is longer than
the last one of its member. -/
theorem last_writer_wins_iff (files : FileSystem) (mImagePath : String) (entry : Entry) :
    (∀ field, member (processFile mImagePath (files, fun _ => 0) entry).2 field =
        (lastValue field entry.callbacks).take (Field.size - 1)) ↔
      ∀ field, ∀ value ∈ values field entry.callbacks,
        min value.length (Field.size - 1) ≤ (lastValue field entry.callbacks).length := by
  refine forall_congr' fun field => ?_
  rw [member_processFile]
  exact last_value_iff field entry.callbacks

/-- What can be written into the MediaInfo_s of a MediaInfo: one call of print_tag_foreach,
a run of getTags, or whatever a getter finds necessary for its path. -/
inductive Write
  | print (callback : Callback)
  | discovery (discover : Discover) (inFilePath : String)
  | getter (discover : Discover) (inFilePath : String)

def Write.apply (state : MediaInfo × FileSystem) : Write → MediaInfo × FileSystem
  | .print callback =>
      let result := printTagForeach state.1.mTempImg (state.2, state.1.mMediaInfo) callback
      ({ state.1 with mMediaInfo := result.2 }, result.1)
  | .discovery discover inFilePath =>
      let result := getTags discover inFilePath state.1.mTempImg state.2 state.1.mMediaInfo
      ({ state.1 with mMediaInfo := result.2 }, result.1)
  | .getter discover inFilePath => state.1.refresh discover state.2 inFilePath

/-- The calls of print_tag_foreach that a write makes. -/
def Write.callbacks (state : MediaInfo × FileSystem) : Write → List Callback
  | .print callback => [callback]
  | .discovery discover inFilePath => discover state.2 inFilePath
  | .getter discover inFilePath =>
      if state.1.mFilePath ≠ inFilePath then discover state.2 inFilePath else []

theorem Write.apply_memory (state : MediaInfo × FileSystem) (write : Write) :
    (write.apply state).1.mMediaInfo =
      ((write.callbacks state).foldl (printTagForeach state.1.mTempImg)
        (state.2, state.1.mMediaInfo)).2 := by
  cases write with
  | print callback => rfl
  | discovery discover inFilePath => rfl
  | getter discover inFilePath =>
      rw [Write.apply, Write.callbacks, MediaInfo.refresh]
      split <;> rfl

def applyAll (state : MediaInfo × FileSystem) (writes : List Write) : MediaInfo × FileSystem :=
  writes.foldl Write.apply state

def allCallbacks (state : MediaInfo × FileSystem) : List Write → List Callback
  | [] => []
  | write :: rest => write.callbacks state ++ allCallbacks (write.apply state) rest

/-- Any writes leave in a member the texts of their callbacks, copied one over the other. -/
theorem holds_applyAll {state : MediaInfo × FileSystem} {field : Field} {old : List UInt8}
    (holds : Holds state.1.mMediaInfo field.offset Field.size old) (writes : List Write) :
    Holds (applyAll state writes).1.mMediaInfo field.offset Field.size
      (overlays (texts field (allCallbacks state writes)) old) := by
  induction writes generalizing state old with
  | nil => exact holds
  | cons write rest ih =>
      have first : Holds (write.apply state).1.mMediaInfo field.offset Field.size
          (overlays (texts field (write.callbacks state)) old) := by
        have start : Holds (state.2, state.1.mMediaInfo).2 field.offset Field.size old := holds
        rw [Write.apply_memory]
        exact holds_callbacks start state.1.mTempImg (write.callbacks state)
      rw [allCallbacks, texts_append, overlays_append]
      exact ih first

theorem holds_reached (files : FileSystem) (writes : List Write) (field : Field) :
    Holds (applyAll (MediaInfo.fresh, files) writes).1.mMediaInfo field.offset Field.size
      (overlays (texts field (allCallbacks (MediaInfo.fresh, files) writes)) []) := by
  have start : Holds (MediaInfo.fresh, files).1.mMediaInfo field.offset Field.size [] :=
    (fresh_knows field).holds
  exact holds_applyAll start writes

/-- A callback writes into the first 1023 bytes of its own member only. -/
theorem printTagForeach_outside (mImagePath : String) (state : FileSystem × Memory)
    (callback : Callback) (address : Nat)
    (outside : ∀ field : Field, callback.tag = field.tag →
      address < field.offset ∨ field.offset + (Field.size - 1) ≤ address) :
    (printTagForeach mImagePath state callback).2 address = state.2 address := by
  rw [printTagForeach_memory]
  cases target : fieldOf callback.tag with
  | none => rfl
  | some field =>
      have fits := copied_fits callback.value.str
      refine memcpy_outside state.2 field.offset _ address ?_
      rcases outside field ((fieldOf_iff _ _).mp target) with before | behind
      · exact Or.inl before
      · exact Or.inr (by omega)

/-- What a getter returns after some writes. -/
def returned (field : Field) (files : FileSystem) (writes : List Write) (discover : Discover)
    (inFilePath : String) : List UInt8 :=
  let state := applyAll (MediaInfo.fresh, files) writes
  (MediaInfo.getter field discover state.1 state.2 inFilePath).2

/-- The values of a member in all callbacks until then, those of the getter included. -/
def ownValues (field : Field) (files : FileSystem) (writes : List Write) (discover : Discover)
    (inFilePath : String) : List (List UInt8) :=
  values field
    (allCallbacks (MediaInfo.fresh, files) (writes ++ [.getter discover inFilePath]))

theorem returned_eq_text (field : Field) (files : FileSystem) (writes : List Write)
    (discover : Discover) (inFilePath : String) :
    returned field files writes discover inFilePath =
      (applyAll (MediaInfo.fresh, files) (writes ++ [.getter discover inFilePath])).1.text
        field := by
  rw [returned, MediaInfo.getter_eq, applyAll, applyAll, List.foldl_append]
  rfl

theorem returned_eq_overlays (field : Field) (files : FileSystem) (writes : List Write)
    (discover : Discover) (inFilePath : String) :
    returned field files writes discover inFilePath =
      overlays ((ownValues field files writes discover inFilePath).map
        (List.take (Field.size - 1))) [] := by
  have holds := holds_reached files (writes ++ [.getter discover inFilePath]) field
  rw [returned_eq_text, ownValues, ← texts_eq_map]
  exact holds.readString sizeofMediaInfo field.within

/-- No callback writes outside the first 1023 bytes of its own member; the last byte of
every member is NUL after any writes; and what a getter returns ends inside its member and
depends on the values of that member only. -/
theorem members_apart :
    (∀ (mImagePath : String) (state : FileSystem × Memory) (callback : Callback) (address : Nat),
      (∀ field : Field, callback.tag = field.tag →
          address < field.offset ∨ field.offset + (Field.size - 1) ≤ address) →
        (printTagForeach mImagePath state callback).2 address = state.2 address) ∧
      (∀ (files : FileSystem) (writes : List Write) (field : Field),
        (applyAll (MediaInfo.fresh, files) writes).1.mMediaInfo
          (field.offset + (Field.size - 1)) = 0) ∧
      (∀ (field : Field) (files : FileSystem) (writes : List Write) (discover : Discover)
        (inFilePath : String),
        (returned field files writes discover inFilePath).length ≤ Field.size - 1) ∧
      ∀ (field : Field) (files otherFiles : FileSystem) (writes otherWrites : List Write)
        (discover otherDiscover : Discover) (inFilePath otherPath : String),
        ownValues field files writes discover inFilePath =
            ownValues field otherFiles otherWrites otherDiscover otherPath →
          returned field files writes discover inFilePath =
            returned field otherFiles otherWrites otherDiscover otherPath := by
  refine ⟨printTagForeach_outside, fun files writes field => ?_, ?_, ?_⟩
  · exact (holds_reached files writes field).last
  · intro field files writes discover inFilePath
    have holds := holds_reached files (writes ++ [.getter discover inFilePath]) field
    have room := holds.room
    rw [returned_eq_overlays, ownValues, ← texts_eq_map]
    omega
  · intro field files otherFiles writes otherWrites discover otherDiscover inFilePath otherPath
      same
    rw [returned_eq_overlays, returned_eq_overlays, same]

end MediaplayerServer
