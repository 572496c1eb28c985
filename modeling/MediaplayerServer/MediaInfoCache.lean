import MediaplayerServer.MediaInfo

set_option autoImplicit false

namespace MediaplayerServer

open CMemory

namespace MediaInfo

/-- The calls a user of one MediaInfo makes. -/
inductive Call
  | getTitle (inFilePath : String)
  | getArtist (inFilePath : String)
  | getAlbum (inFilePath : String)
  | getImage (inFilePath inImagePath : String)
  deriving DecidableEq, Repr

def Call.path : Call → String
  | .getTitle inFilePath => inFilePath
  | .getArtist inFilePath => inFilePath
  | .getAlbum inFilePath => inFilePath
  | .getImage inFilePath _ => inFilePath

/-- The getter that returns a member. -/
def getter : Field → Discover → MediaInfo → FileSystem → String →
    (MediaInfo × FileSystem) × List UInt8
  | .title => getTitle
  | .artist => getArtist
  | .album => getAlbum

theorem getter_eq (field : Field) (discover : Discover) (self : MediaInfo) (files : FileSystem)
    (inFilePath : String) :
    getter field discover self files inFilePath =
      self.getField discover field files inFilePath := by
  cases field <;> rfl

def call (discover : Discover) (state : MediaInfo × FileSystem) : Call → MediaInfo × FileSystem
  | .getTitle inFilePath => (state.1.getTitle discover state.2 inFilePath).1
  | .getArtist inFilePath => (state.1.getArtist discover state.2 inFilePath).1
  | .getAlbum inFilePath => (state.1.getAlbum discover state.2 inFilePath).1
  | .getImage inFilePath inImagePath =>
      (state.1.getImage discover state.2 inFilePath inImagePath).1

def callAll (discover : Discover) (state : MediaInfo × FileSystem) (calls : List Call) :
    MediaInfo × FileSystem :=
  calls.foldl (call discover) state

end MediaInfo

open MediaInfo

/-- A discovery that does not depend on the files: no media file changes. -/
def unchanging (discover : String → List Callback) : Discover := fun _ path => discover path

/-- The texts that callbacks copy into a member, in their order. -/
def texts (field : Field) (callbacks : List Callback) : List (List UInt8) :=
  callbacks.filterMap fun callback =>
    if callback.tag = field.tag then some (copied callback.value.str) else none

theorem texts_append (field : Field) (first second : List Callback) :
    texts field (first ++ second) = texts field first ++ texts field second :=
  List.filterMap_append

theorem texts_own (field : Field) (callback : Callback) (own : callback.tag = field.tag) :
    texts field [callback] = [copied callback.value.str] := by
  rw [texts, List.filterMap_cons, if_pos own]
  rfl

theorem texts_other (field : Field) (callback : Callback) (other : callback.tag ≠ field.tag) :
    texts field [callback] = [] := by
  rw [texts, List.filterMap_cons, if_neg other]
  rfl

theorem copied_fits (str : CString) : (copied str).length < Field.size := by
  rw [copied, List.length_take, Field.size]
  split <;> omega

theorem copied_nulFree (str : CString) : 0 ∉ copied str := fun member =>
  str.nulFree (List.mem_of_mem_take member)

/-- Every member ends inside the record. -/
theorem Field.within (field : Field) : field.offset + Field.size ≤ sizeofMediaInfo := by
  cases field <;> decide

/-- The three members do not overlap. -/
theorem Field.apart (field other : Field) (differ : field ≠ other) (length : Nat)
    (fits : length < Field.size) :
    other.offset + length ≤ field.offset ∨ field.offset + Field.size ≤ other.offset := by
  cases field <;> cases other <;>
    first
    | exact absurd rfl differ
    | (simp only [Field.offset, Field.size] at fits ⊢; omega)

/-- One callback's copy, as seen from any of the members. -/
theorem holds_copyField {memory : Memory} {field : Field} {old : List UInt8}
    (holds : Holds memory field.offset Field.size old) (target : Field) (str : CString) :
    Holds (copyField memory target str) field.offset Field.size
      (if target = field then overlay (copied str) old else old) := by
  by_cases same : target = field
  · subst same
    rw [if_pos rfl]
    exact holds.copied (copied str) (copied_fits str) (copied_nulFree str)
  · rw [if_neg same]
    exact holds.frame target.offset (copied str)
      (field.apart target (Ne.symm same) _ (copied_fits str))

/-- The member that a tag's text goes to. -/
def fieldOf (tag : String) : Option Field :=
  if tag = Field.title.tag then some .title
  else if tag = Field.album.tag then some .album
  else if tag = Field.artist.tag then some .artist
  else none

theorem fieldOf_iff (tag : String) (field : Field) :
    fieldOf tag = some field ↔ tag = field.tag := by
  unfold fieldOf
  split
  · rename_i title
    subst title
    cases field <;> decide
  · split
    · rename_i album
      subst album
      cases field <;> decide
    · split
      · rename_i artist
        subst artist
        cases field <;> decide
      · rename_i noTitle noAlbum noArtist
        refine iff_of_false nofun ?_
        rintro rfl
        cases field
        · exact noTitle rfl
        · exact noArtist rfl
        · exact noAlbum rfl

theorem printTagForeach_memory (path : String) (state : FileSystem × Memory)
    (callback : Callback) :
    (printTagForeach path state callback).2 =
      match fieldOf callback.tag with
      | some field => copyField state.2 field callback.value.str
      | none => state.2 := by
  unfold printTagForeach fieldOf
  dsimp only
  split
  · rfl
  · split
    · rfl
    · split <;> rfl

theorem holds_printTagForeach {state : FileSystem × Memory} {field : Field}
    {old : List UInt8} (holds : Holds state.2 field.offset Field.size old) (path : String)
    (callback : Callback) :
    Holds (printTagForeach path state callback).2 field.offset Field.size
      (overlays (texts field [callback]) old) := by
  rw [printTagForeach_memory]
  have own := fieldOf_iff callback.tag field
  cases target : fieldOf callback.tag with
  | none =>
      have other : callback.tag ≠ field.tag := by
        intro same
        rw [own.mpr same] at target
        cases target
      rw [texts_other field callback other]
      exact holds
  | some named =>
      have copied := holds_copyField holds named callback.value.str
      rw [target, Option.some.injEq] at own
      by_cases same : named = field
      · rw [if_pos same] at copied
        rw [texts_own field callback (own.mp same)]
        exact copied
      · have other : callback.tag ≠ field.tag := fun tag => same (own.mpr tag)
        rw [if_neg same] at copied
        rw [texts_other field callback other]
        exact copied

/-- A member after one discovery: its texts, copied one after the other. -/
theorem holds_callbacks {state : FileSystem × Memory} {field : Field} {old : List UInt8}
    (holds : Holds state.2 field.offset Field.size old) (path : String)
    (callbacks : List Callback) :
    Holds (callbacks.foldl (printTagForeach path) state).2 field.offset Field.size
      (overlays (texts field callbacks) old) := by
  induction callbacks generalizing state old with
  | nil => exact holds
  | cons callback rest ih =>
      have first := holds_printTagForeach holds path callback
      have split : texts field (callback :: rest) = texts field [callback] ++ texts field rest :=
        texts_append field [callback] rest
      rw [List.foldl_cons, split, overlays_append]
      exact ih first

/-- The paths whose tags are read when a MediaInfo that knows the path `cached` is asked
for these, in this order. -/
def discovered (cached : String) : List String → List String
  | [] => []
  | path :: rest =>
      if cached ≠ path then path :: discovered path rest else discovered cached rest

/-- The last path asked for is the last one read, unless nothing was read at all. -/
theorem discovered_last (cached : String) (paths : List String) :
    discovered cached paths = [] ∧ paths.getLastD cached = cached ∨
      ∃ earlier, discovered cached paths = earlier ++ [paths.getLastD cached] := by
  induction paths generalizing cached with
  | nil => exact Or.inl ⟨rfl, rfl⟩
  | cons path rest ih =>
      rw [discovered, List.getLastD_cons]
      by_cases stale : cached ≠ path
      · rw [if_pos stale]
        right
        rcases ih path with ⟨nothing, last⟩ | ⟨earlier, split⟩
        · exact ⟨[], by rw [nothing, last, List.nil_append]⟩
        · exact ⟨path :: earlier, by rw [split, List.cons_append]⟩
      · rw [if_neg stale]
        rw [ne_eq, not_not] at stale
        subst stale
        exact ih cached

/-- A MediaInfo whose member `field` holds the text, and which takes `path` as known. -/
structure Knows (info : MediaInfo) (path : String) (field : Field) (text : List UInt8) : Prop where
  known : info.mFilePath = path
  holds : Holds info.mMediaInfo field.offset Field.size text

theorem fresh_knows (field : Field) : Knows fresh "" field [] :=
  ⟨rfl, holds_zeros _ _ (by decide)⟩

theorem Knows.text_eq {info : MediaInfo} {path : String} {field : Field} {text : List UInt8}
    (knows : Knows info path field text) : info.text field = text :=
  knows.holds.readString sizeofMediaInfo field.within

theorem Knows.refresh {info : MediaInfo} {cached : String} {field : Field} {old : List UInt8}
    (knows : Knows info cached field old) (discover : String → List Callback)
    (files : FileSystem) (path : String) :
    Knows (info.refresh (unchanging discover) files path).1 path field
      (overlays (texts field ((discovered cached [path]).flatMap discover)) old) := by
  obtain ⟨rfl, holds⟩ := knows
  unfold MediaInfo.refresh
  by_cases stale : info.mFilePath ≠ path
  · rw [if_pos stale, discovered, if_pos stale, discovered, List.flatMap_singleton]
    have state : Holds (files, info.mMediaInfo).2 field.offset Field.size old := holds
    exact ⟨rfl, holds_callbacks state info.mTempImg (discover path)⟩
  · rw [if_neg stale, discovered, if_neg stale]
    rw [ne_eq, not_not] at stale
    exact ⟨stale, holds⟩

theorem call_refresh (discover : Discover) (state : MediaInfo × FileSystem) (asked : Call) :
    (call discover state asked).1 = (state.1.refresh discover state.2 asked.path).1 := by
  cases asked <;> rfl

/-- After any calls, a member holds the texts of all discoveries made, one copied over
the other. -/
theorem Knows.calls {state : MediaInfo × FileSystem} {cached : String} {field : Field}
    {old : List UInt8} (knows : Knows state.1 cached field old)
    (discover : String → List Callback) (calls : List Call) :
    Knows (callAll (unchanging discover) state calls).1
      ((calls.map Call.path).getLastD cached) field
      (overlays
        (texts field ((discovered cached (calls.map Call.path)).flatMap discover)) old) := by
  induction calls generalizing state cached old with
  | nil => exact knows
  | cons asked rest ih =>
      have first : Knows (call (unchanging discover) state asked).1 asked.path field
          (overlays (texts field ((discovered cached [asked.path]).flatMap discover)) old) := by
        rw [call_refresh]
        exact knows.refresh discover state.2 asked.path
      have split : discovered cached (asked.path :: rest.map Call.path) =
          discovered cached [asked.path] ++ discovered asked.path (rest.map Call.path) := by
        by_cases stale : cached ≠ asked.path
        · simp only [discovered, if_pos stale, List.singleton_append]
        · simp only [discovered, if_neg stale, List.nil_append]
          rw [ne_eq, not_not] at stale
          rw [stale]
      rw [List.map_cons, List.getLastD_cons, split, List.flatMap_append, texts_append,
        overlays_append]
      exact ih first

/-- The text that a getter returns after the calls. -/
theorem getField_after (discover : String → List Callback) (files : FileSystem)
    (calls : List Call) (field : Field) (path : String) :
    ((callAll (unchanging discover) (fresh, files) calls).1.getField (unchanging discover) field
        (callAll (unchanging discover) (fresh, files) calls).2 path).2 =
      overlays (texts field
        ((discovered "" (calls.map Call.path ++ [path])).flatMap discover)) [] := by
  have start : Knows (fresh, files).1 "" field [] := fresh_knows field
  have after := start.calls discover (calls ++ [.getTitle path])
  rw [callAll, List.foldl_append, List.foldl_cons, List.foldl_nil, call_refresh,
    List.map_append] at after
  exact after.text_eq

theorem getField_fresh (discover : String → List Callback) (files : FileSystem) (field : Field)
    (path : String) :
    (fresh.getField (unchanging discover) field files path).2 =
      overlays (texts field (if path = "" then [] else discover path)) [] := by
  have single := getField_after discover files [] field path
  by_cases empty : path = ""
  · subst empty
    exact single
  · have stale : "" ≠ path := Ne.symm empty
    rw [if_neg empty]
    rw [List.map_nil, List.nil_append, discovered, if_pos stale, discovered,
      List.flatMap_singleton] at single
    exact single

/-- The length of the longest text that discovering the path copies into the member. -/
def extent (discover : String → List Callback) (field : Field) (path : String) : Nat :=
  longest (texts field (discover path))

theorem longest_flatMap_le_iff (discover : String → List Callback) (field : Field)
    (paths : List String) (bound : Nat) :
    longest (texts field (paths.flatMap discover)) ≤ bound ↔
      ∀ path ∈ paths, extent discover field path ≤ bound := by
  induction paths with
  | nil => exact iff_of_true (Nat.zero_le bound) nofun
  | cons path rest ih =>
      rw [List.flatMap_cons, texts_append, List.forall_mem_cons, ← ih, extent]
      simp only [longest_le_iff, List.forall_mem_append]

/-- Tags of the path "/a.mp3" only: the title "ab". -/
def oneTitle : String → List Callback := fun path =>
  if path = "/a.mp3" then [⟨"title", .string ⟨[97, 98], by decide⟩⟩] else []

def noFiles : FileSystem where
  name := fun _ => 0
  entry := fun _ => none
  contents := fun _ => []
  fresh := 0
  allocated := nofun
  symloopMax := 40
  canRead := fun _ => false
  canWrite := fun _ => false
  canRemove := fun _ => false

/-- A file without a title is given the title of the file asked for before it. -/
theorem stale_title_returned :
    ((callAll (unchanging oneTitle) (fresh, noFiles) [.getTitle "/a.mp3"]).1.getTitle
        (unchanging oneTitle)
        (callAll (unchanging oneTitle) (fresh, noFiles) [.getTitle "/a.mp3"]).2
        "/b.mp3").2 = [97, 98] ∧
      (fresh.getTitle (unchanging oneTitle) noFiles "/b.mp3").2 = [] := by
  constructor
  · exact (getField_after oneTitle noFiles [.getTitle "/a.mp3"] .title "/b.mp3").trans (by decide)
  · exact (getField_fresh oneTitle noFiles .title "/b.mp3").trans (by decide)

/-- After any calls, a title, artist or album is what a fresh MediaInfo returns exactly
if no path discovered on the way, the asked one included, has a longer text for it than
the asked one gives a fresh MediaInfo. -/
theorem cache_transparent_iff (discover : String → List Callback) (files : FileSystem)
    (calls : List Call) (field : Field) (path : String) :
    (getter field (unchanging discover) (callAll (unchanging discover) (fresh, files) calls).1
          (callAll (unchanging discover) (fresh, files) calls).2 path).2 =
        (getter field (unchanging discover) fresh files path).2 ↔
      ∀ other ∈ discovered "" (calls.map Call.path ++ [path]),
        extent discover field other ≤ if path = "" then 0 else extent discover field path := by
  rw [getter_eq, getter_eq, getField_after, getField_fresh]
  by_cases empty : path = ""
  · rw [if_pos empty, if_pos empty, ← longest_flatMap_le_iff, ← overlays_length,
      Nat.le_zero, List.length_eq_zero_iff]
    exact Iff.rfl
  · rw [if_neg empty, if_neg empty]
    have last : (calls.map Call.path ++ [path]).getLastD "" = path := by simp
    rcases discovered_last "" (calls.map Call.path ++ [path]) with ⟨-, none⟩ | ⟨earlier, split⟩
    · rw [last] at none
      exact absurd none empty
    · rw [last] at split
      -- the path itself was discovered last, over what the others had left
      rw [split, List.flatMap_append, List.flatMap_singleton, texts_append, overlays_append,
        overlays_eq (texts field (discover path)), overlay_eq_left_iff, overlays_length,
        overlays_length, longest_flatMap_le_iff]
      constructor
      · intro shorter other member
        rcases List.mem_append.mp member with before | same
        · exact shorter other before
        · exact Nat.le_of_eq (by rw [List.mem_singleton.mp same])
      · intro shorter other member
        exact shorter other (List.mem_append_left _ member)

end MediaplayerServer
