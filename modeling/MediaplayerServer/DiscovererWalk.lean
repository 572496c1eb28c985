import MediaplayerServer.MediaInfoRecord
import MediaplayerServer.Unrolling

set_option autoImplicit false

namespace MediaplayerServer.Walk

open CMemory
open Unrolling

/-- The static flags of gst-discoverer.c. No statement assigns them, so that getTags always runs
with their initial values. -/
structure Flags where
  async : Bool
  showToc : Bool
  verbose : Bool

def Flags.initial : Flags := ⟨false, false, false⟩

inductive StreamKind
  | audio
  | video
  | subtitle
  | container
  | other
  deriving DecidableEq

/-- A GstDiscovererStreamInfo. The tags of a tag list come as the calls of print_tag_foreach
that gst_tag_list_foreach makes for them; only a container has streams. -/
inductive StreamInfo
  | mk (kind : StreamKind) (tags : Option (List Callback)) (next : Option StreamInfo)
      (streams : List StreamInfo)

inductive TocEntry
  | mk (tags : Option (List Callback)) (subentries : List TocEntry)

structure DiscovererInfo where
  streamInfo : Option StreamInfo
  tags : Option (List Callback)
  toc : Option (List TocEntry)

def printTagsTopology (tags : Option (List Callback)) : List Callback := tags.getD []

def printStreamInfo (verbose : Bool) (kind : StreamKind) (tags : Option (List Callback)) :
    List Callback :=
  if verbose then
    match kind with
    | .audio => printTagsTopology tags
    | .video => printTagsTopology tags
    | .subtitle => printTagsTopology tags
    | .container => []
    | .other => []
  else []

mutual

def printTopology (verbose : Bool) : StreamInfo → List Callback
  | .mk kind tags next streams =>
      printStreamInfo verbose kind tags ++
        match next with
        | some next => printTopology verbose next
        | none => if kind = .container then printStreams verbose streams else []

/-- The loop over the streams of a container. -/
def printStreams (verbose : Bool) : List StreamInfo → List Callback
  | [] => []
  | stream :: rest => printTopology verbose stream ++ printStreams verbose rest

end

mutual

def printTocEntry : TocEntry → List Callback
  | .mk tags subentries => tags.getD [] ++ printTocEntries subentries

def printTocEntries : List TocEntry → List Callback
  | [] => []
  | entry :: rest => printTocEntry entry ++ printTocEntries rest

end

def printProperties (showToc : Bool) (info : DiscovererInfo) : List Callback :=
  info.tags.getD [] ++
    if showToc then
      match info.toc with
      | none => []
      | some entries => printTocEntries entries
    else []

/-- The result code only decides what is printed. -/
def printInfo (flags : Flags) : Option DiscovererInfo → List Callback
  | none => []
  | some info =>
      match info.streamInfo with
      | none => []
      | some sinfo => printTopology flags.verbose sinfo ++ printProperties flags.showToc info

/-- What GLib and GStreamer answer during one walk, which asks them once for each path. -/
structure World where
  uriIsValid : String → Bool
  dirOpen : String → Option (List String)
  pathIsAbsolute : String → Bool
  buildFilename : String → String
  filenameToUri : String → Option String
  discoverUri : String → Option DiscovererInfo

def analyze (world : World) (flags : Flags) (uri : String) : List Callback :=
  if flags.async then [] else printInfo flags (world.discoverUri uri)

/-- The loop over g_dir_read_name. -/
def processEntries (processFile : String → Option (List Callback)) (filename : String) :
    List String → Option (List Callback)
  | [] => some []
  | entry :: rest =>
      (processFile (filename ++ "/" ++ entry)).bind fun first =>
        (processEntries processFile filename rest).map fun others => first ++ others

/-- What is left of process_file where the filename is no directory. -/
def processLeaf (world : World) (flags : Flags) (filename : String) : List Callback :=
  if world.uriIsValid filename then analyze world flags filename
  else
    let path := if world.pathIsAbsolute filename then filename else world.buildFilename filename
    match world.filenameToUri path with
    | none => []
    | some uri => analyze world flags uri

/-- process_file, given the function it recurs on. -/
def processFileBody (world : World) (flags : Flags)
    (processFile : String → Option (List Callback)) (filename : String) :
    Option (List Callback) :=
  if world.uriIsValid filename then some (processLeaf world flags filename)
  else
    match world.dirOpen filename with
    | some entries => processEntries processFile filename entries
    | none => some (processLeaf world flags filename)

/-- process_file, cut off where it would be nested more deeply than `depth`. -/
def processFile (world : World) (flags : Flags) : Nat → String → Option (List Callback) :=
  unroll (processFileBody world flags)

/-- process_file on the one filename calls itself on the other. -/
def Descends (world : World) (filename other : String) : Prop :=
  world.uriIsValid filename = false ∧ ∃ entries, world.dirOpen filename = some entries ∧
    ∃ entry ∈ entries, filename ++ "/" ++ entry = other

mutual

/-- Without the verbose flag no stream's own tags are printed, however deep the topology. -/
theorem printTopology_quiet (info : StreamInfo) : printTopology false info = [] := by
  cases info with
  | mk kind tags next streams =>
      have own : printStreamInfo false kind tags = [] := if_neg Bool.false_ne_true
      cases next with
      | some next => rw [printTopology, own, printTopology_quiet next, List.append_nil]
      | none => rw [printTopology, own, printStreams_quiet streams, ite_self, List.append_nil]

theorem printStreams_quiet (streams : List StreamInfo) : printStreams false streams = [] := by
  cases streams with
  | nil => rw [printStreams]
  | cons stream rest =>
      rw [printStreams, printTopology_quiet stream, printStreams_quiet rest, List.append_nil]

end

/-- The tags of the whole file, if it has any stream at all. -/
def DiscovererInfo.recorded (info : DiscovererInfo) : List Callback :=
  if info.streamInfo.isSome then info.tags.getD [] else []

theorem printInfo_initial (info : Option DiscovererInfo) :
    printInfo Flags.initial info = (info.map DiscovererInfo.recorded).getD [] := by
  cases info with
  | none => rfl
  | some info =>
      rw [printInfo, Option.map_some, Option.getD_some, DiscovererInfo.recorded]
      cases info.streamInfo with
      | none => rfl
      | some sinfo =>
          dsimp only
          rw [Flags.initial, printTopology_quiet, printProperties, if_neg Bool.false_ne_true,
            List.nil_append, List.append_nil, Option.isSome_some, if_pos rfl]

section Recursion

variable (world : World) (flags : Flags)

theorem processEntries_returns_iff (processFile : String → Option (List Callback))
    (filename : String) (entries : List String) :
    (processEntries processFile filename entries).isSome = true ↔
      ∀ entry ∈ entries, (processFile (filename ++ "/" ++ entry)).isSome = true := by
  induction entries with
  | nil => exact iff_of_true rfl nofun
  | cons entry rest ih =>
      rw [processEntries, List.forall_mem_cons, ← ih]
      cases processFile (filename ++ "/" ++ entry) with
      | none => simp
      | some first => simp

theorem processFileBody_exact : Exact (processFileBody world flags) (Descends world) := by
  intro recur filename
  unfold processFileBody Descends
  cases valid : world.uriIsValid filename with
  | true => exact iff_of_true rfl (by rintro other ⟨⟨⟩, -⟩)
  | false =>
      rw [if_neg Bool.false_ne_true]
      cases opened : world.dirOpen filename with
      | none => exact iff_of_true rfl (by rintro other ⟨-, entries, ⟨⟩, -⟩)
      | some entries =>
          dsimp only
          rw [processEntries_returns_iff]
          constructor
          · rintro all other ⟨-, _, ⟨⟩, entry, member, rfl⟩
            exact all entry member
          · intro all entry member
            exact all _ ⟨rfl, entries, rfl, entry, member, rfl⟩

theorem descends_finite (filename : String) : {other | Descends world filename other}.Finite := by
  cases opened : world.dirOpen filename with
  | none =>
      refine Set.Finite.subset Set.finite_empty ?_
      rintro other ⟨-, entries, found, -⟩
      cases opened.symm.trans found
  | some entries =>
      refine (entries.map fun entry => filename ++ "/" ++ entry).finite_toSet.subset ?_
      rintro other ⟨-, found, same, entry, member, rfl⟩
      cases opened.symm.trans same
      exact List.mem_map.mpr ⟨entry, member, rfl⟩

end Recursion

/-- What a path leads to: a single file (or a URI), or the entries of a directory. -/
inductive Tree
  | file
  | directory (entries : List (String × Tree))

/-- The tree is what is found at the filename and below it. -/
inductive Shows (world : World) : String → Tree → Prop
  | file (filename : String)
      (leaf : world.uriIsValid filename = true ∨ world.dirOpen filename = none) :
      Shows world filename .file
  | directory (filename : String) (entries : List (String × Tree))
      (path : world.uriIsValid filename = false)
      (opened : world.dirOpen filename = some (entries.map Prod.fst))
      (below : ∀ entry ∈ entries, Shows world (filename ++ "/" ++ entry.1) entry.2) :
      Shows world filename (.directory entries)

mutual

/-- The names of all files at a path and below it, in the order of the walk. -/
def Tree.paths (filename : String) : Tree → List String
  | .file => [filename]
  | .directory entries => entriesPaths filename entries

def entriesPaths (filename : String) : List (String × Tree) → List String
  | [] => []
  | (entry, tree) :: rest => tree.paths (filename ++ "/" ++ entry) ++ entriesPaths filename rest

end

theorem entriesPaths_eq (filename : String) (entries : List (String × Tree)) :
    entriesPaths filename entries =
      entries.flatMap fun entry => entry.2.paths (filename ++ "/" ++ entry.1) := by
  induction entries with
  | nil => rw [entriesPaths, List.flatMap_nil]
  | cons entry rest ih =>
      obtain ⟨name, tree⟩ := entry
      rw [entriesPaths, ih, List.flatMap_cons]

section Results

variable {world : World} (flags : Flags)

theorem exists_entries {names : List String} {found : String → Tree → Prop}
    (each : ∀ name ∈ names, ∃ tree, found name tree) :
    ∃ entries : List (String × Tree), entries.map Prod.fst = names ∧
      ∀ entry ∈ entries, found entry.1 entry.2 := by
  induction names with
  | nil => exact ⟨[], rfl, nofun⟩
  | cons name rest ih =>
      rw [List.forall_mem_cons] at each
      obtain ⟨⟨tree, here⟩, later⟩ := each
      obtain ⟨entries, rfl, all⟩ := ih later
      exact ⟨(name, tree) :: entries, rfl, List.forall_mem_cons.mpr ⟨here, all⟩⟩

theorem shows_of_acc {filename : String} (reaches : Acc (flip (Descends world)) filename) :
    ∃ tree, Shows world filename tree := by
  induction reaches with
  | intro filename _ ih =>
      cases valid : world.uriIsValid filename with
      | true => exact ⟨.file, .file filename (Or.inl valid)⟩
      | false =>
          cases opened : world.dirOpen filename with
          | none => exact ⟨.file, .file filename (Or.inr opened)⟩
          | some names =>
              obtain ⟨entries, rfl, below⟩ := exists_entries fun name member =>
                ih (filename ++ "/" ++ name) ⟨valid, names, opened, name, member, rfl⟩
              exact ⟨.directory entries, .directory filename entries valid opened below⟩

theorem acc_of_shows {filename : String} {tree : Tree} (found : Shows world filename tree) :
    Acc (flip (Descends world)) filename := by
  induction found with
  | file filename leaf =>
      refine Acc.intro filename ?_
      rintro other ⟨path, entries, opened, -⟩
      rcases leaf with valid | closed
      · rw [path] at valid
        cases valid
      · rw [closed] at opened
        cases opened
  | directory filename entries path opened _ ih =>
      refine Acc.intro filename ?_
      rintro other ⟨-, names, same, name, member, rfl⟩
      cases opened.symm.trans same
      obtain ⟨entry, inside, rfl⟩ := List.mem_map.mp member
      exact ih entry inside

/-- process_file returns exactly if there is a finite tree to walk over. -/
theorem returns_iff_shows (filename : String) :
    (∃ depth, (processFile world flags depth filename).isSome = true) ↔
      ∃ tree, Shows world filename tree := by
  have returns := returns_iff_acc (processFileBody_exact world flags) (descends_finite world)
    filename
  exact returns.trans ⟨shows_of_acc, fun ⟨_, found⟩ => acc_of_shows found⟩

theorem processEntries_shows (recur : String → Option (List Callback)) (filename : String)
    (visit : String → List Callback) (entries : List (String × Tree)) (result : List Callback)
    (each : ∀ entry ∈ entries, ∀ own, recur (filename ++ "/" ++ entry.1) = some own →
      own = (entry.2.paths (filename ++ "/" ++ entry.1)).flatMap visit)
    (returned : processEntries recur filename (entries.map Prod.fst) = some result) :
    result = (entriesPaths filename entries).flatMap visit := by
  induction entries generalizing result with
  | nil =>
      cases returned
      rw [entriesPaths, List.flatMap_nil]
  | cons entry rest ih =>
      obtain ⟨name, tree⟩ := entry
      rw [List.forall_mem_cons] at each
      rw [List.map_cons, processEntries] at returned
      obtain ⟨first, own, more⟩ := Option.bind_eq_some_iff.mp returned
      obtain ⟨others, later, rfl⟩ := Option.map_eq_some_iff.mp more
      rw [each.1 first own, ih others each.2 later, entriesPaths, List.flatMap_append]

/-- What is recorded is what each file gives, in the order of the walk. -/
theorem processFile_shows {filename : String} {tree : Tree} (found : Shows world filename tree)
    (depth : Nat) (result : List Callback)
    (returned : processFile world flags depth filename = some result) :
    result = (tree.paths filename).flatMap (processLeaf world flags) := by
  induction found generalizing depth result with
  | file filename leaf =>
      cases depth with
      | zero => cases returned
      | succ depth =>
          have body : processFileBody world flags (processFile world flags depth) filename =
              some (processLeaf world flags filename) := by
            unfold processFileBody
            rcases leaf with valid | closed
            · rw [if_pos valid]
            · rw [closed, ite_self]
          cases body.symm.trans returned
          rw [Tree.paths, List.flatMap_singleton]
  | directory filename entries path opened _ ih =>
      cases depth with
      | zero => cases returned
      | succ depth =>
          have body : processFileBody world flags (processFile world flags depth) filename =
              processEntries (processFile world flags depth) filename (entries.map Prod.fst) := by
            unfold processFileBody
            rw [if_neg (by rw [path]; exact Bool.false_ne_true), opened]
          rw [Tree.paths]
          exact processEntries_shows _ filename _ entries result
            (fun entry member own => ih entry member depth own) (body.symm.trans returned)

end Results

section Distinct

/-- Directories list each of their names once, and no name has a separator in it. -/
def World.Lists (world : World) : Prop :=
  ∀ filename entries, world.dirOpen filename = some entries →
    entries.Nodup ∧ ∀ entry ∈ entries, '/' ∉ entry.toList

/-- The path begins with the filename, and goes on behind a separator if it does. -/
def Below (filename path : List Char) : Prop :=
  path = filename ∨ filename ++ ['/'] <+: path

theorem Below.trans {filename path further : List Char} (first : Below filename path)
    (second : Below path further) : Below filename further := by
  rcases first with rfl | inside
  · exact second
  · rcases second with rfl | deeper
    · exact Or.inr inside
    · exact Or.inr (inside.trans ((List.prefix_append _ _).trans deeper))

theorem below_entry (filename entry : String) :
    Below filename.toList (filename ++ "/" ++ entry).toList := by
  refine Or.inr ⟨entry.toList, ?_⟩
  rw [String.toList_append, String.toList_append]
  rfl

/-- A path below a directory shows which of its entries leads there. -/
theorem entry_of_below {start name path : List Char} (free : '/' ∉ name)
    (below : Below (start ++ name) path) :
    (path.drop start.length).takeWhile (fun char => decide (char ≠ '/')) = name := by
  have all : ∀ char ∈ name, decide (char ≠ '/') = true := by
    intro char member
    refine decide_eq_true ?_
    rintro rfl
    exact free member
  rcases below with rfl | ⟨rest, rfl⟩
  · rw [List.drop_left]
    exact List.takeWhile_eq_self_iff.mpr all
  · rw [List.append_assoc, List.append_assoc, List.drop_left,
      List.takeWhile_append_of_pos all, List.singleton_append, List.takeWhile_cons_of_neg,
      List.append_nil]
    decide

theorem paths_below {world : World} {filename : String} {tree : Tree}
    (found : Shows world filename tree) :
    ∀ path ∈ tree.paths filename, Below filename.toList path.toList := by
  induction found with
  | file filename leaf =>
      intro path member
      rw [Tree.paths, List.mem_singleton] at member
      exact Or.inl (by rw [member])
  | directory filename entries _ _ _ ih =>
      intro path member
      rw [Tree.paths, entriesPaths_eq] at member
      obtain ⟨entry, inside, further⟩ := List.mem_flatMap.mp member
      exact (below_entry filename entry.1).trans (ih entry inside path further)

theorem paths_nodup {world : World} (lists : world.Lists) {filename : String} {tree : Tree}
    (found : Shows world filename tree) : (tree.paths filename).Nodup := by
  induction found with
  | file filename leaf =>
      rw [Tree.paths]
      exact List.nodup_singleton filename
  | directory filename entries path opened below ih =>
      obtain ⟨distinct, free⟩ := lists filename _ opened
      rw [Tree.paths, entriesPaths_eq, List.nodup_flatMap]
      refine ⟨ih, ?_⟩
      have apart : entries.Pairwise fun first second => first.1 ≠ second.1 :=
        List.pairwise_map.mp distinct
      refine apart.imp_of_mem fun {first second} inside other different => ?_
      have named : ∀ entry ∈ entries, ∀ path ∈ entry.2.paths (filename ++ "/" ++ entry.1),
          (path.toList.drop (filename.toList ++ ['/']).length).takeWhile
            (fun char => decide (char ≠ '/')) = entry.1.toList := by
        intro entry member path further
        refine entry_of_below (free entry.1 (List.mem_map_of_mem member)) ?_
        have inside := paths_below (below entry member) path further
        rw [String.toList_append, String.toList_append] at inside
        exact inside
      intro path left right
      refine different (String.toList_inj.mp ?_)
      rw [← named first inside path left, ← named second other path right]

end Distinct

section Recorded

variable (world : World)

/-- The tags that getTags records of a file. -/
def recorded (filename : String) : List Callback :=
  let uri :=
    if world.uriIsValid filename then some filename
    else world.filenameToUri
      (if world.pathIsAbsolute filename then filename else world.buildFilename filename)
  ((uri.bind world.discoverUri).map DiscovererInfo.recorded).getD []

theorem processLeaf_initial (filename : String) :
    processLeaf world Flags.initial filename = recorded world filename := by
  have analyzed : ∀ uri, analyze world Flags.initial uri =
      ((world.discoverUri uri).map DiscovererInfo.recorded).getD [] := fun uri =>
    printInfo_initial (world.discoverUri uri)
  unfold processLeaf recorded
  cases world.uriIsValid filename with
  | true => exact analyzed filename
  | false =>
      dsimp only
      rw [if_neg Bool.false_ne_true, if_neg Bool.false_ne_true]
      cases world.filenameToUri
          (if world.pathIsAbsolute filename then filename else world.buildFilename filename) with
      | none => rfl
      | some uri => exact analyzed uri

/-- getTags; `created` is set if gst_discoverer_new returns a discoverer. -/
def getTags (created : Bool) (depth : Nat) (inFilePath outImagePath : String)
    (state : FileSystem × Memory) : Option (Int × (FileSystem × Memory)) :=
  if created then
    (processFile world Flags.initial depth inFilePath).map fun callbacks =>
      (0, callbacks.foldl (printTagForeach outImagePath) state)
  else some (-1, state)

mutual

/-- The tree, with what is recorded of each of its files. -/
def Tree.entry (filename : String) : Tree → Entry
  | .file => .file (some (recorded world filename))
  | .directory entries => .directory (treeEntries filename entries)

def treeEntries (filename : String) : List (String × Tree) → List Entry
  | [] => []
  | (entry, tree) :: rest =>
      tree.entry (filename ++ "/" ++ entry) :: treeEntries filename rest

end

mutual

theorem callbacks_entry (filename : String) (tree : Tree) :
    (tree.entry world filename).callbacks =
      (tree.paths filename).flatMap (recorded world) := by
  cases tree with
  | file =>
      rw [Tree.entry, Entry.callbacks, Tree.paths, List.flatMap_singleton]
      rfl
  | directory entries =>
      rw [Tree.entry, Entry.callbacks, Tree.paths, callbacks_treeEntries]

theorem callbacks_treeEntries (filename : String) (entries : List (String × Tree)) :
    entriesCallbacks (treeEntries world filename entries) =
      (entriesPaths filename entries).flatMap (recorded world) := by
  cases entries with
  | nil => rw [treeEntries, entriesCallbacks, entriesPaths, List.flatMap_nil]
  | cons entry rest =>
      obtain ⟨name, tree⟩ := entry
      rw [treeEntries, entriesCallbacks, entriesPaths, List.flatMap_append,
        callbacks_entry, callbacks_treeEntries]

end

/-- Without a discoverer getTags does nothing. With one it returns exactly if the directories
that g_dir_open opens below its path make up a finite tree. It then takes each file of the tree
once, in the order of the directories, and records the tags of the file as a whole: with the
flags as they are, never those of a single stream or of a table of contents. -/
theorem getTags_walks_tree (lists : world.Lists) (inFilePath : String) :
    (∀ depth outImagePath state,
      getTags world false depth inFilePath outImagePath state = some (-1, state)) ∧
    ((∃ depth, ∀ outImagePath state,
        (getTags world true depth inFilePath outImagePath state).isSome = true) ↔
      ∃ tree, Shows world inFilePath tree) ∧
      ∀ tree, Shows world inFilePath tree →
        (tree.paths inFilePath).Nodup ∧
          ∀ depth outImagePath state result,
            getTags world true depth inFilePath outImagePath state = some result →
              result = (0, ((tree.paths inFilePath).flatMap (recorded world)).foldl
                (printTagForeach outImagePath) state) ∧
              result.2 = MediaplayerServer.processFile outImagePath state
                (tree.entry world inFilePath) := by
  refine ⟨fun _ _ _ => rfl, ?_, fun tree found => ⟨paths_nodup lists found, ?_⟩⟩
  · rw [← returns_iff_shows Flags.initial]
    refine exists_congr fun depth => ?_
    simp only [getTags, if_true, Option.isSome_map]
    exact ⟨fun all => all "" (noFiles, fun _ => 0), fun returned _ _ => returned⟩
  · intro depth outImagePath state result returned
    obtain ⟨callbacks, walked, rfl⟩ := Option.map_eq_some_iff.mp returned
    have visited := processFile_shows Flags.initial found depth callbacks walked
    have each : processLeaf world Flags.initial = recorded world :=
      funext (processLeaf_initial world)
    rw [each] at visited
    rw [visited, MediaplayerServer.processFile_eq, callbacks_entry]
    exact ⟨rfl, rfl⟩

end Recorded

/-- A directory with one file. Its video stream has a title of its own. -/
def oneMovie : World where
  uriIsValid uri := uri = "file:///movies/a.avi"
  dirOpen path := if path = "/movies" then some ["a.avi"] else none
  pathIsAbsolute _ := true
  buildFilename path := path
  filenameToUri path := some ("file://" ++ path)
  discoverUri _ :=
    some
      { streamInfo :=
          some (.mk .container none none
            [.mk .video (some [⟨"title", .string ⟨[118], by decide⟩⟩]) none []])
        tags := some [⟨"title", .string ⟨[116], by decide⟩⟩]
        toc := none }

theorem oneMovie_lists : oneMovie.Lists := by
  intro filename entries opened
  unfold oneMovie at opened
  dsimp only at opened
  split at opened
  · cases opened
    decide
  · cases opened

theorem oneMovie_shows : Shows oneMovie "/movies" (.directory [("a.avi", .file)]) := by
  refine .directory "/movies" _ (by decide) (by decide) ?_
  exact List.forall_mem_singleton.mpr (.file _ (Or.inr (by decide)))

theorem oneMovie_walked :
    ∃ depth, getTags oneMovie true depth "/movies" "/tmp/tmp.jpg" (noFiles, fun _ => 0) =
      some (0, printTagForeach "/tmp/tmp.jpg" (noFiles, fun _ => 0)
        ⟨"title", .string ⟨[116], by decide⟩⟩) := by
  obtain ⟨-, returns, walks⟩ := getTags_walks_tree oneMovie oneMovie_lists "/movies"
  obtain ⟨depth, enough⟩ := returns.mpr ⟨_, oneMovie_shows⟩
  obtain ⟨result, returned⟩ :=
    Option.isSome_iff_exists.mp (enough "/tmp/tmp.jpg" (noFiles, fun _ => 0))
  obtain ⟨-, each⟩ := walks _ oneMovie_shows
  refine ⟨depth, ?_⟩
  rw [returned, (each depth _ _ result returned).1]
  have path : (Tree.directory [("a.avi", .file)]).paths "/movies" = ["/movies/a.avi"] := by
    simp only [Tree.paths, entriesPaths]
    rfl
  rw [path, List.flatMap_singleton]
  rfl

end MediaplayerServer.Walk
