import Mathlib.Data.Char
import MediaplayerServer.INIFile
import MediaplayerServer.INIDocument
import MediaplayerServer.OrderedKeys

set_option autoImplicit false

namespace MediaplayerServer

open INI

namespace INIReader

/-- ValueHandler on the C strings that the parser hands over. It accepts every pair. -/
def valueHandler : Handler (List (String × String)) := fun values sectionName name value =>
  let key := makeKey (String.ofList sectionName) (String.ofList name)
  let before := (values.lookup key).getD ""
  ((key, (if before = "" then "" else before ++ "\n") ++ String.ofList value) :: values, true)

/-- The constructor from a filename; `file` is `none` if that cannot be opened. -/
def ofFile (file : Option (List Char)) : INIReader :=
  let parsed := iniParse valueHandler file []
  { error := parsed.2, values := parsed.1 }

/-- The constructor from a buffer. -/
def ofBuffer (buffer : List Char) : INIReader :=
  let parsed := iniParseString valueHandler buffer []
  { error := parsed.2, values := parsed.1 }

/-- The key at lower_bound, if there is one, starts with the section. -/
def hasSection (reader : INIReader) (sectionName : String) : Bool :=
  let key := (makeKey sectionName "").toList
  match OrderedKeys.lowerBound key (reader.values.map fun entry => entry.1.toList) with
  | none => false
  | some pos => key.isPrefixOf pos

end INIReader

/-- What is reported of the same lines is the same. -/
theorem INI.Reports.unique {υ : Type} {handler : Handler υ} {user : υ} {lines : List Reading}
    {lineno error other : Nat} (reports : Reports handler user lines lineno error)
    (others : Reports handler user lines lineno other) : error = other := by
  rcases reports with ⟨rfl, all⟩ | ⟨index, rfl, fails, earlier⟩
  · rcases others with ⟨rfl, -⟩ | ⟨index, -, fails, -⟩
    · rfl
    · exact absurd fails (all index)
  · rcases others with ⟨-, all⟩ | ⟨index', rfl, fails', earlier'⟩
    · exact absurd fails (all index)
    · rcases Nat.lt_trichotomy index index' with less | rfl | more
      · exact absurd fails (earlier' index less)
      · rfl
      · exact absurd fails' (earlier index' more)

/-- The pairs of a file. -/
def filePairs (file : List Char) : List Call := calls true Context.initial (fileLines file)

theorem classifyText_free (text name value : List Char)
    (said : classifyText text = .pair name value) : '=' ∉ name := by
  cases text with
  | nil => cases said
  | cons first rest =>
      by_cases bracket : first = '['
      · subst bracket
        rw [classifyText_heading] at said
        split at said <;> cases said
      · rw [classifyText_pair first rest bracket] at said
        have free := (found_free ['=', ':'] false (first :: rest)).1
        split at said
        · cases said
        · split at said
          · cases said
            exact fun member => free '=' (mem_rstrip member) (by decide)
          · cases said

theorem classify_free (first continues : Bool) (text name value : List Char)
    (said : classify first continues text = .pair name value) : '=' ∉ name := by
  unfold classify at said
  generalize (first && bom.isPrefixOf text) = marked at said
  dsimp only at said
  generalize rstrip (if marked = true then text.drop bom.length else text) = start at said
  unfold classifyStart at said
  dsimp only at said
  split at said
  · cases said
  · split at said
    · cases said
    · split at said
      · cases said
      · exact classifyText_free _ _ _ said

/-- A name ends at the first `=` of its line, and so does what is kept of it for the lines
that continue its value. -/
theorem calls_free (first : Bool) (context : Context) (texts : List (List Char))
    (free : '=' ∉ context.prevName) :
    ∀ pair ∈ calls first context texts, '=' ∉ pair.name := by
  induction texts generalizing first context with
  | nil => nofun
  | cons text rest ih =>
      let line := classify first (decide (context.prevName ≠ [])) text
      have split : calls first context (text :: rest) =
          (Reading.call ⟨context, line⟩).toList ++ calls false (context.next line) rest :=
        filterMap_call_cons _ _
      have named : ∀ name value, line = .pair name value → '=' ∉ name := classify_free _ _ _
      have kept : '=' ∉ (context.next line).prevName := by
        cases said : line with
        | pair name value =>
            exact fun member => named name value said (List.mem_of_mem_take member)
        | heading name => exact List.not_mem_nil
        | _ => exact free
      intro pair member
      rw [split] at member
      rcases List.mem_append.mp member with here | later
      · cases said : line with
        | pair name value =>
            rw [said] at here
            rw [List.mem_singleton.mp here]
            exact named name value said
        | continuation value =>
            rw [said] at here
            rw [List.mem_singleton.mp here]
            exact free
        | _ =>
            rw [said] at here
            cases here
      · exact ih false (context.next line) kept pair later

/-- The call of ValueHandler for a pair. -/
def entryOf (pair : Call) (free : '=' ∉ pair.name) : INIEntry where
  sectionName := String.ofList pair.sectionName
  name := String.ofList pair.name
  value := String.ofList pair.value
  nameEnds := by rwa [String.toList_ofList]

def fileEntries (file : List Char) : List INIEntry :=
  (filePairs file).pmap entryOf (calls_free true Context.initial (fileLines file) nofun)

theorem feed_valueHandler (values : List (String × String)) (pairs : List Call)
    (free : ∀ pair ∈ pairs, '=' ∉ pair.name) :
    feed INIReader.valueHandler values pairs =
      (pairs.pmap entryOf free).foldl valueHandler values := by
  induction pairs generalizing values with
  | nil => rfl
  | cons pair rest ih =>
      rw [List.pmap_cons, List.foldl_cons, ← ih]
      rfl

/-- Where a file's first malformed line is, counted from one; zero if there is none. A line that
does not fit into the buffer counts as often as fgets cuts it. -/
def malformedAt (file : List Char) : Nat :=
  match (readings true Context.initial (fileLines file)).findIdx?
      fun reading => decide (reading.line = .malformed) with
  | none => 0
  | some index => index + 1

theorem fails_valueHandler (values : List (String × String)) (reading : Reading) :
    reading.Fails INIReader.valueHandler values ↔ reading.line = .malformed := by
  constructor
  · rintro (malformed | ⟨pair, -, refused⟩)
    · exact malformed
    · cases refused
  · exact Or.inl

theorem failsAt_valueHandler (values : List (String × String)) (lines : List Reading)
    (index : Nat) :
    FailsAt INIReader.valueHandler values lines index ↔
      ∃ reading, lines[index]? = some reading ∧ reading.line = .malformed := by
  unfold FailsAt
  simp only [fails_valueHandler]

theorem reports_malformedAt (file : List Char) (values : List (String × String)) :
    Reports INIReader.valueHandler values (readings true Context.initial (fileLines file)) 0
      (malformedAt file) := by
  unfold malformedAt Reports
  simp only [failsAt_valueHandler]
  generalize readings true Context.initial (fileLines file) = lines
  cases found : lines.findIdx? fun reading => decide (reading.line = .malformed) with
  | none =>
      refine Or.inl ⟨rfl, ?_⟩
      rintro index ⟨reading, given, malformed⟩
      have formed := List.findIdx?_eq_none_iff.mp found reading (List.mem_of_getElem? given)
      exact of_decide_eq_false formed malformed
  | some index =>
      obtain ⟨inside, malformed, before⟩ := List.findIdx?_eq_some_iff_getElem.mp found
      refine Or.inr ⟨index, by rw [Nat.zero_add], ⟨_, List.getElem?_eq_getElem inside,
        of_decide_eq_true malformed⟩, ?_⟩
      rintro earlier less ⟨reading, given, wrong⟩
      obtain ⟨_, rfl⟩ := List.getElem?_eq_some_iff.mp given
      exact before earlier less (decide_eq_true wrong)

/-- The reader holds what ValueHandler makes of the file's pairs, and reports the first
malformed line. -/
theorem ofFile_eq (file : List Char) :
    INIReader.ofFile (some file) =
      ⟨malformedAt file, (fileEntries file).foldl valueHandler []⟩ := by
  obtain ⟨fed, error, returned, reports⟩ := iniParseFile_reads INIReader.valueHandler file []
  have same := reports.unique (reports_malformedAt file [])
  have values : (iniParseFile INIReader.valueHandler file []).1 =
      (fileEntries file).foldl valueHandler [] := by
    rw [fed]
    exact feed_valueHandler [] (filePairs file) _
  rw [INIReader.ofFile, iniParse, INIReader.mk.injEq]
  exact ⟨by rw [returned, same], values⟩

/-- A buffer is read up to its first NUL, as a file with that content would be. -/
theorem INIReader.ofBuffer_eq (buffer : List Char) :
    INIReader.ofBuffer buffer = INIReader.ofFile (some (cString buffer)) := by
  rw [INIReader.ofBuffer, iniParseString_eq]
  rfl

/-- Texts below each other, without empty ones on top. -/
def joined (texts : List String) : String :=
  "\n".intercalate (texts.dropWhile fun text => decide (text = ""))

theorem intercalate_ne_empty (texts : List String) (first : String) (some : first ≠ "") :
    "\n".intercalate (first :: texts) ≠ "" := by
  cases texts with
  | nil => rwa [String.intercalate_singleton]
  | cons second rest =>
      rw [String.intercalate_cons_cons]
      intro empty
      have chars := congrArg String.toList empty
      rw [String.toList_append, String.toList_append] at chars
      exact some (String.toList_inj.mp (List.append_eq_nil_iff.mp
        (List.append_eq_nil_iff.mp chars).1).1)

/-- ValueHandler puts each text below the ones before it. -/
theorem joined_concat (texts : List String) (text : String) :
    joined (texts ++ [text]) =
      (if joined texts = "" then "" else joined texts ++ "\n") ++ text := by
  unfold joined
  rw [List.dropWhile_append]
  cases kept : texts.dropWhile fun text => decide (text = "") with
  | nil =>
      rw [List.isEmpty_nil, if_pos rfl, String.intercalate_nil, if_pos rfl, String.empty_append]
      by_cases empty : text = ""
      · subst empty
        rfl
      · rw [List.dropWhile_cons_of_neg (by simpa using empty), String.intercalate_singleton]
  | cons first rest =>
      have filled : first ≠ "" := by
        have stops := List.head?_dropWhile_not (fun text => decide (text = "")) texts
        rw [kept, List.head?_cons] at stops
        exact of_decide_eq_false stops
      rw [List.isEmpty_cons, if_neg Bool.false_ne_true,
        if_neg (intercalate_ne_empty rest first filled),
        String.intercalate_append_of_ne_nil (List.cons_ne_nil _ _) (List.cons_ne_nil _ _),
        String.intercalate_singleton]

/-- The texts that a file gives under a key. -/
def givenFor (file : List INIEntry) (key : String) : List String :=
  (file.filter fun entry => decide (INIReader.makeKey entry.sectionName entry.name = key)).map
    INIEntry.value

theorem givenFor_cons (entry : INIEntry) (rest : List INIEntry) (key : String) :
    givenFor (entry :: rest) key =
      (if INIReader.makeKey entry.sectionName entry.name = key then [entry.value] else []) ++
        givenFor rest key := by
  unfold givenFor
  rw [List.filter_cons]
  by_cases same : INIReader.makeKey entry.sectionName entry.name = key
  · rw [if_pos (decide_eq_true same), if_pos same]
    rfl
  · rw [if_neg (by rw [decide_eq_true_eq]; exact same), if_neg same]
    rfl

theorem givenFor_concat (file : List INIEntry) (entry : INIEntry) (key : String) :
    givenFor (file ++ [entry]) key =
      givenFor file key ++
        if INIReader.makeKey entry.sectionName entry.name = key then [entry.value] else [] := by
  have own := givenFor_cons entry [] key
  have none : givenFor [] key = [] := rfl
  rw [none, List.append_nil] at own
  rw [← own, givenFor, List.filter_append, List.map_append]
  rfl

theorem lookup_foldl_valueHandler (file : List INIEntry) (key : String) :
    (file.foldl valueHandler []).lookup key =
      if givenFor file key = [] then none else some (joined (givenFor file key)) := by
  induction file using List.reverseRecOn with
  | nil => rfl
  | append_singleton file entry ih =>
      rw [List.foldl_concat, valueHandler, List.lookup_cons, givenFor_concat]
      by_cases same : INIReader.makeKey entry.sectionName entry.name = key
      · have before : ((file.foldl valueHandler []).lookup key).getD "" =
            joined (givenFor file key) := by
          rw [ih]
          split
          · rename_i none
            rw [none]
            rfl
          · rfl
        rw [same, before, beq_self_eq_true, if_pos (rfl : key = key), joined_concat,
          if_neg (List.append_ne_nil_of_right_ne_nil _ (List.cons_ne_nil _ _))]
      · rw [beq_false_of_ne (Ne.symm same), if_neg same, List.append_nil, ih]

/-- The texts that some pairs give for a name in a section, without regard to case. -/
def valuesOf (pairs : List Call) (sectionName name : String) : List String :=
  (pairs.filter fun pair =>
    decide (toLower (String.ofList pair.sectionName) = toLower sectionName ∧
      toLower (String.ofList pair.name) = toLower name)).map fun pair => String.ofList pair.value

theorem givenFor_pmap (pairs : List Call) (free : ∀ pair ∈ pairs, '=' ∉ pair.name)
    (sectionName name : String) (plain : '=' ∉ name.toList) :
    givenFor (pairs.pmap entryOf free) (INIReader.makeKey sectionName name) =
      valuesOf pairs sectionName name := by
  induction pairs with
  | nil => rfl
  | cons pair rest ih =>
      have own : '=' ∉ (String.ofList pair.name).toList := by
        rw [String.toList_ofList]
        exact free pair List.mem_cons_self
      have key := makeKey_eq_iff (String.ofList pair.sectionName) sectionName
        (String.ofList pair.name) name own plain
      rw [List.pmap_cons, givenFor_cons, ih, valuesOf, valuesOf, List.filter_cons, entryOf]
      dsimp only
      by_cases same : toLower (String.ofList pair.sectionName) = toLower sectionName ∧
          toLower (String.ofList pair.name) = toLower name
      · rw [if_pos (key.mpr same), if_pos (decide_eq_true same)]
        rfl
      · rw [if_neg (same ∘ key.mp), if_neg (by rw [decide_eq_true_eq]; exact same)]
        rfl

theorem lookup_ofFile (file : List Char) (sectionName name : String) (plain : '=' ∉ name.toList) :
    (INIReader.ofFile (some file)).values.lookup (INIReader.makeKey sectionName name) =
      if valuesOf (filePairs file) sectionName name = [] then none
      else some (joined (valuesOf (filePairs file) sectionName name)) := by
  have given : givenFor (fileEntries file) (INIReader.makeKey sectionName name) =
      valuesOf (filePairs file) sectionName name := givenFor_pmap _ _ sectionName name plain
  rw [ofFile_eq, ← given]
  exact lookup_foldl_valueHandler (fileEntries file) _

theorem get_ofFile (file : List Char) (sectionName name default : String)
    (plain : '=' ∉ name.toList) :
    (INIReader.ofFile (some file)).get sectionName name default =
      if valuesOf (filePairs file) sectionName name = [] then default
      else joined (valuesOf (filePairs file) sectionName name) := by
  rw [INIReader.get, lookup_ofFile file sectionName name plain]
  split <;> rfl

theorem hasValue_ofFile_iff (file : List Char) (sectionName name : String)
    (plain : '=' ∉ name.toList) :
    (INIReader.ofFile (some file)).hasValue sectionName name = true ↔
      valuesOf (filePairs file) sectionName name ≠ [] := by
  rw [INIReader.hasValue, lookup_ofFile file sectionName name plain]
  split
  · rename_i none
    exact iff_of_false Bool.false_ne_true (not_not_intro none)
  · rename_i some
    exact iff_of_true rfl some

/-- For every file, the reader reports its first malformed line, and finds under each name of
each section the texts that the file gives there, below each other. A name with a `=` in it may
find those of another section. -/
theorem ofFile_reads (file : List Char) (sectionName name default : String)
    (plain : '=' ∉ name.toList) :
    (INIReader.ofFile (some file)).parseError = malformedAt file ∧
      ((INIReader.ofFile (some file)).hasValue sectionName name = true ↔
        valuesOf (filePairs file) sectionName name ≠ []) ∧
      (INIReader.ofFile (some file)).get sectionName name default =
        if valuesOf (filePairs file) sectionName name = [] then default
        else joined (valuesOf (filePairs file) sectionName name) :=
  ⟨by rw [ofFile_eq]; rfl, hasValue_ofFile_iff file sectionName name plain,
    get_ofFile file sectionName name default plain⟩

/-- A file that gives two lines for one property, in two spellings of its section. -/
def spelledTwice : List Char := "[PlayBin]\nuri = file:///a ; first\n[playbin]\nURI:b\n".toList

theorem spelledTwice_reads :
    (INIReader.ofFile (some spelledTwice)).parseError = 0 ∧
      (INIReader.ofFile (some spelledTwice)).hasValue "playbin" "uri" = true ∧
      (INIReader.ofFile (some spelledTwice)).get "playbin" "uri" "" = "file:///a\nb" := by
  obtain ⟨reported, has, found⟩ := ofFile_reads spelledTwice "playbin" "uri" "" (by decide)
  have given : valuesOf (filePairs spelledTwice) "playbin" "uri" = ["file:///a", "b"] := by decide
  have formed : malformedAt spelledTwice = 0 := by decide
  rw [given] at has found
  refine ⟨?_, has.mpr (List.cons_ne_nil _ _), found⟩
  rw [reported, formed]
  rfl

theorem malformedAt_document (document : Document) : malformedAt document.text = 0 := by
  refine (reports_malformedAt document.text []).unique ?_
  refine Or.inl ⟨rfl, ?_⟩
  rw [readings_document]
  rintro index fails
  obtain ⟨reading, given, malformed⟩ := (failsAt_valueHandler _ _ _).mp fails
  exact itemReadings_formed _ _ reading (List.mem_of_getElem? given) malformed

theorem filePairs_document (document : Document) : filePairs document.text = document.calls := by
  rw [filePairs, calls, readings_document]
  rfl

/-- Whatever a document's layout, the reader of its text reports no error. Where the names that
the parser keeps have room in its buffers, the reader finds under each name of each section what
the document holds there, below each other. -/
theorem document_round_trip (document : Document) (short : Short ⟨[], []⟩ document.items) :
    (INIReader.ofFile (some document.text)).parseError = 0 ∧
      ∀ sectionName name default, '=' ∉ name.toList →
        (INIReader.ofFile (some document.text)).get sectionName name default =
          if valuesOf document.meant sectionName name = [] then default
          else joined (valuesOf document.meant sectionName name) := by
  refine ⟨by rw [ofFile_eq, malformedAt_document]; rfl, fun sectionName name default plain => ?_⟩
  rw [get_ofFile _ _ _ _ plain, filePairs_document, document.calls_eq short]

/-- A comment, a section, and a value of two lines. -/
def settings : Document where
  marked := false
  items :=
    [.comment .none '#' ['x'] (by decide) (by decide),
      .heading ⟨['s'], by decide, by simp, by decide⟩ [] (by decide),
      .pair ⟨['n'], by decide, by decide, by simp, by decide, by simp [startCommentPrefixes]⟩
        ⟨[' '], by decide, by decide⟩ '=' ⟨[' '], by decide, by decide⟩
        ⟨['v'], by decide, by decide, by decide⟩ .none [] (by decide) (by decide) (by decide)
        (by decide) (by decide),
      .continuation ⟨[' ', ' '], by decide, by decide⟩
        ⟨['w'], by decide, by decide, by decide, by simp [startCommentPrefixes]⟩ .none (by decide)]
  ordered := ⟨nofun, nofun, nofun, fun _ => by decide, trivial⟩
  fits := by simp [Item.text, Spaces.none, iniMaxLine]
  mark := nofun
  unmarked := by simp [Item.text, Spaces.none, bom]

theorem settings_round_trip :
    Short ⟨[], []⟩ settings.items ∧
      (INIReader.ofFile (some settings.text)).parseError = 0 ∧
        ∀ sectionName name default, '=' ∉ name.toList →
          (INIReader.ofFile (some settings.text)).get sectionName name default =
            if valuesOf settings.meant sectionName name = [] then default
            else joined (valuesOf settings.meant sectionName name) :=
  ⟨by decide, document_round_trip settings (by decide)⟩

theorem mem_foldl_valueHandler (file : List INIEntry) (key : String) :
    key ∈ (file.foldl valueHandler []).map Prod.fst ↔
      ∃ entry ∈ file, INIReader.makeKey entry.sectionName entry.name = key := by
  induction file using List.reverseRecOn with
  | nil => simp
  | append_singleton file entry ih =>
      rw [List.foldl_concat, valueHandler, List.map_cons, List.mem_cons, ih]
      simp only [List.mem_append, List.mem_singleton]
      grind

/-- A text up to a separator begins another one that contains it last of all. -/
theorem prefix_separated {α : Type} (separator : α) (start left right : List α)
    (free : separator ∉ right) :
    start ++ [separator] <+: left ++ separator :: right ↔
      left = start ∨ start ++ [separator] <+: left := by
  constructor
  · rintro ⟨rest, same⟩
    rw [List.append_assoc, List.singleton_append] at same
    rcases List.append_eq_append_iff.mp same with ⟨middle, first, second⟩ | ⟨middle, first, second⟩
    · cases middle with
      | nil => exact Or.inl (first.trans (List.append_nil start))
      | cons head middle =>
          obtain rfl := (List.cons.inj second).1
          exact Or.inr ⟨middle, by rw [first, List.append_assoc, List.singleton_append]⟩
    · cases middle with
      | nil => exact Or.inl (by rw [first, List.append_nil])
      | cons head middle =>
          have behind := (List.cons.inj second).2
          exact absurd (by rw [behind]; simp) free
  · rintro (rfl | inside)
    · exact ⟨right, by rw [List.append_assoc, List.singleton_append]⟩
    · exact inside.trans (List.prefix_append _ _)

theorem toList_makeKey (sectionName name : String) :
    (INIReader.makeKey sectionName name).toList =
      (toLower sectionName).toList ++ '=' :: (toLower name).toList := by
  simp only [INIReader.makeKey, toList_toLower, String.toList_append, List.map_append,
    List.append_assoc]
  rfl

theorem mem_keys_ofFile (file : List Char) (key : List Char) :
    key ∈ (INIReader.ofFile (some file)).values.map (fun entry => entry.1.toList) ↔
      ∃ pair ∈ filePairs file, (toLower (String.ofList pair.sectionName)).toList ++
        '=' :: (toLower (String.ofList pair.name)).toList = key := by
  have each := mem_foldl_valueHandler (fileEntries file)
  simp only [List.mem_map] at each ⊢
  rw [ofFile_eq]
  constructor
  · rintro ⟨⟨text, value⟩, member, rfl⟩
    obtain ⟨entry, given, same⟩ := (each text).mp ⟨_, member, rfl⟩
    obtain ⟨pair, inside, rfl⟩ := List.mem_pmap.mp given
    exact ⟨pair, inside, by rw [← same, toList_makeKey]; rfl⟩
  · rintro ⟨pair, inside, rfl⟩
    have free := calls_free true Context.initial (fileLines file) nofun pair inside
    obtain ⟨found, member, same⟩ := (each _).mpr
      ⟨entryOf pair free, List.mem_pmap.mpr ⟨pair, inside, rfl⟩, rfl⟩
    exact ⟨found, member, by rw [same, toList_makeKey]; rfl⟩

theorem hasSection_iff (reader : INIReader) (sectionName : String) :
    reader.hasSection sectionName = true ↔
      ∃ key ∈ reader.values.map (fun entry => entry.1.toList),
        (INIReader.makeKey sectionName "").toList <+: key := by
  rw [← OrderedKeys.prefix_lowerBound_iff, INIReader.hasSection]
  cases OrderedKeys.lowerBound (INIReader.makeKey sectionName "").toList
      (reader.values.map fun entry => entry.1.toList) with
  | none => exact iff_of_false nofun (by rintro ⟨pos, ⟨⟩, -⟩)
  | some pos => simp [List.isPrefixOf_iff_prefix]

/-- For every file, HasSection finds exactly the sections that give a pair, and what comes
before a `=` in the name of one. -/
theorem hasSection_ofFile_iff (file : List Char) (sectionName : String) :
    (INIReader.ofFile (some file)).hasSection sectionName = true ↔
      ∃ pair ∈ filePairs file, toLower (String.ofList pair.sectionName) = toLower sectionName ∨
        (toLower sectionName).toList ++ ['='] <+:
          (toLower (String.ofList pair.sectionName)).toList := by
  have wanted : (INIReader.makeKey sectionName "").toList =
      (toLower sectionName).toList ++ ['='] := toList_makeKey sectionName ""
  rw [hasSection_iff, wanted]
  simp only [mem_keys_ofFile, exists_exists_and_eq_and]
  refine exists_congr fun pair => and_congr_right fun inside => ?_
  have free := calls_free true Context.initial (fileLines file) nofun pair inside
  rw [prefix_separated, String.toList_inj]
  rw [toList_toLower, String.toList_ofList]
  exact equals_notMem_lower _ free

end MediaplayerServer
