import MediaplayerServer.ConfigurationProperties
import MediaplayerServer.ConfigurationTermination

set_option autoImplicit false

namespace MediaplayerServer.Configuration

open Relation
open Unrolling

def GstElement.name : GstElement → String
  | .mk name _ => name

def GstElement.assigned : GstElement → List (String × GValue GstElement)
  | .mk _ assigned => assigned

/-- Some property of `parent` was assigned the element `child`. -/
def Child (parent child : GstElement) : Prop :=
  ∃ property, (property, GValue.element (some child)) ∈ parent.assigned

/-- Every element that is reached from the root can be created. -/
def Creatable (platform : Platform) (reader : INIReader) (root : String) : Prop :=
  ∀ name, ReflTransGen (Refers platform reader) root name → platform.creates name = true

/-- GObject does not let a property's name contain a `=`. -/
def Platform.WellNamed (platform : Platform) : Prop :=
  ∀ name property type, platform.registered name property = some type →
    '=' ∉ property.toList

/-- setup, called on the node's name alone, makes this node and all it holds. -/
def Built (platform : Platform) (reader : INIReader) (node : GstElement) : Prop :=
  ∃ depth, setup platform reader depth node.name = some (some node, true)

/-- The value of an element-valued property: a child that its own section made. -/
def OwnChild (platform : Platform) (reader : INIReader) (text : String)
    (made : Option GstElement) : Prop :=
  ∃ child, made = some child ∧ child.name = text ∧ Built platform reader child

/-- The node's properties are assigned as its section of the file says, each once. -/
structure Configured (platform : Platform) (file : List INIEntry) (node : GstElement) : Prop where
  once : (node.assigned.map Prod.fst).Nodup
  exactly : ∀ property, (∃ value, (property, value) ∈ node.assigned) ↔
    HasKey file node.name property ∧
      ∃ type, platform.registered node.name property = some type ∧ type.settable = true
  converted : ∀ property value, (property, value) ∈ node.assigned →
    ∃ type, platform.registered node.name property = some type ∧
      Converted platform (INIReader.parse file) (OwnChild platform (INIReader.parse file))
        node.name property type value

section Nodes

variable {platform : Platform} {reader : INIReader}

theorem setup_spec (parsed : reader.parseError = 0) (depth : Nat) (name : String) (made : Made)
    (returned : setup platform reader depth name = some made) :
    platform.creates name = false ∧ made = (none, false) ∨
      platform.creates name = true ∧ ∃ shallower assigned,
        setEntries platform reader (setup platform reader shallower) name
            (getElementPropertyInfo platform name) = some assigned ∧
          made = (some (.mk name assigned), true) := by
  cases depth with
  | zero => cases returned
  | succ depth =>
      have body := setupBody_spec platform reader parsed (setup platform reader depth) name made
        returned
      exact body.imp_right fun ⟨creates, facts⟩ => ⟨creates, depth, facts⟩

theorem setup_built (parsed : reader.parseError = 0) (depth : Nat) (name : String) (made : Made)
    (returned : setup platform reader depth name = some made)
    (creates : platform.creates name = true) :
    ∃ node, made = (some node, true) ∧ node.name = name ∧ Built platform reader node := by
  rcases setup_spec parsed depth name made returned with
    ⟨fails, -⟩ | ⟨-, _, assigned, -, rfl⟩
  · rw [creates] at fails
    cases fails
  · exact ⟨.mk name assigned, rfl, rfl, depth, returned⟩

/-- A node was created, and its assignments are those of the loop of setProperty. -/
theorem Built.entries (parsed : reader.parseError = 0) {node : GstElement}
    (built : Built platform reader node) :
    platform.creates node.name = true ∧ ∃ depth,
      setEntries platform reader (setup platform reader depth) node.name
        (getElementPropertyInfo platform node.name) = some node.assigned := by
  obtain ⟨depth, returned⟩ := built
  rcases setup_spec parsed depth node.name _ returned with
    ⟨-, nothing⟩ | ⟨creates, shallower, assigned, looped, same⟩
  · cases nothing
  · rw [Prod.mk.injEq, Option.some.injEq] at same
    refine ⟨creates, shallower, ?_⟩
    rw [looped, same.1]
    rfl

/-- An assigned property is registered, has a value and a settable type. -/
theorem Built.assigned_spec (parsed : reader.parseError = 0) {node : GstElement}
    (built : Built platform reader node) (property : String) (value : GValue GstElement)
    (member : (property, value) ∈ node.assigned) :
    ∃ type depth, platform.registered node.name property = some type ∧
      (reader.hasValue node.name property = true ∧ type.settable = true) ∧
      Converted platform reader (Returned (setup platform reader depth)) node.name property
        type value := by
  obtain ⟨-, depth, looped⟩ := built.entries parsed
  obtain ⟨-, sound, -⟩ := setEntries_spec _ _ _ _ _ _ looped
  obtain ⟨type, inside, taken, converted⟩ := sound property value member
  exact ⟨type, depth, (mem_properties_iff _ _ _ _).mp inside, taken, converted⟩

theorem refers_of_registered (parsed : reader.parseError = 0) (name property : String)
    (creates : platform.creates name = true)
    (registered : platform.registered name property = some (.named "GstElement"))
    (present : reader.hasValue name property = true) :
    Refers platform reader name (reader.getString name property "") :=
  ⟨creates, parsed, property, (mem_properties_iff _ _ _ _).mpr registered, present, rfl⟩

theorem Built.child (parsed : reader.parseError = 0) {node child : GstElement}
    (built : Built platform reader node) (own : Child node child) :
    Built platform reader child ∧ Refers platform reader node.name child.name := by
  obtain ⟨property, member⟩ := own
  obtain ⟨type, depth, registered, ⟨present, -⟩, converted⟩ :=
    built.assigned_spec parsed property _ member
  cases converted with
  | element made called =>
      obtain ⟨result, returned⟩ := called
      rcases setup_spec parsed depth _ _ returned with
        ⟨-, nothing⟩ | ⟨-, _, assigned, -, same⟩
      · cases nothing
      · rw [Prod.mk.injEq, Option.some.injEq] at same
        obtain ⟨rfl, rfl⟩ := same
        have refers :=
          refers_of_registered parsed node.name property (built.entries parsed).1 registered present
        exact ⟨⟨depth, returned⟩, refers⟩

/-- Every node of the tree was made by its own section, which the root's leads to. -/
theorem Built.node (parsed : reader.parseError = 0) {tree node : GstElement}
    (built : Built platform reader tree) (path : ReflTransGen Child tree node) :
    Built platform reader node ∧ ReflTransGen (Refers platform reader) tree.name node.name := by
  induction path with
  | refl => exact ⟨built, .refl⟩
  | tail _ own ih =>
      obtain ⟨made, refers⟩ := ih.1.child parsed own
      exact ⟨made, ih.2.tail refers⟩

end Nodes

theorem Built.configured {platform : Platform} {file : List INIEntry} {node : GstElement}
    (named : platform.WellNamed) (built : Built platform (INIReader.parse file) node)
    (creatable : ∀ other, Refers platform (INIReader.parse file) node.name other →
      platform.creates other = true) : Configured platform file node := by
  have parsed : (INIReader.parse file).parseError = 0 := rfl
  obtain ⟨creates, depth, looped⟩ := built.entries parsed
  obtain ⟨ordered, -, complete⟩ := setEntries_spec _ _ _ _ _ _ looped
  constructor
  · refine ordered.nodup (List.pairwise_map.mpr ?_)
    exact (sorted_properties platform node.name).imp fun before => ne_of_lt before
  · intro property
    constructor
    · rintro ⟨value, member⟩
      obtain ⟨type, _, registered, ⟨present, settable⟩, -⟩ :=
        built.assigned_spec parsed property value member
      have free := named node.name property type registered
      exact ⟨(hasValue_parse_iff file _ _ free).mp present, type, registered, settable⟩
    · rintro ⟨key, type, registered, settable⟩
      have free := named node.name property type registered
      have present := (hasValue_parse_iff file _ _ free).mpr key
      exact complete property type ((mem_properties_iff _ _ _ _).mpr registered)
        ⟨present, settable⟩
  · intro property value member
    obtain ⟨type, depth, registered, ⟨present, -⟩, converted⟩ :=
      built.assigned_spec parsed property value member
    refine ⟨type, registered, converted.imp fun made element returned => ?_⟩
    subst element
    obtain ⟨result, returned⟩ := returned
    have refers := refers_of_registered parsed node.name property creates registered present
    obtain ⟨child, same, own, alone⟩ :=
      setup_built parsed depth _ _ returned (creatable _ refers)
    exact ⟨child, (Prod.mk.inj same).1, own, alone⟩

theorem wellNamed_of_factories (platform : Platform)
    (free : ∀ factory ∈ platform.factories, ∀ param ∈ factory.2, '=' ∉ param.1.toList) :
    platform.WellNamed := by
  intro name property type registered
  obtain ⟨specs, found, typed⟩ := Option.bind_eq_some_iff.mp registered
  obtain ⟨_, _, split, -⟩ := List.lookup_eq_some_iff.mp found
  obtain ⟨_, _, split', -⟩ := List.lookup_eq_some_iff.mp typed
  exact free (name, specs) (by rw [split]; simp) (property, type) (by rw [split']; simp)

theorem creatable_of_targets (platform : Platform) (reader : INIReader) (root : String)
    (own : platform.creates root = true)
    (others : ∀ other ∈ targets platform reader, platform.creates other = true) :
    Creatable platform reader root := by
  intro name path
  rcases ReflTransGen.cases_tail path with rfl | ⟨last, -, refers⟩
  · exact own
  · exact others name (refers_mem_targets platform reader last name refers)

/-- A file whose section PlayBin says Video-Sink=ximagesink. -/
def windowed : List INIEntry := [⟨"PlayBin", "Video-Sink", "ximagesink", by decide⟩]

/-- setup reports true only if every element the file leads to was created. -/
def ReportsFailures (platform : Platform) (reader : INIReader) (root : String) (made : Made) :
    Prop :=
  made.2 = true → Creatable platform reader root

/-- No property that names an element which cannot be created is assigned anything. -/
def KeepsValues (platform : Platform) (reader : INIReader) (made : Made) : Prop :=
  ∀ tree, made.1 = some tree → ∀ node, ReflTransGen Child tree node →
    ∀ property, platform.registered node.name property = some (.named "GstElement") →
      reader.hasValue node.name property = true →
        platform.creates (reader.getString node.name property "") = false →
          ∀ value, (property, value) ∉ node.assigned

/-- A file whose section playbin names a sink that is not installed. -/
def sinkMissing : List INIEntry := [⟨"playbin", "video-sink", "v4l2sink", by decide⟩]

/-- The sink that was not created is assigned as a null pointer, and setup still reports
true. -/
theorem missing_sink_assigned :
    Acyclic desktop (INIReader.parse sinkMissing) "playbin" ∧
      ∃ made, setup desktop (INIReader.parse sinkMissing) 2 "playbin" = some made ∧
        ¬ReportsFailures desktop (INIReader.parse sinkMissing) "playbin" made ∧
        ¬KeepsValues desktop (INIReader.parse sinkMissing) made := by
  have returned : setup desktop (INIReader.parse sinkMissing) 2 "playbin" =
      some (some (.mk "playbin" [("video-sink", .element none)]), true) := rfl
  have refers : Refers desktop (INIReader.parse sinkMissing) "playbin" "v4l2sink" :=
    ⟨by decide, rfl, "video-sink", by decide, by decide, by decide⟩
  refine ⟨(returns_iff_acyclic _ _ _).mp ⟨2, by rw [returned]; rfl⟩, _, returned, ?_, ?_⟩
  · intro reports
    have created := reports rfl "v4l2sink" (ReflTransGen.single refers)
    exact absurd created (by decide)
  · intro keeps
    refine keeps _ rfl _ ReflTransGen.refl "video-sink" (by decide) (by decide) (by decide)
      (.element none) ?_
    exact List.mem_cons_self

/-- For every file without cycles, failures are reported and contained exactly if the
root itself cannot be created or nothing fails at all. -/
theorem failures_contained_iff (platform : Platform) (reader : INIReader) (root : String)
    (parsed : reader.parseError = 0) (acyclic : Acyclic platform reader root) :
    (∃ depth, (setup platform reader depth root).isSome = true) ∧
      ∀ depth made, setup platform reader depth root = some made →
        (ReportsFailures platform reader root made ∧ KeepsValues platform reader made ↔
          platform.creates root = false ∨ Creatable platform reader root) := by
  refine ⟨(returns_iff_acyclic platform reader root).mpr acyclic, fun depth made returned => ?_⟩
  by_cases creates : platform.creates root = true
  · obtain ⟨tree, rfl, rfl, built⟩ := setup_built parsed depth root made returned creates
    constructor
    · rintro ⟨reports, -⟩
      exact Or.inr (reports rfl)
    · intro either
      have creatable := either.resolve_left (by rw [creates]; nofun)
      refine ⟨fun _ => creatable, ?_⟩
      rintro _ ⟨⟩ node path property registered present fails
      obtain ⟨own, reached⟩ := built.node parsed path
      have refers := refers_of_registered parsed node.name property
        (creatable node.name reached) registered present
      rw [creatable _ (reached.tail refers)] at fails
      cases fails
  · rw [Bool.not_eq_true] at creates
    rcases setup_spec parsed depth root made returned with ⟨-, rfl⟩ | ⟨created, -⟩
    · exact iff_of_true ⟨nofun, nofun⟩ (Or.inl creates)
    · rw [creates] at created
      cases created

theorem windowed_failures_contained :
    ∃ made, setup desktop (INIReader.parse windowed) 2 "playbin" = some made ∧
      ReportsFailures desktop (INIReader.parse windowed) "playbin" made ∧
      KeepsValues desktop (INIReader.parse windowed) made := by
  have acyclic := (returns_iff_acyclic desktop (INIReader.parse windowed) "playbin").mp
    ⟨2, by decide⟩
  obtain ⟨-, contained⟩ :=
    failures_contained_iff desktop (INIReader.parse windowed) "playbin" rfl acyclic
  refine ⟨_, rfl, (contained 2 _ rfl).mpr (Or.inr ?_)⟩
  exact creatable_of_targets desktop _ "playbin" (by decide) (by decide)

end MediaplayerServer.Configuration
