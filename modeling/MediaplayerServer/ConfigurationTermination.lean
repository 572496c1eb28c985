import MediaplayerServer.Configuration

set_option autoImplicit false

namespace MediaplayerServer.Configuration

open Relation
open Unrolling

/-- setValue recurs for an element-valued property only, and then once. -/
theorem setValue_returns_iff (platform : Platform) (reader : INIReader)
    (setup : String → Option Made) (name property : String) (type : GType) :
    (setValue platform reader setup name property type).isSome = true ↔
      (type = .named "GstElement" →
        (setup (reader.getString name property "")).isSome = true) := by
  cases type with
  | named typeName =>
      by_cases element : typeName = "GstElement"
      · simp only [setValue, element, ↓reduceIte, Option.isSome_map, forall_const]
      · simp only [setValue, element, ↓reduceIte, GType.named.injEq, IsEmpty.forall_iff, iff_true]
        split <;> rfl
  | _ => exact iff_of_true rfl nofun

theorem setEntries_returns_iff (platform : Platform) (reader : INIReader)
    (setup : String → Option Made) (name : String) (entries : List (String × GType)) :
    (setEntries platform reader setup name entries).isSome = true ↔
      ∀ property, (property, GType.named "GstElement") ∈ entries →
        reader.hasValue name property = true →
          (setup (reader.getString name property "")).isSome = true := by
  induction entries with
  | nil => exact iff_of_true rfl nofun
  | cons entry rest ih =>
      obtain ⟨property, type⟩ := entry
      by_cases present : reader.hasValue name property = true
      · have first := setValue_returns_iff platform reader setup name property type
        rw [setEntries, if_pos present]
        cases set : setValue platform reader setup name property type with
        | none =>
            rw [set, Option.isSome_none] at first
            simp only [Option.bind_none, Option.isSome_none, Bool.false_eq_true, false_iff]
            intro all
            refine absurd (first.mpr fun element => ?_) Bool.false_ne_true
            exact all property (by rw [← element]; exact List.mem_cons_self) present
        | some assigned =>
            rw [set, Option.isSome_some] at first
            rw [Option.bind_some, Option.isSome_map, ih]
            constructor
            · intro others candidate member given
              rcases List.mem_cons.mp member with same | member
              · obtain ⟨rfl, element⟩ := Prod.mk.inj same
                exact first.mp rfl element.symm
              · exact others candidate member given
            · intro all candidate member given
              exact all candidate (List.mem_cons_of_mem _ member) given
      · rw [setEntries, if_neg present, ih]
        constructor
        · intro others candidate member given
          rcases List.mem_cons.mp member with same | member
          · rw [(Prod.mk.inj same).1] at given
            exact absurd given present
          · exact others candidate member given
        · intro all candidate member given
          exact all candidate (List.mem_cons_of_mem _ member) given

theorem setProperty_returns_iff (platform : Platform) (reader : INIReader)
    (setup : String → Option Made) (name : String) (entries : List (String × GType)) :
    (setProperty platform reader setup name entries).isSome = true ↔
      ∀ property, (property, GType.named "GstElement") ∈ entries →
        reader.hasValue name property = true →
          (setup (reader.getString name property "")).isSome = true := by
  cases entries with
  | nil => exact iff_of_true rfl nofun
  | cons entry rest =>
      simp only [setProperty, List.isEmpty_cons, Bool.false_eq_true, ↓reduceIte,
        Option.isSome_map]
      exact setEntries_returns_iff platform reader setup name (entry :: rest)

/-- The references of the configuration are exactly the recursive calls of setup. -/
theorem setupBody_exact (platform : Platform) (reader : INIReader) :
    Exact (setupBody platform reader) (Refers platform reader) := by
  intro recur name
  unfold setupBody
  by_cases creates : platform.creates name = true
  · rw [if_pos creates]
    by_cases parsed : reader.parseError = 0
    · rw [if_pos parsed, Option.isSome_map, setProperty_returns_iff]
      constructor
      · rintro all other ⟨-, -, property, member, given, rfl⟩
        exact all property member given
      · intro all property member given
        exact all _ ⟨creates, parsed, property, member, given, rfl⟩
    · rw [if_neg parsed]
      exact iff_of_true rfl fun other refers => absurd refers.2.1 parsed
  · rw [if_neg creates]
    exact iff_of_true rfl fun other refers => absurd refers.1 creates

/-- All the texts that any registered element's properties have in the file. -/
def targets (platform : Platform) (reader : INIReader) : List String :=
  platform.factories.flatMap fun factory =>
    (getElementPropertyInfo platform factory.1).map fun entry =>
      reader.getString factory.1 entry.1 ""

theorem mem_factories_of_lookup {α β : Type} [BEq α] [LawfulBEq α] (entries : List (α × β))
    (key : α) (found : (entries.lookup key).isSome = true) :
    ∃ value, (key, value) ∈ entries := by
  obtain ⟨value, same⟩ := Option.isSome_iff_exists.mp found
  obtain ⟨before, after, split, -⟩ := List.lookup_eq_some_iff.mp same
  exact ⟨value, by rw [split]; simp⟩

theorem refers_mem_targets (platform : Platform) (reader : INIReader) (name other : String)
    (refers : Refers platform reader name other) : other ∈ targets platform reader := by
  obtain ⟨creates, -, property, member, -, rfl⟩ := refers
  rw [Platform.creates, Bool.and_eq_true] at creates
  obtain ⟨specs, registered⟩ := mem_factories_of_lookup platform.factories name creates.1
  exact List.mem_flatMap.mpr ⟨_, registered, List.mem_map.mpr ⟨_, member, rfl⟩⟩

theorem refers_finite (platform : Platform) (reader : INIReader) (name : String) :
    {other | Refers platform reader name other}.Finite :=
  (targets platform reader).finite_toSet.subset fun other refers =>
    refers_mem_targets platform reader name other refers

theorem reached_finite (platform : Platform) (reader : INIReader) (name : String) :
    {other | ReflTransGen (Refers platform reader) name other}.Finite := by
  refine (List.finite_toSet (name :: targets platform reader)).subset fun other path => ?_
  rcases ReflTransGen.cases_tail path with rfl | ⟨last, -, refers⟩
  · exact List.mem_cons_self
  · exact List.mem_cons_of_mem _ (refers_mem_targets platform reader last other refers)

/-- No section that is reached from the root refers back to itself, directly or not. -/
def Acyclic (platform : Platform) (reader : INIReader) (root : String) : Prop :=
  ¬∃ name, ReflTransGen (Refers platform reader) root name ∧
    TransGen (Refers platform reader) name name

theorem returns_iff_acyclic (platform : Platform) (reader : INIReader) (root : String) :
    (∃ depth, (setup platform reader depth root).isSome = true) ↔
      Acyclic platform reader root := by
  have exact := setupBody_exact platform reader
  rw [Acyclic, ← acc_iff_no_cycle root (reached_finite platform reader root)]
  exact returns_iff_acc exact (refers_finite platform reader) root

/-- playbin with its element-valued property video-sink. -/
def desktop : Platform where
  factories := [("playbin", [("video-sink", .named "GstElement")]), ("ximagesink", [])]
  fails := fun _ => false
  strtod := fun _ => none

/-- A file whose section playbin says video-sink=playbin. -/
def selfReferring : INIReader where
  error := 0
  values := [("playbin=video-sink", "playbin")]

theorem self_reference_never_returns :
    ¬∃ depth, (setup desktop selfReferring depth "playbin").isSome = true := by
  intro returns
  have refers : Refers desktop selfReferring "playbin" "playbin" :=
    ⟨by decide, rfl, "video-sink", by decide, by decide, by decide⟩
  have reaches := acc_of_returns (setupBody_exact desktop selfReferring) "playbin" returns
  exact no_cycle_of_acc reaches (TransGen.single refers)

/-- For every set of factories and every file, setting up playbin returns exactly if no
section that is reached from playbin refers back to itself, directly or not. -/
theorem setup_returns_iff (platform : Platform) (reader : INIReader) :
    (∃ depth, (setup platform reader depth "playbin").isSome = true) ↔
      ¬∃ name, ReflTransGen (Refers platform reader) "playbin" name ∧
        TransGen (Refers platform reader) name name :=
  returns_iff_acyclic platform reader "playbin"

/-- A chain of sections that ends returns with its elements nested. -/
example : setup desktop ⟨0, [("playbin=video-sink", "ximagesink")]⟩ 2 "playbin" =
    some (some (.mk "playbin" [("video-sink", .element (some (.mk "ximagesink" [])))]), true) := by
  rfl

end MediaplayerServer.Configuration
