import Mathlib.Data.String.Basic
import MediaplayerServer.Configuration
import MediaplayerServer.INIFile

set_option autoImplicit false

namespace MediaplayerServer.Configuration

/-- The type under which a factory registers a property. -/
def Platform.registered (platform : Platform) (name property : String) : Option GType :=
  (platform.factories.lookup name).bind fun specs => specs.lookup property

def Sorted (map : List (String × GType)) : Prop :=
  map.Pairwise fun first second => first.1 < second.1

theorem lookup_none_of_lt (map : List (String × GType)) (name : String)
    (before : ∀ entry ∈ map, name < entry.1) : map.lookup name = none := by
  rw [List.lookup_eq_none_iff]
  intro entry member
  simpa using (ne_of_lt (before entry member))

/-- A name that is there already keeps its type. -/
theorem lookup_insertProperty (name : String) (type : GType) (map : List (String × GType))
    (sorted : Sorted map) (key : String) :
    (insertProperty name type map).lookup key =
      (map.lookup key).or (if key = name then some type else none) := by
  induction map with
  | nil =>
      rw [insertProperty, List.lookup_cons, List.lookup_nil, Option.none_or]
      by_cases same : key = name
      · rw [if_pos same, same, beq_self_eq_true]
      · rw [if_neg same, beq_false_of_ne same]
  | cons first rest ih =>
      obtain ⟨head, headType⟩ := first
      obtain ⟨before, sorted⟩ := List.pairwise_cons.mp sorted
      unfold insertProperty
      split
      · rename_i smaller
        by_cases same : key = name
        · subst same
          have absent : ((head, headType) :: rest).lookup key = none := by
            refine lookup_none_of_lt _ key fun entry member => ?_
            rcases List.mem_cons.mp member with rfl | member
            · exact smaller
            · exact lt_trans smaller (before entry member)
          rw [List.lookup_cons_self, absent, if_pos rfl, Option.none_or]
        · rw [List.lookup_cons, beq_false_of_ne same, if_neg same, Option.or_none]
      · split
        · rename_i same
          subst same
          by_cases own : key = name
          · rw [own, List.lookup_cons_self, Option.some_or]
          · rw [if_neg own, Option.or_none]
        · rw [List.lookup_cons, List.lookup_cons, ih sorted]
          cases key == head <;> rfl

theorem sorted_insertProperty (name : String) (type : GType) (map : List (String × GType))
    (sorted : Sorted map) :
    Sorted (insertProperty name type map) ∧
      ∀ entry ∈ insertProperty name type map, entry ∈ map ∨ entry.1 = name := by
  induction map with
  | nil => exact ⟨List.pairwise_singleton _ _, by simp [insertProperty]⟩
  | cons first rest ih =>
      obtain ⟨before, sorted'⟩ := List.pairwise_cons.mp sorted
      obtain ⟨after, members⟩ := ih sorted'
      unfold insertProperty
      split
      · rename_i smaller
        refine ⟨List.pairwise_cons.mpr ⟨fun other member => ?_, sorted⟩, fun entry member => ?_⟩
        · rcases List.mem_cons.mp member with rfl | member
          · exact smaller
          · exact lt_trans smaller (before other member)
        · rcases List.mem_cons.mp member with rfl | member
          · exact Or.inr rfl
          · exact Or.inl member
      · split
        · exact ⟨sorted, fun entry member => Or.inl member⟩
        · rename_i larger differ
          refine ⟨List.pairwise_cons.mpr ⟨fun other member => ?_, after⟩, fun entry member => ?_⟩
          · rcases members other member with member | same
            · exact before other member
            · rw [same]
              exact lt_of_le_of_ne (not_lt.mp larger) (Ne.symm differ)
          · rcases List.mem_cons.mp member with rfl | member
            · exact Or.inl List.mem_cons_self
            · exact (members entry member).imp_left (List.mem_cons_of_mem _)

theorem insertProperties (specs map : List (String × GType)) (sorted : Sorted map) :
    Sorted (specs.foldl (fun map param => insertProperty param.1 param.2 map) map) ∧
      ∀ key, (specs.foldl (fun map param => insertProperty param.1 param.2 map) map).lookup key =
        (map.lookup key).or (specs.lookup key) := by
  induction specs generalizing map with
  | nil => exact ⟨sorted, fun key => by rw [List.foldl_nil, List.lookup_nil, Option.or_none]⟩
  | cons param rest ih =>
      obtain ⟨after, lookups⟩ := ih _ (sorted_insertProperty param.1 param.2 map sorted).1
      refine ⟨after, fun key => ?_⟩
      rw [List.foldl_cons, lookups, lookup_insertProperty _ _ _ sorted, Option.or_assoc,
        List.lookup_cons]
      by_cases same : key = param.1
      · rw [if_pos same, same, beq_self_eq_true, Option.some_or]
      · rw [if_neg same, beq_false_of_ne same, Option.none_or]

theorem sorted_properties (platform : Platform) (name : String) :
    Sorted (getElementPropertyInfo platform name) := by
  unfold getElementPropertyInfo
  split
  · exact List.Pairwise.nil
  · exact (insertProperties _ [] List.Pairwise.nil).1

theorem lookup_properties (platform : Platform) (name property : String) :
    (getElementPropertyInfo platform name).lookup property =
      platform.registered name property := by
  unfold getElementPropertyInfo Platform.registered
  split
  · rename_i absent
    rw [absent]
    rfl
  · rename_i specs found
    rw [found, (insertProperties specs [] List.Pairwise.nil).2]
    rfl

theorem lookup_of_mem (map : List (String × GType)) (sorted : Sorted map) (property : String)
    (type : GType) : (property, type) ∈ map ↔ map.lookup property = some type := by
  induction map with
  | nil => simp
  | cons first rest ih =>
      obtain ⟨head, headType⟩ := first
      obtain ⟨before, sorted⟩ := List.pairwise_cons.mp sorted
      rw [List.mem_cons, ih sorted, List.lookup_cons]
      by_cases same : property = head
      · subst same
        have absent := lookup_none_of_lt rest property before
        rw [absent, beq_self_eq_true]
        simp [eq_comm]
      · rw [beq_false_of_ne same]
        exact or_iff_right fun both => same (Prod.mk.inj both).1

/-- The map holds each registered property once, with its registered type. -/
theorem mem_properties_iff (platform : Platform) (name property : String) (type : GType) :
    (property, type) ∈ getElementPropertyInfo platform name ↔
      platform.registered name property = some type := by
  rw [lookup_of_mem _ (sorted_properties platform name), lookup_properties]

/-- The types that setValue hands to g_object_set through INIReader::GetInteger. -/
def GType.integral : GType → Bool
  | .ulong => true
  | .long => true
  | .uint => true
  | .int => true
  | .uint64 => true
  | .int64 => true
  | .named typeName => decide (typeName = "GstPlayFlags")
  | _ => false

/-- The types of the properties that setValue sets at all. -/
def GType.settable : GType → Bool
  | .char => false
  | .uchar => false
  | .object => false
  | .named typeName => decide (typeName = "GstElement" ∨ typeName = "GstPlayFlags")
  | _ => true

/-- The value is the conversion for the type of the property's own text; `child` relates
the text of an element-valued property to the element. -/
inductive Converted (platform : Platform) (reader : INIReader)
    (child : String → Option GstElement → Prop) (name property : String) :
    GType → GValue GstElement → Prop
  | string : Converted platform reader child name property .string
      (.string (reader.getString name property ""))
  | boolean : Converted platform reader child name property .boolean
      (.boolean (reader.getBoolean name property false))
  | integer (type : GType) (integral : type.integral = true) :
      Converted platform reader child name property type
        (.long (reader.getInteger name property 0))
  | real (type : GType) (floating : type = .float ∨ type = .double) :
      Converted platform reader child name property type
        (.double (reader.getReal platform.strtod name property (.finite 0)))
  | element (made : Option GstElement) (own : child (reader.getString name property "") made) :
      Converted platform reader child name property (.named "GstElement") (.element made)

theorem Converted.imp {platform : Platform} {reader : INIReader}
    {child other : String → Option GstElement → Prop} {name property : String} {type : GType}
    {value : GValue GstElement}
    (converted : Converted platform reader child name property type value)
    (implies : ∀ made, type = .named "GstElement" →
      child (reader.getString name property "") made →
        other (reader.getString name property "") made) :
    Converted platform reader other name property type value := by
  cases converted with
  | string => exact .string
  | boolean => exact .boolean
  | integer _ integral => exact .integer type integral
  | real _ floating => exact .real type floating
  | element made own => exact .element made (implies made rfl own)

/-- The element that the recursive call returned. -/
def Returned (setup : String → Option Made) (text : String) (made : Option GstElement) : Prop :=
  ∃ result, setup text = some (made, result)

theorem setValue_spec (platform : Platform) (reader : INIReader) (setup : String → Option Made)
    (name property : String) (type : GType) (assigned : List (String × GValue GstElement))
    (returned : setValue platform reader setup name property type = some assigned) :
    type.settable = false ∧ assigned = [] ∨
      type.settable = true ∧ ∃ value, assigned = [(property, value)] ∧
        Converted platform reader (Returned setup) name property type value := by
  cases type with
  | named typeName =>
      rw [setValue] at returned
      split at returned
      · rename_i element
        subst element
        obtain ⟨⟨made, result⟩, called, rfl⟩ := Option.map_eq_some_iff.mp returned
        exact Or.inr ⟨rfl, _, rfl, .element made ⟨result, called⟩⟩
      · rename_i noElement
        split at returned
        · rename_i flags
          subst flags
          rw [Option.some.injEq] at returned
          exact Or.inr ⟨rfl, _, returned.symm, .integer _ rfl⟩
        · rename_i noFlags
          rw [Option.some.injEq] at returned
          exact Or.inl ⟨by simp [GType.settable, noElement, noFlags], returned.symm⟩
  | char => exact Or.inl ⟨rfl, (Option.some.inj returned).symm⟩
  | uchar => exact Or.inl ⟨rfl, (Option.some.inj returned).symm⟩
  | object => exact Or.inl ⟨rfl, (Option.some.inj returned).symm⟩
  | string => exact Or.inr ⟨rfl, _, (Option.some.inj returned).symm, .string⟩
  | boolean => exact Or.inr ⟨rfl, _, (Option.some.inj returned).symm, .boolean⟩
  | float => exact Or.inr ⟨rfl, _, (Option.some.inj returned).symm, .real _ (Or.inl rfl)⟩
  | double => exact Or.inr ⟨rfl, _, (Option.some.inj returned).symm, .real _ (Or.inr rfl)⟩
  | _ => exact Or.inr ⟨rfl, _, (Option.some.inj returned).symm, .integer _ rfl⟩

/-- One round of the loop: an entry without a value or a settable type is passed over. -/
theorem setEntries_cons (platform : Platform) (reader : INIReader)
    (setup : String → Option Made) (name property : String) (type : GType)
    (rest : List (String × GType)) (assigned : List (String × GValue GstElement))
    (returned : setEntries platform reader setup name ((property, type) :: rest) = some assigned) :
    ∃ remaining, setEntries platform reader setup name rest = some remaining ∧
      (¬(reader.hasValue name property = true ∧ type.settable = true) ∧ assigned = remaining ∨
        (reader.hasValue name property = true ∧ type.settable = true) ∧
          ∃ value, assigned = (property, value) :: remaining ∧
            Converted platform reader (Returned setup) name property type value) := by
  by_cases present : reader.hasValue name property = true
  · rw [setEntries, if_pos present] at returned
    obtain ⟨first, set, others⟩ := Option.bind_eq_some_iff.mp returned
    obtain ⟨remaining, looped, rfl⟩ := Option.map_eq_some_iff.mp others
    refine ⟨remaining, looped, ?_⟩
    rcases setValue_spec platform reader setup name property type first set with
      ⟨unsettable, rfl⟩ | ⟨settable, value, rfl, converted⟩
    · refine Or.inl ⟨fun both => ?_, rfl⟩
      rw [both.2] at unsettable
      cases unsettable
    · exact Or.inr ⟨⟨present, settable⟩, value, rfl, converted⟩
  · rw [setEntries, if_neg present] at returned
    exact ⟨assigned, returned, Or.inl ⟨fun both => present both.1, rfl⟩⟩

/-- What the loop of setProperty assigns: the entries that have a value and a settable
type, in their order and each once. -/
theorem setEntries_spec (platform : Platform) (reader : INIReader)
    (setup : String → Option Made) (name : String) (entries : List (String × GType))
    (assigned : List (String × GValue GstElement))
    (returned : setEntries platform reader setup name entries = some assigned) :
    (assigned.map Prod.fst).Sublist (entries.map Prod.fst) ∧
      (∀ property value, (property, value) ∈ assigned →
        ∃ type, (property, type) ∈ entries ∧
          (reader.hasValue name property = true ∧ type.settable = true) ∧
          Converted platform reader (Returned setup) name property type value) ∧
      ∀ property type, (property, type) ∈ entries →
        reader.hasValue name property = true ∧ type.settable = true →
          ∃ value, (property, value) ∈ assigned := by
  induction entries generalizing assigned with
  | nil =>
      rw [setEntries, Option.some.injEq] at returned
      subst returned
      exact ⟨List.Sublist.slnil, nofun, nofun⟩
  | cons entry rest ih =>
      obtain ⟨property, type⟩ := entry
      obtain ⟨remaining, looped, round⟩ :=
        setEntries_cons platform reader setup name property type rest assigned returned
      obtain ⟨ordered, sound, complete⟩ := ih remaining looped
      rcases round with ⟨passed, rfl⟩ | ⟨taken, value, rfl, converted⟩
      · refine ⟨ordered.cons property, fun candidate given member => ?_, ?_⟩
        · obtain ⟨own, inside, facts⟩ := sound candidate given member
          exact ⟨own, List.mem_cons_of_mem _ inside, facts⟩
        · intro candidate own member both
          rcases List.mem_cons.mp member with same | member
          · rw [(Prod.mk.inj same).1, (Prod.mk.inj same).2] at both
            exact absurd both passed
          · exact complete candidate own member both
      · refine ⟨ordered.cons_cons property, fun candidate given member => ?_, ?_⟩
        · rcases List.mem_cons.mp member with same | member
          · obtain ⟨rfl, rfl⟩ := Prod.mk.inj same
            exact ⟨type, List.mem_cons_self, taken, converted⟩
          · obtain ⟨own, inside, facts⟩ := sound candidate given member
            exact ⟨own, List.mem_cons_of_mem _ inside, facts⟩
        · intro candidate own member both
          rcases List.mem_cons.mp member with same | member
          · rw [(Prod.mk.inj same).1]
            exact ⟨value, List.mem_cons_self⟩
          · obtain ⟨found, inside⟩ := complete candidate own member both
            exact ⟨found, List.mem_cons_of_mem _ inside⟩

/-- What MyElement::setup returns when the file was parsed. -/
theorem setupBody_spec (platform : Platform) (reader : INIReader)
    (parsed : reader.parseError = 0) (recur : String → Option Made) (name : String)
    (made : Made) (returned : setupBody platform reader recur name = some made) :
    platform.creates name = false ∧ made = (none, false) ∨
      platform.creates name = true ∧ ∃ assigned,
        setEntries platform reader recur name (getElementPropertyInfo platform name) =
            some assigned ∧
          made = (some (.mk name assigned), true) := by
  unfold setupBody at returned
  split at returned
  · rename_i creates
    obtain ⟨⟨result, assigned⟩, set, rfl⟩ := Option.map_eq_some_iff.mp returned
    refine Or.inr ⟨creates, assigned, ?_, rfl⟩
    cases entries : getElementPropertyInfo platform name with
    | nil =>
        rw [entries, setProperty, List.isEmpty_nil, if_pos rfl, Option.some.injEq] at set
        rw [setEntries, (Prod.mk.inj set).2]
    | cons entry rest =>
        rw [entries, setProperty, List.isEmpty_cons, if_neg Bool.false_ne_true] at set
        obtain ⟨found, looped, same⟩ := Option.map_eq_some_iff.mp set
        rw [looped, (Prod.mk.inj same).2]
  · rename_i fails
    rw [Option.some.injEq] at returned
    exact Or.inl ⟨by simpa using fails, returned.symm⟩

end MediaplayerServer.Configuration
