import Mathlib.Data.List.Basic
import MediaplayerServer.INIReader

set_option autoImplicit false

namespace MediaplayerServer

/-- One call of ValueHandler. The parser ends a name at the first `=` of its line. -/
structure INIEntry where
  sectionName : String
  name : String
  value : String
  nameEnds : '=' ∉ name.toList
  deriving DecidableEq

/-- Texts given under one key are joined by line breaks. -/
def valueHandler (values : List (String × String)) (entry : INIEntry) :
    List (String × String) :=
  let key := INIReader.makeKey entry.sectionName entry.name
  let before := (values.lookup key).getD ""
  (key, (if before = "" then "" else before ++ "\n") ++ entry.value) :: values

/-- The reader of a file that was parsed without an error. -/
def INIReader.parse (file : List INIEntry) : INIReader where
  error := 0
  values := file.foldl valueHandler []

/-- The file has the key in the section, names compared without regard to case. -/
def HasKey (file : List INIEntry) (sectionName name : String) : Prop :=
  ∃ entry ∈ file,
    toLower entry.sectionName = toLower sectionName ∧ toLower entry.name = toLower name

theorem toList_toLower (text : String) : (toLower text).toList = text.toList.map Char.toLower :=
  String.toList_ofList

theorem toLower_eq_iff (text other : String) :
    toLower text = toLower other ↔
      text.toList.map Char.toLower = other.toList.map Char.toLower := by
  rw [← String.toList_inj, toList_toLower, toList_toLower]

theorem toLower_ne_equals (char : Char) (other : char ≠ '=') : char.toLower ≠ '=' := by
  intro equals
  unfold Char.toLower at equals
  split at equals
  · -- an upper case letter moves up by 32, past the separator
    rename_i upper
    have shifted := congrArg Char.val equals
    grind
  · exact other equals

theorem equals_notMem_lower (chars : List Char) (free : '=' ∉ chars) :
    '=' ∉ chars.map Char.toLower := by
  rw [List.mem_map]
  rintro ⟨char, member, lower⟩
  refine toLower_ne_equals char ?_ lower
  rintro rfl
  exact free member

/-- A separator splits a text in one way only if it does not occur behind itself. -/
theorem split_unique {α : Type} (separator : α) (left left' right right' : List α)
    (free : separator ∉ right) (free' : separator ∉ right') :
    left ++ separator :: right = left' ++ separator :: right' ↔ left = left' ∧ right = right' := by
  constructor
  · intro same
    rcases List.append_eq_append_iff.mp same with ⟨middle, first, second⟩ | ⟨middle, first, second⟩
    · cases middle with
      | nil =>
          rw [List.nil_append, List.cons.injEq] at second
          exact ⟨by rw [first, List.append_nil], second.2⟩
      | cons head middle =>
          rw [List.cons_append, List.cons.injEq] at second
          exact absurd (by rw [second.2]; simp) free
    · cases middle with
      | nil =>
          rw [List.nil_append, List.cons.injEq] at second
          exact ⟨by rw [first, List.append_nil], second.2.symm⟩
      | cons head middle =>
          rw [List.cons_append, List.cons.injEq] at second
          exact absurd (by rw [second.2]; simp) free'
  · rintro ⟨rfl, rfl⟩
    rfl

/-- Different sections never share a key. -/
theorem makeKey_eq_iff (first second name other : String) (free : '=' ∉ name.toList)
    (free' : '=' ∉ other.toList) :
    INIReader.makeKey first name = INIReader.makeKey second other ↔
      toLower first = toLower second ∧ toLower name = toLower other := by
  simp only [INIReader.makeKey, toLower_eq_iff, String.toList_append, List.map_append]
  rw [List.append_assoc, List.append_assoc]
  exact split_unique '=' _ _ _ _ (equals_notMem_lower _ free) (equals_notMem_lower _ free')

theorem lookup_valueHandler (values : List (String × String)) (entry : INIEntry) (key : String) :
    ((valueHandler values entry).lookup key).isSome = true ↔
      (values.lookup key).isSome = true ∨
        INIReader.makeKey entry.sectionName entry.name = key := by
  unfold valueHandler
  dsimp only
  rw [List.lookup_cons]
  by_cases same : key = INIReader.makeKey entry.sectionName entry.name
  · simp [same]
  · have other : (key == INIReader.makeKey entry.sectionName entry.name) = false := by
      simpa using same
    rw [other]
    exact ⟨Or.inl, fun either => either.resolve_right (Ne.symm same)⟩

theorem lookup_parse (file : List INIEntry) (values : List (String × String)) (key : String) :
    ((file.foldl valueHandler values).lookup key).isSome = true ↔
      (values.lookup key).isSome = true ∨
        ∃ entry ∈ file, INIReader.makeKey entry.sectionName entry.name = key := by
  induction file generalizing values with
  | nil => simp
  | cons entry rest ih =>
      rw [List.foldl_cons, ih, lookup_valueHandler, List.exists_mem_cons_iff, or_assoc]

/-- HasValue finds a property exactly if its section of the file has the key. -/
theorem hasValue_parse_iff (file : List INIEntry) (sectionName name : String)
    (free : '=' ∉ name.toList) :
    (INIReader.parse file).hasValue sectionName name = true ↔ HasKey file sectionName name := by
  rw [INIReader.hasValue, INIReader.parse, lookup_parse]
  constructor
  · rintro (nothing | ⟨entry, member, key⟩)
    · cases nothing
    · exact ⟨entry, member, (makeKey_eq_iff _ _ _ _ entry.nameEnds free).mp key⟩
  · rintro ⟨entry, member, same⟩
    exact Or.inr ⟨entry, member, (makeKey_eq_iff _ _ _ _ entry.nameEnds free).mpr same⟩

end MediaplayerServer
