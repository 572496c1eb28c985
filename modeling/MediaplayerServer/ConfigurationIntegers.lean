import MediaplayerServer.ConfigurationTermination
import MediaplayerServer.INIFile
import MediaplayerServer.INIInteger

set_option autoImplicit false

namespace MediaplayerServer.Configuration

/-- The least and the greatest value of the six integer types, on a 64-bit platform. -/
def GType.range : GType → Option (Int × Int)
  | .int => some (-2147483648, 2147483647)
  | .uint => some (0, 4294967295)
  | .long => some (longMin, longMax)
  | .ulong => some (0, 18446744073709551615)
  | .int64 => some (longMin, longMax)
  | .uint64 => some (0, 18446744073709551615)
  | _ => none

/-- What a property with values from `low` to `high` takes of an argument: its low bits. -/
def taken (low high argument : Int) : Int :=
  low + (argument - low) % (high - low + 1)

theorem taken_eq_self (low high argument : Int) (above : low ≤ argument)
    (below : argument ≤ high) : taken low high argument = argument := by
  rw [taken, Int.emod_eq_of_lt (by omega) (by omega)]
  omega

/-- No property takes more than LONG_MAX of LONG_MAX. -/
theorem taken_longMax_le (low high : Int) (wide : low ≤ longMax) (filled : low ≤ high) :
    taken low high longMax ≤ longMax := by
  have split := Int.emod_add_mul_ediv (longMax - low) (high - low + 1)
  have whole : 0 ≤ (high - low + 1) * ((longMax - low) / (high - low + 1)) :=
    Int.mul_nonneg (by omega) (Int.ediv_nonneg (by omega) (by omega))
  rw [taken]
  omega

/-- The value that a property gets from setValue. -/
def Delivers (platform : Platform) (reader : INIReader) (setup : String → Option Made)
    (name property : String) (type : GType) (value : Int) : Prop :=
  ∃ low high argument, type.range = some (low, high) ∧
    setValue platform reader setup name property type = some [(property, .long argument)] ∧
    taken low high argument = value

theorem setValue_integer (platform : Platform) (reader : INIReader)
    (setup : String → Option Made) (name property : String) (type : GType)
    (integer : type.range ≠ none) :
    setValue platform reader setup name property type =
      some [(property, .long (reader.getInteger name property 0))] := by
  cases type <;> first | rfl | exact absurd rfl integer

theorem getInteger_literal (reader : INIReader) (name property : String) (value : Int)
    (text : reader.get name property "" = toString value) :
    reader.getInteger name property 0 = max longMin (min longMax value) := by
  rw [INIReader.getInteger, text, strtol_toString, Option.getD_some]

theorem range_bounds (type : GType) (low high : Int) (integer : type.range = some (low, high)) :
    longMin ≤ low ∧ low ≤ longMax := by
  cases type <;> cases integer <;> decide

/-- The greatest time limit of a queue. -/
def unlimitedQueue : INIReader :=
  INIReader.parse [⟨"queue", "max-size-time", "18446744073709551615", by decide⟩]

/-- Half of it arrives. -/
theorem unlimited_queue_halved :
    unlimitedQueue.get "queue" "max-size-time" "" = toString (18446744073709551615 : Int) ∧
      Delivers desktop unlimitedQueue (fun _ => none) "queue" "max-size-time" .uint64
        9223372036854775807 ∧
      ¬ Delivers desktop unlimitedQueue (fun _ => none) "queue" "max-size-time" .uint64
        18446744073709551615 := by
  have text : unlimitedQueue.get "queue" "max-size-time" "" =
      toString (18446744073709551615 : Int) := by decide
  have passed : unlimitedQueue.getInteger "queue" "max-size-time" 0 = longMax :=
    (getInteger_literal _ _ _ _ text).trans (by decide)
  refine ⟨text, ⟨0, 18446744073709551615, longMax, rfl, ?_, by decide⟩, ?_⟩
  · rw [setValue, passed]
  · rintro ⟨low, high, argument, same, set, delivered⟩
    rw [setValue, passed] at set
    cases same
    obtain rfl : longMax = argument := by simpa using set
    exact absurd delivered (by decide)

/-- A number in the range of its type, given as a decimal literal, arrives exactly if it
is a value of long. -/
theorem integer_delivered_iff (platform : Platform) (reader : INIReader)
    (setup : String → Option Made) (name property : String) (type : GType) (low high value : Int)
    (integer : type.range = some (low, high)) (above : low ≤ value) (below : value ≤ high)
    (text : reader.get name property "" = toString value) :
    Delivers platform reader setup name property type value ↔ value ≤ longMax := by
  obtain ⟨least, wide⟩ := range_bounds type low high integer
  have passed := setValue_integer platform reader setup name property type (by rw [integer]; nofun)
  rw [getInteger_literal reader name property value text] at passed
  constructor
  · rintro ⟨low', high', argument, same, set, delivered⟩
    rw [integer, Option.some.injEq, Prod.mk.injEq] at same
    obtain ⟨rfl, rfl⟩ := same
    by_contra large
    rw [not_le] at large
    have saturated : max longMin (min longMax value) = longMax := by
      rw [min_eq_left (le_of_lt large)]
      decide
    rw [passed, saturated] at set
    obtain rfl : longMax = argument := by simpa using set
    have most := taken_longMax_le low high wide (le_trans above below)
    omega
  · intro fits
    refine ⟨low, high, value, integer, ?_, taken_eq_self low high value above below⟩
    rw [passed, min_eq_right fits, max_eq_right (le_trans least above)]

/-- The least int arrives. -/
theorem least_int_delivered :
    Delivers desktop
      (INIReader.parse [⟨"videotestsrc", "horizontal-speed", "-2147483648", by decide⟩])
      (fun _ => none) "videotestsrc" "horizontal-speed" .int (-2147483648) :=
  (integer_delivered_iff desktop _ (fun _ => none) "videotestsrc" "horizontal-speed" .int
    (-2147483648) 2147483647 (-2147483648) rfl (by decide) (by decide) (by decide)).mpr (by decide)

end MediaplayerServer.Configuration
