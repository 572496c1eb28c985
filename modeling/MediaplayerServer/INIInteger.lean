import Mathlib.Tactic.IntervalCases
import MediaplayerServer.INIReader

set_option autoImplicit false

namespace MediaplayerServer

theorem digit_digitChar (value : Nat) (small : value < 10) :
    digit 10 value.digitChar = some value := by
  interval_cases value <;> rfl

@[simp] theorem digits_nil (base : Nat) (before : Option Nat) : digits base before [] = before :=
  rfl

theorem digits_cons (base : Nat) (before : Option Nat) (char : Char) (rest : List Char)
    (value : Nat) (read : digit base char = some value) :
    digits base before (char :: rest) =
      digits base (some (before.getD 0 * base + value)) rest := by
  simp only [digits, read]

/-- One more digit behind a run of digits. -/
theorem digits_snoc (base : Nat) (before : Option Nat) (run : List Char) (char : Char)
    (value : Nat) (all : ∀ other ∈ run, (digit base other).isSome = true)
    (last : digit base char = some value) :
    digits base before (run ++ [char]) =
      some (((digits base before run).getD 0) * base + value) := by
  induction run generalizing before with
  | nil => rw [List.nil_append, digits_cons base before char [] value last, digits_nil, digits_nil]
  | cons first rest ih =>
      rw [List.forall_mem_cons] at all
      obtain ⟨here, read⟩ := Option.isSome_iff_exists.mp all.1
      rw [List.cons_append, digits_cons base before first _ here read,
        digits_cons base before first _ here read]
      exact ih _ all.2

theorem isSome_digit_toDigits (value : Nat) :
    ∀ char ∈ Nat.toDigits 10 value, (digit 10 char).isSome = true := by
  induction value using Nat.strongRecOn with
  | ind value ih =>
      intro char member
      rw [Nat.toDigits_eq_if (by decide)] at member
      split at member
      · rename_i small
        rw [List.mem_singleton.mp member, digit_digitChar value small]
        rfl
      · rename_i large
        rcases List.mem_append.mp member with earlier | last
        · exact ih (value / 10) (by omega) char earlier
        · rw [List.mem_singleton.mp last, digit_digitChar _ (Nat.mod_lt _ (by decide))]
          rfl

/-- Reading the decimal digits of a number gives the number back. -/
theorem digits_toDigits (value : Nat) :
    digits 10 none (Nat.toDigits 10 value) = some value := by
  induction value using Nat.strongRecOn with
  | ind value ih =>
      rw [Nat.toDigits_eq_if (by decide)]
      split
      · rename_i small
        rw [digits_cons 10 none _ [] value (digit_digitChar value small), digits_nil,
          Option.getD_none, Nat.zero_mul, Nat.zero_add]
      · rename_i large
        have last := digit_digitChar (value % 10) (Nat.mod_lt _ (by decide))
        rw [digits_snoc 10 none _ _ _ (isSome_digit_toDigits (value / 10)) last,
          ih (value / 10) (by omega), Option.getD_some]
        congr 1
        omega

/-- A number other than zero starts with a digit other than zero. -/
theorem toDigits_head (value : Nat) (positive : 0 < value) :
    ∃ first rest, Nat.toDigits 10 value = Nat.digitChar first :: rest ∧ 0 < first ∧ first < 10 := by
  induction value using Nat.strongRecOn with
  | ind value ih =>
      rw [Nat.toDigits_eq_if (by decide)]
      split
      · rename_i small
        exact ⟨value, [], rfl, positive, small⟩
      · rename_i large
        obtain ⟨first, rest, split, range⟩ := ih (value / 10) (by omega) (by omega)
        exact ⟨first, rest ++ [(value % 10).digitChar], by rw [split, List.cons_append], range⟩

/-- A decimal literal is not taken for an octal or a hexadecimal one. -/
theorem magnitude_toDigits (value : Nat) : magnitude (Nat.toDigits 10 value) = some value := by
  rcases Nat.eq_zero_or_pos value with rfl | positive
  · rfl
  · obtain ⟨first, rest, split, low, high⟩ := toDigits_head value positive
    have read := digits_toDigits value
    rw [split] at read ⊢
    interval_cases first <;> exact read

theorem strtol_unsigned (text : String) (first : Char) (rest : List Char) (value : Nat)
    (chars : text.toList = first :: rest) (unspaced : isSpace first = false)
    (noMinus : first ≠ '-') (noPlus : first ≠ '+')
    (read : magnitude (first :: rest) = some value) :
    strtol text = some (min longMax (value : Int)) := by
  rw [strtol, chars, List.dropWhile_cons, unspaced, if_neg Bool.false_ne_true]
  split
  · rename_i minus
    exact absurd (List.cons.inj minus).1 noMinus
  · rename_i plus
    exact absurd (List.cons.inj plus).1 noPlus
  · rw [read]
    rfl

theorem isSpace_digitChar (value : Nat) (small : value < 10) :
    isSpace value.digitChar = false ∧ value.digitChar ≠ '-' ∧ value.digitChar ≠ '+' := by
  interval_cases value <;> decide

theorem strtol_natural (value : Nat) :
    strtol (toString value) = some (min longMax (value : Int)) := by
  have chars : (toString value).toList = Nat.toDigits 10 value := Nat.toList_repr
  have read := magnitude_toDigits value
  obtain ⟨first, rest, split, small⟩ :
      ∃ first rest, Nat.toDigits 10 value = Nat.digitChar first :: rest ∧ first < 10 := by
    rcases Nat.eq_zero_or_pos value with rfl | positive
    · exact ⟨0, [], rfl, by decide⟩
    · obtain ⟨first, rest, split, -, high⟩ := toDigits_head value positive
      exact ⟨first, rest, split, high⟩
  obtain ⟨unspaced, noMinus, noPlus⟩ := isSpace_digitChar first small
  rw [split] at chars read
  exact strtol_unsigned _ _ rest value chars unspaced noMinus noPlus read

theorem strtol_negative (value : Nat) :
    strtol ("-" ++ toString value) = some (max longMin (-(value : Int))) := by
  have chars : ("-" ++ toString value).toList = '-' :: Nat.toDigits 10 value := by
    rw [String.toList_append, show (toString value).toList = _ from Nat.toList_repr]
    rfl
  have unspaced : isSpace '-' = false := rfl
  rw [strtol, chars, List.dropWhile_cons, unspaced]
  simp [magnitude_toDigits]

/-- strtol gives every number of a long back from its decimal literal, and the nearer
limit from any other one. -/
theorem strtol_toString (value : Int) :
    strtol (toString value) = some (max longMin (min longMax value)) := by
  cases value with
  | ofNat value =>
      have text : toString (Int.ofNat value) = toString value := rfl
      have above : longMin ≤ min longMax (Int.ofNat value) := by
        have natural : (0 : Int) ≤ Int.ofNat value := Int.natCast_nonneg value
        unfold longMin longMax
        omega
      rw [text, strtol_natural, max_eq_right above]
      rfl
  | negSucc value =>
      have text : toString (Int.negSucc value) = "-" ++ toString (value + 1) := rfl
      have below : min longMax (Int.negSucc value) = Int.negSucc value := by
        have negative : Int.negSucc value < 0 := Int.negSucc_lt_zero value
        unfold longMax
        omega
      rw [text, strtol_negative, below]
      rfl

end MediaplayerServer
