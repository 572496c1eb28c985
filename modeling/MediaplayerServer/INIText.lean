import MediaplayerServer.INIParse

set_option autoImplicit false

namespace MediaplayerServer.INI

/-- Whitespace only. -/
def Blank (text : List Char) : Prop := ∀ char ∈ text, isSpace char = true

instance (text : List Char) : Decidable (Blank text) :=
  List.decidableBAll (fun char => isSpace char = true) text

theorem blank_newline : Blank ['\n'] := by
  intro char member
  rw [List.mem_singleton.mp member]
  rfl

theorem Blank.append {text rest : List Char} (left : Blank text) (right : Blank rest) :
    Blank (text ++ rest) :=
  fun char member => (List.mem_append.mp member).elim (left char) (right char)

/-- Without whitespace at either end. -/
structure Trimmed (text : List Char) : Prop where
  left : lskip text = text
  right : rstrip text = text

instance (text : List Char) : Decidable (Trimmed text) :=
  decidable_of_iff (lskip text = text ∧ rstrip text = text)
    ⟨fun both => ⟨both.1, both.2⟩, fun trimmed => ⟨trimmed.left, trimmed.right⟩⟩

section Trim

theorem rstrip_append_blank (text spaces : List Char) (blank : Blank spaces) :
    rstrip (text ++ spaces) = rstrip text := by
  have reversed : ∀ char ∈ spaces.reverse, isSpace char = true := by
    intro char member
    exact blank char (List.mem_reverse.mp member)
  unfold rstrip List.rdropWhile
  rw [List.reverse_append, List.dropWhile_append_of_pos reversed]

theorem lskip_blank_append (spaces text : List Char) (blank : Blank spaces) :
    lskip (spaces ++ text) = lskip text :=
  List.dropWhile_append_of_pos blank

theorem rstrip_append (text rest : List Char) (more : rest ≠ []) (right : rstrip rest = rest) :
    rstrip (text ++ rest) = text ++ rest := by
  have whole : text ++ rest ≠ [] := List.append_ne_nil_of_right_ne_nil text more
  refine List.rdropWhile_eq_self_iff.mpr fun _ => ?_
  rw [List.getLast_append_of_ne_nil whole more]
  exact List.rdropWhile_eq_self_iff.mp right more

theorem lskip_cons_iff (first : Char) (rest : List Char) :
    lskip (first :: rest) = first :: rest ↔ isSpace first = false := by
  rw [lskip, List.dropWhile_eq_self_iff]
  simp

theorem lskip_append (text rest : List Char) (more : text ≠ []) (left : lskip text = text) :
    lskip (text ++ rest) = text ++ rest := by
  obtain ⟨first, others, rfl⟩ := List.exists_cons_of_ne_nil more
  exact (lskip_cons_iff _ _).mpr ((lskip_cons_iff _ _).mp left)

theorem lskip_blank (spaces : List Char) (blank : Blank spaces) : lskip spaces = [] :=
  List.dropWhile_eq_nil_iff.mpr blank

theorem rstrip_blank (spaces : List Char) (blank : Blank spaces) : rstrip spaces = [] :=
  List.rdropWhile_eq_nil_iff.mpr blank

theorem rstrip_isPrefix (text : List Char) : rstrip text <+: text :=
  List.rdropWhile_prefix isSpace text

theorem lskip_suffix (text : List Char) : lskip text <:+ text := List.dropWhile_suffix isSpace

theorem mem_rstrip {char : Char} {text : List Char} (member : char ∈ rstrip text) : char ∈ text :=
  (rstrip_isPrefix text).subset member

theorem rstrip_idempotent (text : List Char) : rstrip (rstrip text) = rstrip text :=
  List.rdropWhile_idempotent isSpace text

theorem lskip_idempotent (text : List Char) : lskip (lskip text) = lskip text :=
  List.dropWhile_idempotent isSpace text

/-- A prefix of a text without leading whitespace has none either. -/
theorem lskip_of_prefix {text whole : List Char} (inside : text <+: whole)
    (left : lskip whole = whole) : lskip text = text := by
  cases text with
  | nil => rfl
  | cons first rest =>
      obtain ⟨behind, rfl⟩ := inside
      exact (lskip_cons_iff _ _).mpr ((lskip_cons_iff _ _).mp left)

/-- A suffix of a text without trailing whitespace has none either. -/
theorem rstrip_of_suffix {text whole : List Char} (inside : text <:+ whole)
    (right : rstrip whole = whole) : rstrip text = text := by
  obtain ⟨before, rfl⟩ := inside
  refine List.rdropWhile_eq_self_iff.mpr fun some => ?_
  have all : before ++ text ≠ [] := List.append_ne_nil_of_right_ne_nil before some
  have last := List.rdropWhile_eq_self_iff.mp right all
  rwa [List.getLast_append_of_ne_nil all some] at last

theorem trimmed_strip (text : List Char) : Trimmed (rstrip (lskip text)) where
  left := lskip_of_prefix (rstrip_isPrefix _) (lskip_idempotent text)
  right := rstrip_idempotent _

/-- A trimmed text is what remains when the whitespace around it is taken away. -/
theorem strip_padded (before text behind : List Char) (left : Blank before)
    (trimmed : Trimmed text) (right : Blank behind) :
    rstrip (lskip (before ++ text ++ behind)) = text := by
  rw [List.append_assoc, lskip_blank_append before _ left]
  by_cases empty : text = []
  · rw [empty, List.nil_append, lskip_blank behind right]
    rfl
  · rw [lskip_append text behind empty trimmed.left, rstrip_append_blank text behind right,
      trimmed.right]

/-- A text is what stripping leaves of it, and whitespace. -/
theorem rstrip_split (text : List Char) :
    ∃ spaces, Blank spaces ∧ text = rstrip text ++ spaces := by
  refine ⟨text.rtakeWhile isSpace, fun char member => List.mem_rtakeWhile_imp member, ?_⟩
  exact List.rdropWhile_append_rtakeWhile.symm

theorem rstrip_append_visible (text rest : List Char) (visible : rstrip rest ≠ []) :
    rstrip (text ++ rest) = text ++ rstrip rest := by
  obtain ⟨spaces, blank, split⟩ := rstrip_split rest
  rw [split, ← List.append_assoc, rstrip_append_blank _ _ blank,
    rstrip_append _ _ visible (rstrip_idempotent rest), ← split]

theorem rstrip_cons (first : Char) (rest : List Char) (unspaced : isSpace first = false) :
    rstrip (first :: rest) = first :: rstrip rest := by
  by_cases blank : rstrip rest = []
  · obtain ⟨spaces, all, split⟩ := rstrip_split rest
    rw [blank, List.nil_append] at split
    have single : rstrip [first] = [first] := by
      rw [rstrip, List.rdropWhile_singleton, unspaced, if_neg Bool.false_ne_true]
    rw [blank, split, ← List.singleton_append, rstrip_append_blank _ _ all, single]
  · exact rstrip_append_visible [first] rest blank

/-- It does not matter at which end whitespace is taken away first. -/
theorem strip_rstrip (text : List Char) : rstrip (lskip (rstrip text)) = rstrip (lskip text) := by
  obtain ⟨spaces, blank, split⟩ := rstrip_split text
  by_cases visible : lskip (rstrip text) = []
  · have whole : lskip text = lskip spaces := by
      rw [split]
      exact lskip_blank_append _ _ (List.dropWhile_eq_nil_iff.mp visible)
    rw [visible, whole, lskip_blank spaces blank]
  · have whole : lskip text = lskip (rstrip text) ++ spaces := by
      conv_lhs => rw [split]
      rw [lskip, List.dropWhile_append]
      rw [lskip] at visible
      rw [if_neg (by rwa [List.isEmpty_iff])]
      rfl
    rw [whole, rstrip_append_blank _ _ blank]

end Trim

section Search

/-- No comment begins in the text; `wasSpace` tells whether whitespace comes before it. -/
def Uncommented : Bool → List Char → Prop
  | _, [] => True
  | wasSpace, first :: rest =>
      ¬(wasSpace = true ∧ first ∈ inlineCommentPrefixes) ∧ Uncommented (isSpace first) rest

instance decidableUncommented : ∀ wasSpace text, Decidable (Uncommented wasSpace text)
  | _, [] => isTrue trivial
  | wasSpace, first :: rest =>
      have := decidableUncommented (isSpace first) rest
      inferInstanceAs (Decidable (¬(wasSpace = true ∧ first ∈ inlineCommentPrefixes) ∧ _))

/-- Whitespace comes right behind the text. -/
def endsSpace : Bool → List Char → Bool
  | wasSpace, [] => wasSpace
  | _, first :: rest => endsSpace (isSpace first) rest

theorem uncommented_append (wasSpace : Bool) (text rest : List Char) :
    Uncommented wasSpace (text ++ rest) ↔
      Uncommented wasSpace text ∧ Uncommented (endsSpace wasSpace text) rest := by
  induction text generalizing wasSpace with
  | nil => exact (iff_of_eq (true_and _)).symm
  | cons first others ih => exact (and_congr_right fun _ => ih (isSpace first)).trans and_assoc.symm

theorem Uncommented.weaken {wasSpace : Bool} {text : List Char}
    (free : Uncommented wasSpace text) : Uncommented false text := by
  cases text with
  | nil => trivial
  | cons first rest => exact ⟨fun both => Bool.false_ne_true both.1, free.2⟩

theorem Uncommented.left {wasSpace : Bool} {text whole : List Char}
    (free : Uncommented wasSpace whole) (inside : text <+: whole) : Uncommented wasSpace text := by
  obtain ⟨behind, rfl⟩ := inside
  exact ((uncommented_append _ _ _).mp free).1

theorem Uncommented.right {wasSpace : Bool} {text whole : List Char}
    (free : Uncommented wasSpace whole) (inside : text <:+ whole) : Uncommented false text := by
  obtain ⟨before, rfl⟩ := inside
  exact ((uncommented_append _ _ _).mp free).2.weaken

theorem isSpace_plain (char : Char) (spaced : isSpace char = true) :
    char ∉ inlineCommentPrefixes := by
  intro member
  rw [List.mem_singleton.mp member] at spaced
  cases spaced

theorem uncommented_blank (wasSpace : Bool) (spaces : List Char) (blank : Blank spaces) :
    Uncommented wasSpace spaces := by
  induction spaces generalizing wasSpace with
  | nil => trivial
  | cons first rest ih =>
      have here := isSpace_plain first (blank first List.mem_cons_self)
      refine ⟨fun both => here both.2, ih _ fun char member => ?_⟩
      exact blank char (List.mem_cons_of_mem first member)

theorem endsSpace_append_blank (wasSpace : Bool) (text spaces : List Char) (blank : Blank spaces)
    (some : spaces ≠ []) : endsSpace wasSpace (text ++ spaces) = true := by
  induction text generalizing wasSpace with
  | cons first rest ih => exact ih (isSpace first)
  | nil =>
      induction spaces generalizing wasSpace with
      | nil => exact absurd rfl some
      | cons first rest ih =>
          cases rest with
          | nil => exact blank first List.mem_cons_self
          | cons next rest =>
              exact ih (fun char member => blank char (List.mem_cons_of_mem first member))
                (List.cons_ne_nil _ _) (isSpace first)

variable (chars : List Char)

theorem found_append (wasSpace : Bool) (text : List Char) :
    (findCharsOrComment chars wasSpace text).1 ++ (findCharsOrComment chars wasSpace text).2 =
      text := by
  induction text generalizing wasSpace with
  | nil => rfl
  | cons first rest ih =>
      unfold findCharsOrComment
      split
      · rfl
      · exact congrArg (first :: ·) (ih (isSpace first))

theorem found_free (wasSpace : Bool) (text : List Char) :
    (∀ char ∈ (findCharsOrComment chars wasSpace text).1, char ∉ chars) ∧
      Uncommented wasSpace (findCharsOrComment chars wasSpace text).1 := by
  induction text generalizing wasSpace with
  | nil => exact ⟨nofun, trivial⟩
  | cons first rest ih =>
      unfold findCharsOrComment
      split
      · exact ⟨nofun, trivial⟩
      · rename_i passed
        rw [not_or] at passed
        obtain ⟨free, uncommented⟩ := ih (isSpace first)
        exact ⟨List.forall_mem_cons.mpr ⟨passed.1, free⟩, passed.2, uncommented⟩

/-- The search passes a text without the characters and without a comment, and stops
behind it. -/
theorem found_eq (wasSpace : Bool) (text rest : List Char) (free : ∀ char ∈ text, char ∉ chars)
    (uncommented : Uncommented wasSpace text)
    (stops : ∀ first ∈ rest.head?, first ∈ chars ∨
      (endsSpace wasSpace text = true ∧ first ∈ inlineCommentPrefixes)) :
    findCharsOrComment chars wasSpace (text ++ rest) = (text, rest) := by
  induction text generalizing wasSpace with
  | nil =>
      cases rest with
      | nil => rfl
      | cons first rest => exact if_pos (stops first rfl)
  | cons first others ih =>
      rw [List.forall_mem_cons] at free
      have passed : ¬(first ∈ chars ∨ (wasSpace = true ∧ first ∈ inlineCommentPrefixes)) :=
        not_or.mpr ⟨free.1, uncommented.1⟩
      have onward := ih (isSpace first) free.2 uncommented.2 stops
      rw [List.cons_append, findCharsOrComment, if_neg passed, onward]

end Search

end MediaplayerServer.INI
