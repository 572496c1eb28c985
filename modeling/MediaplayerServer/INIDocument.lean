import MediaplayerServer.INILine
import MediaplayerServer.INIText

set_option autoImplicit false

namespace MediaplayerServer.INI

open BoundedLines

/-- Without line breaks and NULs. -/
def Clean (text : List Char) : Prop := ∀ char ∈ text, char ≠ '\n' ∧ char ≠ '\x00'

instance (text : List Char) : Decidable (Clean text) :=
  List.decidableBAll (fun char => char ≠ '\n' ∧ char ≠ '\x00') text

/-- Whitespace within a line. -/
structure Spaces where
  chars : List Char
  blank : Blank chars
  clean : Clean chars

def Spaces.none : Spaces := ⟨[], nofun, nofun⟩

/-- The name of a section. -/
structure Title where
  chars : List Char
  clean : Clean chars
  free : ∀ char ∈ chars, char ∉ [']']
  uncommented : Uncommented false chars

/-- The name in front of a separator. -/
structure Name where
  chars : List Char
  clean : Clean chars
  trimmed : Trimmed chars
  free : ∀ char ∈ chars, char ∉ ['=', ':']
  uncommented : Uncommented false chars
  starts : ∀ first ∈ chars.head?, first ∉ startCommentPrefixes ∧ first ≠ '['

/-- The value behind a separator. -/
structure Value where
  chars : List Char
  clean : Clean chars
  trimmed : Trimmed chars
  uncommented : Uncommented false chars

/-- One more line of a value. -/
structure Continued where
  chars : List Char
  clean : Clean chars
  trimmed : Trimmed chars
  some : chars ≠ []
  starts : ∀ first ∈ chars.head?, first ∉ startCommentPrefixes

/-- One line of a document. What follows a heading is never looked at. -/
inductive Item
  | blank (spaces : Spaces)
  | comment (indent : Spaces) (mark : Char) (text : List Char)
      (marks : mark ∈ startCommentPrefixes) (clean : Clean text)
  | heading (title : Title) (rest : List Char) (clean : Clean rest)
  | pair (name : Name) (gap : Spaces) (separator : Char) (lead : Spaces) (value : Value)
      (trail : Spaces) (remark : List Char) (separates : separator ∈ ['=', ':'])
      (named : name.chars = [] → gap.chars = [])
      (apart : lead.chars ≠ [] → Uncommented true value.chars)
      (remarks : remark = [] ∨ (trail.chars ≠ [] ∧ remark.head? = some ';'))
      (clean : Clean remark)
  | continuation (indent : Spaces) (value : Continued) (trail : Spaces)
      (indented : indent.chars ≠ [])

def Item.text : Item → List Char
  | .blank spaces => spaces.chars
  | .comment indent mark text _ _ => indent.chars ++ mark :: text
  | .heading title rest _ => '[' :: title.chars ++ ']' :: rest
  | .pair name gap separator lead value trail remark _ _ _ _ _ =>
      name.chars ++ gap.chars ++
        separator :: (lead.chars ++ value.chars ++ (trail.chars ++ remark))
  | .continuation indent value trail _ => indent.chars ++ value.chars ++ trail.chars

/-- What the line is meant to say. -/
def Item.line : Item → Line
  | .blank _ => .ignored
  | .comment _ _ _ _ _ => .ignored
  | .heading title _ _ => .heading title.chars
  | .pair name _ _ _ value _ _ _ _ _ _ _ => .pair name.chars value.chars
  | .continuation _ value _ _ => .continuation value.chars

/-- The line continues the value of the line before it. -/
def Item.continues : Item → Bool
  | .continuation _ _ _ _ => true
  | _ => false

theorem classifyStart_visible (marked continues : Bool) (first : Char) (rest : List Char)
    (unspaced : isSpace first = false) (plain : first ∉ startCommentPrefixes)
    (fresh : marked = true → continues = false) :
    classifyStart marked continues (first :: rest) = classifyText (first :: rest) := by
  have whole := (lskip_cons_iff first rest).mpr unspaced
  unfold classifyStart
  dsimp only
  rw [whole]
  dsimp only
  rw [if_neg plain, if_neg]
  rintro ⟨continuing, mark | shorter⟩
  · rw [fresh mark] at continuing
    cases continuing
  · exact Nat.lt_irrefl _ shorter

theorem isSpace_separator (separator : Char) (separates : separator ∈ ['=', ':']) :
    isSpace separator = false ∧ separator ∉ startCommentPrefixes ∧ separator ≠ '[' := by
  rcases List.mem_pair.mp separates with rfl | rfl <;> decide

theorem isSpace_mark (mark : Char) (marks : mark ∈ startCommentPrefixes) :
    isSpace mark = false := by
  rcases List.mem_pair.mp marks with rfl | rfl <;> rfl

/-- A pair's line starts with its name, or with the separator if that is empty. -/
theorem Name.starting (name : Name) (gap : Spaces) (separator : Char) (rest : List Char)
    (separates : separator ∈ ['=', ':']) (named : name.chars = [] → gap.chars = []) :
    ∃ first others, name.chars ++ gap.chars ++ separator :: rest = first :: others ∧
      isSpace first = false ∧ first ∉ startCommentPrefixes ∧ first ≠ '[' := by
  cases chars : name.chars with
  | nil => exact ⟨separator, rest, by rw [named chars]; rfl, isSpace_separator separator separates⟩
  | cons first others =>
      have left := name.trimmed.left
      have starts := name.starts first (by rw [chars]; rfl)
      rw [chars] at left
      exact ⟨first, others ++ gap.chars ++ separator :: rest, rfl,
        (lskip_cons_iff first others).mp left, starts⟩

/-- The text behind a separator, up to the comment, is the value with whitespace around it. -/
theorem Value.found (value : Value) (lead trail : Spaces) (remark : List Char)
    (apart : lead.chars ≠ [] → Uncommented true value.chars)
    (remarks : remark = [] ∨ (trail.chars ≠ [] ∧ remark.head? = some ';')) :
    rstrip (lskip (findCharsOrComment [] false
      (rstrip (lead.chars ++ value.chars ++ (trail.chars ++ remark) ++ ['\n']))).1) =
      value.chars := by
  have padded : Uncommented false (lead.chars ++ value.chars) := by
    refine (uncommented_append _ _ _).mpr ⟨uncommented_blank _ _ lead.blank, ?_⟩
    by_cases some : lead.chars = []
    · rw [some]
      exact value.uncommented
    · have spaced := endsSpace_append_blank false [] lead.chars lead.blank some
      rw [List.nil_append] at spaced
      rw [spaced]
      exact apart some
  have whole : ∀ behind, Blank behind →
      Uncommented false (lead.chars ++ value.chars ++ behind) := fun behind blank =>
    (uncommented_append _ _ _).mpr ⟨padded, uncommented_blank _ _ blank⟩
  rcases remarks with rfl | ⟨spaced, comment⟩
  · have blank : Blank (trail.chars ++ ['\n']) := trail.blank.append blank_newline
    have free := (whole _ blank).left (rstrip_isPrefix _)
    have all := found_eq [] false _ [] (fun _ _ => List.not_mem_nil) free nofun
    rw [List.append_nil] at all
    rw [List.append_nil, List.append_assoc, all, strip_rstrip,
      strip_padded _ _ _ lead.blank value.trimmed blank]
  · obtain ⟨mark, text, rfl⟩ := List.exists_cons_of_ne_nil
      (fun none : remark = [] => by rw [none] at comment; cases comment)
    obtain rfl : mark = ';' := Option.some.inj comment
    have visible := rstrip_cons ';' (text ++ ['\n']) rfl
    have cut : rstrip (lead.chars ++ value.chars ++ (trail.chars ++ ';' :: text) ++ ['\n']) =
        lead.chars ++ value.chars ++ trail.chars ++ ';' :: rstrip (text ++ ['\n']) := by
      rw [← visible, ← rstrip_append_visible _ _ (by rw [visible]; exact List.cons_ne_nil _ _)]
      simp only [List.append_assoc, List.cons_append]
    have ended := endsSpace_append_blank false (lead.chars ++ value.chars) trail.chars
      trail.blank spaced
    have found := found_eq [] false (lead.chars ++ value.chars ++ trail.chars)
      (';' :: rstrip (text ++ ['\n'])) (fun _ _ => List.not_mem_nil) (whole _ trail.blank) (by
        rintro first ⟨⟩
        exact Or.inr ⟨ended, List.mem_singleton.mpr rfl⟩)
    rw [cut, found, strip_padded _ _ _ lead.blank value.trimmed trail.blank]

/-- The parser reads in each line of a document what it is meant to say. -/
theorem classifyStart_item (marked continues : Bool) (item : Item)
    (allowed : item.continues = true → continues = true)
    (fresh : marked = true → continues = false) :
    classifyStart marked continues (rstrip (item.text ++ ['\n'])) = item.line := by
  cases item with
  | blank spaces =>
      rw [Item.text, rstrip_blank _ (spaces.blank.append blank_newline)]
      rfl
  | comment indent mark text marks clean =>
      have unspaced := isSpace_mark mark marks
      have visible := rstrip_cons mark (text ++ ['\n']) unspaced
      have start : rstrip (indent.chars ++ mark :: text ++ ['\n']) =
          indent.chars ++ mark :: rstrip (text ++ ['\n']) := by
        rw [← visible, ← rstrip_append_visible _ _ (by rw [visible]; exact List.cons_ne_nil _ _),
          List.append_assoc, List.cons_append]
      have skipped : lskip (indent.chars ++ mark :: rstrip (text ++ ['\n'])) =
          mark :: rstrip (text ++ ['\n']) :=
        (lskip_blank_append _ _ indent.blank).trans ((lskip_cons_iff _ _).mpr unspaced)
      rw [Item.text, start, classifyStart, skipped]
      exact if_pos marks
  | heading title rest clean =>
      have visible := rstrip_cons ']' (rest ++ ['\n']) rfl
      have start : rstrip ('[' :: title.chars ++ ']' :: rest ++ ['\n']) =
          '[' :: (title.chars ++ ']' :: rstrip (rest ++ ['\n'])) := by
        rw [← visible, ← List.cons_append,
          ← rstrip_append_visible _ _ (by rw [visible]; exact List.cons_ne_nil _ _)]
        simp only [List.append_assoc, List.cons_append]
      have found := found_eq [']'] false title.chars (']' :: rstrip (rest ++ ['\n']))
        title.free title.uncommented (by
          rintro first ⟨⟩
          exact Or.inl (List.mem_singleton.mpr rfl))
      rw [Item.text, start, classifyStart_visible _ _ _ _ rfl (by decide) fresh,
        classifyText_heading, found]
      rfl
  | pair name gap separator lead value trail remark separates named apart remarks clean =>
      have unspaced := (isSpace_separator separator separates).1
      let after := rstrip (lead.chars ++ value.chars ++ (trail.chars ++ remark) ++ ['\n'])
      have start : rstrip (name.chars ++ gap.chars ++
          separator :: (lead.chars ++ value.chars ++ (trail.chars ++ remark)) ++ ['\n']) =
          name.chars ++ gap.chars ++ separator :: after := by
        have visible := rstrip_cons separator
          (lead.chars ++ value.chars ++ (trail.chars ++ remark) ++ ['\n']) unspaced
        rw [List.append_assoc (name.chars ++ gap.chars), List.cons_append,
          rstrip_append_visible _ _ (by rw [visible]; exact List.cons_ne_nil _ _), visible]
      obtain ⟨first, others, split, visible, plain, bracket⟩ :=
        name.starting gap separator after separates named
      have found := found_eq ['=', ':'] false (name.chars ++ gap.chars) (separator :: after)
        (by
          intro char member
          rcases List.mem_append.mp member with inside | spaced
          · exact name.free char inside
          · intro equal
            have other := (isSpace_separator char equal).1
            rw [gap.blank char spaced] at other
            cases other)
        ((uncommented_append _ _ _).mpr ⟨name.uncommented, uncommented_blank _ _ gap.blank⟩) (by
          rintro first ⟨⟩
          exact Or.inl separates)
      rw [Item.text, start, split, classifyStart_visible _ _ _ _ visible plain fresh,
        classifyText_pair _ _ bracket, ← split, found]
      dsimp only
      rw [if_pos (List.mem_pair.mp separates), rstrip_append_blank _ _ gap.blank,
        name.trimmed.right, value.found lead trail remark apart remarks, Item.line]
  | continuation indent value trail indented =>
      have start : rstrip (indent.chars ++ value.chars ++ trail.chars ++ ['\n']) =
          indent.chars ++ value.chars := by
        rw [List.append_assoc, rstrip_append_blank _ _ (trail.blank.append blank_newline),
          rstrip_append _ _ value.some value.trimmed.right]
      have skipped : lskip (indent.chars ++ value.chars) = value.chars :=
        (lskip_blank_append _ _ indent.blank).trans value.trimmed.left
      obtain ⟨first, others, split⟩ := List.exists_cons_of_ne_nil value.some
      have plain := value.starts first (by rw [split]; rfl)
      have shorter : value.chars.length < (indent.chars ++ value.chars).length := by
        have positive := List.length_pos_of_ne_nil indented
        rw [List.length_append]
        omega
      rw [Item.text, start, classifyStart, skipped, split]
      rw [split] at shorter
      dsimp only
      rw [if_neg plain, if_pos ⟨allowed rfl, Or.inr shorter⟩, Item.line, split]

theorem Clean.append {text rest : List Char} (left : Clean text) (right : Clean rest) :
    Clean (text ++ rest) :=
  fun char member => (List.mem_append.mp member).elim (left char) (right char)

theorem Clean.cons {first : Char} {rest : List Char} (here : first ≠ '\n' ∧ first ≠ '\x00')
    (right : Clean rest) : Clean (first :: rest) :=
  List.forall_mem_cons.mpr ⟨here, right⟩

theorem Item.clean (item : Item) : Clean item.text := by
  cases item with
  | blank spaces => exact spaces.clean
  | comment indent mark text marks clean =>
      refine indent.clean.append (Clean.cons ?_ clean)
      rcases List.mem_pair.mp marks with rfl | rfl <;> decide
  | heading title rest clean =>
      exact Clean.append (Clean.cons (by decide) title.clean) (Clean.cons (by decide) clean)
  | pair name gap separator lead value trail remark separates named apart remarks clean =>
      refine (name.clean.append gap.clean).append (Clean.cons ?_ ?_)
      · rcases List.mem_pair.mp separates with rfl | rfl <;> decide
      · exact (lead.clean.append value.clean).append (trail.clean.append clean)
  | continuation indent value trail indented =>
      exact (indent.clean.append value.clean).append trail.clean

/-- Continuations come only where there is a name to continue. -/
def Ordered : Context → List Item → Prop
  | _, [] => True
  | context, item :: rest =>
      (item.continues = true → context.prevName ≠ []) ∧ Ordered (context.next item.line) rest

/-- What the lines are meant to say, each in its context. -/
def itemReadings : Context → List Item → List Reading
  | _, [] => []
  | context, item :: rest => ⟨context, item.line⟩ :: itemReadings (context.next item.line) rest

/-- `marked` is set where the text begins with a byte order mark. Every line fits into the
parser's buffer, with its line break and a NUL behind it. -/
structure Document where
  marked : Bool
  items : List Item
  ordered : Ordered Context.initial items
  fits : ∀ item ∈ items, item.text.length + 2 ≤ iniMaxLine
  mark : marked = true →
    ∀ first ∈ items.head?, bom.length + first.text.length + 2 ≤ iniMaxLine
  unmarked : marked = false → ∀ first ∈ items.head?, ¬bom <+: first.text

/-- The lines of a document, without their line breaks. -/
def Document.bodies (document : Document) : List (List Char) :=
  match document.items with
  | [] => []
  | first :: rest =>
      ((if document.marked then bom else []) ++ first.text) :: rest.map Item.text

def Document.text (document : Document) : List Char :=
  document.bodies.flatMap fun body => body ++ ['\n']

/-- The pairs that the parser hands over, with the names it keeps cut to its buffers. -/
def Document.calls (document : Document) : List Call :=
  (itemReadings Context.initial document.items).filterMap Reading.call

/-- Where a line stands by what the document says: in which section, behind which name. -/
structure Place where
  sectionName : List Char
  name : List Char

def Place.after (place : Place) : Item → Place
  | .heading title _ _ => ⟨title.chars, []⟩
  | .pair name _ _ _ _ _ _ _ _ _ _ _ => { place with name := name.chars }
  | _ => place

/-- The pair that a line gives by what it says. -/
def Item.meant (place : Place) : Item → Option Call
  | .pair name _ _ _ value _ _ _ _ _ _ _ => some ⟨place.sectionName, name.chars, value.chars⟩
  | .continuation _ value _ _ => some ⟨place.sectionName, place.name, value.chars⟩
  | _ => none

def meanings : Place → List Item → List Call
  | _, [] => []
  | place, item :: rest => (item.meant place).toList ++ meanings (place.after item) rest

/-- The pairs that a document holds. -/
def Document.meant (document : Document) : List Call := meanings ⟨[], []⟩ document.items

/-- The names of sections with pairs in them, and the names whose values are continued, have
room in the parser's buffers. -/
def Short : Place → List Item → Prop
  | _, [] => True
  | place, item :: rest =>
      ((item.meant place).isSome = true → place.sectionName.length < maxSection) ∧
        (item.continues = true → place.name.length < maxName) ∧ Short (place.after item) rest

instance decidableShort : ∀ place items, Decidable (Short place items)
  | _, [] => isTrue trivial
  | place, item :: rest =>
      have := decidableShort (place.after item) rest
      inferInstanceAs (Decidable (_ ∧ _ ∧ _))

/-- What the parser keeps of a place. -/
def Place.context (place : Place) : Context :=
  ⟨strncpy0 place.sectionName maxSection, strncpy0 place.name maxName⟩

theorem strncpy0_short (name : List Char) (size : Nat) (room : name.length < size) :
    strncpy0 name size = name :=
  List.take_of_length_le (Nat.le_sub_one_of_lt room)

theorem context_after (place : Place) (item : Item) :
    place.context.next item.line = (place.after item).context := by
  cases item with
  | blank spaces => rfl
  | comment indent mark text marks clean => rfl
  | heading title rest clean => rfl
  | pair name gap separator lead value trail remark separates named apart remarks clean => rfl
  | continuation indent value trail indented => rfl

/-- Where the names have room, the parser's pairs are the document's. -/
theorem call_meant (place : Place) (item : Item)
    (titled : (item.meant place).isSome = true → place.sectionName.length < maxSection)
    (named : item.continues = true → place.name.length < maxName) :
    Reading.call ⟨place.context, item.line⟩ = item.meant place := by
  cases item with
  | blank spaces => rfl
  | comment indent mark text marks clean => rfl
  | heading title rest clean => rfl
  | pair name gap separator lead value trail remark separates named apart remarks clean =>
      rw [Item.line, Reading.call, Place.context, strncpy0_short _ _ (titled rfl)]
      rfl
  | continuation indent value trail indented =>
      rw [Item.line, Reading.call, Place.context, strncpy0_short _ _ (titled rfl),
        strncpy0_short _ _ (named rfl)]
      rfl

theorem meanings_eq (place : Place) (items : List Item) (short : Short place items) :
    (itemReadings place.context items).filterMap Reading.call = meanings place items := by
  induction items generalizing place with
  | nil => rfl
  | cons item rest ih =>
      obtain ⟨titled, named, later⟩ := short
      have onward := ih (place.after item) later
      rw [itemReadings, filterMap_call_cons, call_meant place item titled named, context_after,
        onward, meanings]

theorem Document.calls_eq (document : Document) (short : Short ⟨[], []⟩ document.items) :
    document.calls = document.meant :=
  meanings_eq ⟨[], []⟩ document.items short

theorem Document.bodies_clean (document : Document) :
    ∀ body ∈ document.bodies, Clean body ∧ body.length + 2 ≤ iniMaxLine := by
  unfold Document.bodies
  have fits := document.fits
  have mark := document.mark
  cases items : document.items with
  | nil => nofun
  | cons first rest =>
      rw [items] at fits mark
      rw [List.forall_mem_cons] at fits
      refine List.forall_mem_cons.mpr ⟨?_, List.forall_mem_map.mpr fun item member =>
        ⟨item.clean, fits.2 item member⟩⟩
      cases marked : document.marked with
      | false => exact ⟨first.clean, fits.1⟩
      | true =>
          have clean : Clean bom := by
            intro char member
            rcases List.mem_cons.mp member with rfl | later
            · decide
            · rcases List.mem_pair.mp later with rfl | rfl <;> decide
          refine ⟨clean.append first.clean, ?_⟩
          rw [if_pos rfl, List.length_append]
          exact mark marked first rfl

theorem endsLine_clean (body : List Char) (clean : Clean body) :
    ∀ char ∈ body, endsLine char = false := by
  intro char member
  exact beq_false_of_ne (clean char member).1

theorem lines_bodies (bodies : List (List Char)) (clean : ∀ body ∈ bodies, Clean body) :
    lines endsLine (bodies.flatMap fun body => body ++ ['\n']) =
      bodies.map fun body => body ++ ['\n'] := by
  induction bodies with
  | nil => rfl
  | cons body rest ih =>
      rw [List.forall_mem_cons] at clean
      rw [List.flatMap_cons, List.append_assoc, List.singleton_append,
        lines_append endsLine body _ '\n' (endsLine_clean body clean.1) rfl, ih clean.2,
        List.map_cons]

theorem cString_line (body : List Char) (clean : Clean body) :
    cString (body ++ ['\n']) = body ++ ['\n'] := by
  refine List.takeWhile_eq_self_iff.mpr fun char member => ?_
  rcases List.mem_append.mp member with inside | last
  · exact decide_eq_true (clean char inside).2
  · rw [List.mem_singleton.mp last]
    rfl

theorem fileLines_text (document : Document) :
    fileLines document.text = document.bodies.map fun body => body ++ ['\n'] := by
  have clean := document.bodies_clean
  have single : ∀ body ∈ document.bodies,
      (cut (iniMaxLine - 1) (body ++ ['\n'])).map cString = [body ++ ['\n']] := by
    intro body member
    have fits := (clean body member).2
    have within : (body ++ ['\n']).length ≤ iniMaxLine - 1 := by
      rw [List.length_append, List.length_singleton]
      omega
    rw [cut_of_fits _ _ (List.append_ne_nil_of_right_ne_nil body (List.cons_ne_nil _ _)) within,
      List.map_singleton, cString_line body (clean body member).1]
  rw [fileLines, Document.text, lines_bodies _ fun body member => (clean body member).1,
    List.map_flatMap, List.flatMap_map, List.flatMap_congr single]
  exact (List.map_eq_flatMap ..).symm

theorem readings_items (context : Context) (items : List Item)
    (ordered : Ordered context items) :
    readings false context (items.map fun item => item.text ++ ['\n']) =
      itemReadings context items := by
  induction items generalizing context with
  | nil => rfl
  | cons item rest ih =>
      have line : classify false (decide (context.prevName ≠ [])) (item.text ++ ['\n']) =
          item.line :=
        classifyStart_item false _ item (fun continues => decide_eq_true (ordered.1 continues))
          nofun
      rw [List.map_cons, readings, line]
      exact congrArg (_ :: ·) (ih _ ordered.2)

theorem bom_prefix_line (text : List Char) (mark : bom <+: text ++ ['\n']) : bom <+: text := by
  rcases List.prefix_concat_iff.mp mark with same | inside
  · have last := congrArg List.getLast? same
    rw [List.getLast?_concat] at last
    cases last
  · exact inside

/-- The parser reads a document's lines as they are meant. -/
theorem readings_document (document : Document) :
    readings true Context.initial (fileLines document.text) =
      itemReadings Context.initial document.items := by
  rw [fileLines_text, Document.bodies]
  have ordered := document.ordered
  have unmarked := document.unmarked
  cases items : document.items with
  | nil => rfl
  | cons first rest =>
      rw [items] at ordered unmarked
      have fresh : first.continues = true → false = true := fun continues =>
        absurd rfl (ordered.1 continues)
      have line : classify true false
          ((if document.marked then bom else []) ++ first.text ++ ['\n']) = first.line := by
        unfold classify
        cases marked : document.marked with
        | true =>
            have starts : bom.isPrefixOf (bom ++ first.text ++ ['\n']) = true :=
              List.isPrefixOf_iff_prefix.mpr ⟨first.text ++ ['\n'], by rw [List.append_assoc]⟩
            rw [if_pos rfl, starts, Bool.and_true]
            dsimp only
            rw [if_pos rfl, List.append_assoc, List.drop_left]
            exact classifyStart_item true false first fresh fun _ => rfl
        | false =>
            have starts : bom.isPrefixOf (first.text ++ ['\n']) = false := by
              rw [Bool.eq_false_iff]
              intro mark
              exact unmarked marked first rfl
                (bom_prefix_line _ (List.isPrefixOf_iff_prefix.mp mark))
            rw [if_neg Bool.false_ne_true, List.nil_append, starts, Bool.and_false]
            dsimp only
            rw [if_neg Bool.false_ne_true]
            exact classifyStart_item false false first fresh nofun
      have others := readings_items (Context.initial.next first.line) rest ordered.2
      dsimp only
      rw [List.map_cons, List.map_map, readings]
      have empty : decide (Context.initial.prevName ≠ []) = false := rfl
      rw [empty, line, itemReadings]
      exact congrArg (_ :: ·) others

theorem Item.line_formed (item : Item) : item.line ≠ .malformed := by
  cases item <;> nofun

theorem itemReadings_formed (context : Context) (items : List Item) :
    ∀ reading ∈ itemReadings context items, reading.line ≠ .malformed := by
  induction items generalizing context with
  | nil => nofun
  | cons item rest ih => exact List.forall_mem_cons.mpr ⟨item.line_formed, ih _⟩

/-- Without a malformed line, only the handler can make the parser fail. -/
theorem reports_formed {υ : Type} (handler : Handler υ) (user : υ) (readings : List Reading)
    (lineno error : Nat) (formed : ∀ reading ∈ readings, reading.line ≠ .malformed)
    (accepts : ∀ user sectionName name value, (handler user sectionName name value).2 = true)
    (reports : Reports handler user readings lineno error) : error = 0 := by
  rcases reports with ⟨none, -⟩ | ⟨index, -, ⟨reading, given, fails⟩, -⟩
  · exact none
  · rcases fails with malformed | ⟨pair, -, refused⟩
    · exact absurd malformed (formed reading (List.mem_of_getElem? given))
    · rw [accepts] at refused
      cases refused

/-- Whatever a document's layout, the parser hands over the pairs that it is meant to hold,
and a handler that accepts them all lets it report success. -/
theorem parse_document {υ : Type} (handler : Handler υ) (document : Document) (user : υ) :
    (iniParseFile handler document.text user).1 = feed handler user document.calls ∧
      ((∀ user sectionName name value, (handler user sectionName name value).2 = true) →
        (iniParseFile handler document.text user).2 = 0) := by
  obtain ⟨fed, error, returned, reports⟩ := iniParseFile_reads handler document.text user
  rw [calls, readings_document] at fed
  rw [readings_document] at reports
  refine ⟨fed, fun accepts => ?_⟩
  rw [returned, reports_formed handler user _ 0 error (itemReadings_formed _ _) accepts reports]
  rfl

end MediaplayerServer.INI
