import MediaplayerServer.INIDocument

set_option autoImplicit false

namespace MediaplayerServer.INI

open BoundedLines

/-- A buffer's text: clean up to a line break at its end, and with room for that and a NUL. -/
structure Tidy (text body : List Char) : Prop where
  clean : Clean body
  split : text = body ∨ text = body ++ ['\n']
  fits : body.length + 2 ≤ iniMaxLine

theorem Clean.of_isPrefix {text whole : List Char} (clean : Clean whole) (inside : text <+: whole) :
    Clean text :=
  fun char member => clean char (inside.subset member)

theorem Clean.of_isSuffix {text whole : List Char} (clean : Clean whole) (inside : text <:+ whole) :
    Clean text :=
  fun char member => clean char (inside.subset member)

/-- Without the whitespace at its end, the text of a line is clean and not too long. -/
theorem Tidy.start {text body : List Char} (tidy : Tidy text body) (count : Nat) :
    Clean (rstrip (text.drop count)) ∧ (rstrip (text.drop count)).length + 2 ≤ iniMaxLine := by
  have dropped : rstrip (text.drop count) = rstrip (body.drop count) := by
    rcases tidy.split with rfl | rfl
    · rfl
    · rw [List.drop_append]
      refine rstrip_append_blank _ _ fun char member => ?_
      exact blank_newline char (List.mem_of_mem_drop member)
  have shorter := (rstrip_isPrefix (body.drop count)).length_le
  rw [List.length_drop] at shorter
  have fits := tidy.fits
  rw [dropped]
  have clean := tidy.clean.of_isSuffix (List.drop_suffix count body)
  refine ⟨clean.of_isPrefix (rstrip_isPrefix _), ?_⟩
  omega

/-- A line that says something could have been written as this item. -/
def Writes (line : Line) (continues : Bool) (room : Nat) : Prop :=
  ∃ item : Item, item.line = line ∧ (item.continues = true → continues = true) ∧
    item.text.length ≤ room

theorem found_length (chars : List Char) (wasSpace : Bool) (text : List Char) :
    (findCharsOrComment chars wasSpace text).1.length +
      (findCharsOrComment chars wasSpace text).2.length = text.length := by
  rw [← List.length_append, found_append]

theorem found_isPrefix (chars : List Char) (wasSpace : Bool) (text : List Char) :
    (findCharsOrComment chars wasSpace text).1 <+: text :=
  ⟨_, found_append chars wasSpace text⟩

theorem writes_heading (continues : Bool) (rest : List Char) (clean : Clean rest)
    (closed : (findCharsOrComment [']'] false rest).2.head? = some ']') :
    Writes (.heading (findCharsOrComment [']'] false rest).1) continues (rest.length + 1) := by
  obtain ⟨free, uncommented⟩ := found_free [']'] false rest
  let title : Title := ⟨_, clean.of_isPrefix (found_isPrefix _ _ _), free, uncommented⟩
  refine ⟨.heading title [] (List.forall_mem_nil _), rfl,
    fun continued => absurd continued Bool.false_ne_true, ?_⟩
  have length := found_length [']'] false rest
  have some : 0 < (findCharsOrComment [']'] false rest).2.length := by
    refine List.length_pos_of_ne_nil fun none => ?_
    rw [none] at closed
    cases closed
  show (('[' :: (findCharsOrComment [']'] false rest).1) ++ [']']).length ≤ rest.length + 1
  rw [List.length_append, List.length_cons, List.length_singleton]
  omega

theorem writes_pair (continues : Bool) (first separator : Char) (rest after : List Char)
    (clean : Clean (first :: rest)) (unspaced : isSpace first = false)
    (plain : first ∉ startCommentPrefixes) (bracket : first ≠ '[')
    (stopped : (findCharsOrComment ['=', ':'] false (first :: rest)).2 = separator :: after) :
    Writes
      (.pair (rstrip (findCharsOrComment ['=', ':'] false (first :: rest)).1)
        (rstrip (lskip (findCharsOrComment [] false after).1)))
      continues (first :: rest).length := by
  have whole := found_append ['=', ':'] false (first :: rest)
  have length := found_length ['=', ':'] false (first :: rest)
  obtain ⟨free, uncommented⟩ := found_free ['=', ':'] false (first :: rest)
  have front := found_isPrefix ['=', ':'] false (first :: rest)
  rw [stopped] at whole length
  generalize (findCharsOrComment ['=', ':'] false (first :: rest)).1 = text at *
  have left : lskip (rstrip text) = rstrip text :=
    lskip_of_prefix ((rstrip_isPrefix text).trans front) ((lskip_cons_iff _ _).mpr unspaced)
  have starts : ∀ char ∈ (rstrip text).head?, char ∉ startCommentPrefixes ∧ char ≠ '[' := by
    intro char head
    obtain ⟨others, same⟩ := List.head?_eq_some_iff.mp head
    obtain ⟨behind, split⟩ := (rstrip_isPrefix text).trans front
    rw [same, List.cons_append, List.cons.injEq] at split
    rw [split.1]
    exact ⟨plain, bracket⟩
  let name : Name :=
    { chars := rstrip text
      clean := (clean.of_isPrefix front).of_isPrefix (rstrip_isPrefix text)
      trimmed := ⟨left, rstrip_idempotent text⟩
      free := fun char member => free char (mem_rstrip member)
      uncommented := uncommented.left (rstrip_isPrefix text)
      starts := starts }
  have afterClean : Clean after := clean.of_isSuffix ⟨text ++ [separator], by
    rw [← whole, List.append_assoc, List.singleton_append]⟩
  obtain ⟨-, valueFree⟩ := found_free [] false after
  have inner := found_isPrefix [] false after
  have valueLength := found_length [] false after
  generalize (findCharsOrComment [] false after).1 = found at *
  let value : Value :=
    { chars := rstrip (lskip found)
      clean := ((afterClean.of_isPrefix inner).of_isSuffix (lskip_suffix found)).of_isPrefix
        (rstrip_isPrefix _)
      trimmed := trimmed_strip found
      uncommented := (valueFree.right (lskip_suffix found)).left (rstrip_isPrefix _) }
  refine ⟨.pair name .none '=' .none value .none [] (by decide) (fun _ => rfl)
    (fun some => absurd rfl some) (Or.inl rfl) (List.forall_mem_nil _), rfl,
    fun continued => absurd continued Bool.false_ne_true, ?_⟩
  have nameLength : name.chars.length ≤ text.length := (rstrip_isPrefix text).length_le
  have valueShort : value.chars.length ≤ found.length :=
    (rstrip_isPrefix _).length_le.trans (lskip_suffix found).length_le
  show (name.chars ++ [] ++ '=' :: ([] ++ value.chars ++ ([] ++ []))).length ≤ _
  simp only [List.append_nil, List.nil_append, List.length_append, List.length_cons] at length ⊢
  omega

theorem writes_text (continues : Bool) (first : Char) (rest : List Char)
    (clean : Clean (first :: rest)) (unspaced : isSpace first = false)
    (plain : first ∉ startCommentPrefixes) :
    classifyText (first :: rest) = .malformed ∨
      Writes (classifyText (first :: rest)) continues (first :: rest).length := by
  by_cases bracket : first = '['
  · subst bracket
    rw [classifyText_heading]
    split
    · rename_i closed
      exact Or.inr (writes_heading continues rest
        (fun char member => clean char (List.mem_cons_of_mem _ member)) closed)
    · exact Or.inl rfl
  · rw [classifyText_pair first rest bracket]
    split
    · exact Or.inl rfl
    · rename_i separator after stopped
      split
      · exact Or.inr
          (writes_pair continues first separator rest after clean unspaced plain bracket stopped)
      · exact Or.inl rfl

/-- Every line is ignored, malformed, or says what some item says. -/
theorem writes_start (marked continues : Bool) (start : List Char) (clean : Clean start)
    (right : rstrip start = start) (fresh : marked = true → continues = false) :
    classifyStart marked continues start = .ignored ∨
      classifyStart marked continues start = .malformed ∨
        Writes (classifyStart marked continues start) continues start.length := by
  have inside := lskip_suffix start
  have trimmed : Trimmed (lskip start) :=
    ⟨lskip_idempotent start, rstrip_of_suffix inside right⟩
  have textClean := clean.of_isSuffix inside
  have room := inside.length_le
  unfold classifyStart
  dsimp only
  cases text : lskip start with
  | nil => exact Or.inl rfl
  | cons first rest =>
      rw [text] at trimmed textClean room
      have unspaced := (lskip_cons_iff first rest).mp trimmed.left
      dsimp only
      by_cases comment : first ∈ startCommentPrefixes
      · exact Or.inl (if_pos comment)
      · rw [if_neg comment]
        right
        split
        · rename_i continuing
          right
          have shorter : (first :: rest).length < start.length :=
            continuing.2.resolve_left fun mark => by
              rw [fresh mark] at continuing
              exact Bool.false_ne_true continuing.1
          let value : Continued :=
            { chars := first :: rest
              clean := textClean
              trimmed := trimmed
              some := List.cons_ne_nil _ _
              starts := by
                rintro char ⟨⟩
                exact comment }
          have indent : Blank [' '] ∧ Clean [' '] := by
            constructor <;> intro char member <;> rw [List.mem_singleton.mp member] <;> decide
          refine ⟨.continuation ⟨[' '], indent.1, indent.2⟩ value .none (List.cons_ne_nil _ _),
            rfl, fun _ => continuing.1, ?_⟩
          show ([' '] ++ first :: rest ++ []).length ≤ start.length
          rw [List.append_nil, List.length_append, List.length_singleton]
          omega
        · refine (writes_text continues first rest textClean unspaced comment).imp_right ?_
          rintro ⟨item, line, allowed, short⟩
          exact ⟨item, line, allowed, short.trans room⟩

theorem writes_line (first continues : Bool) (text body : List Char) (tidy : Tidy text body)
    (fresh : first = true → continues = false) :
    classify first continues text = .ignored ∨ classify first continues text = .malformed ∨
      Writes (classify first continues text) continues (iniMaxLine - 2) := by
  have start : ∃ count, (if (first && bom.isPrefixOf text) = true then text.drop bom.length
      else text) = text.drop count := by
    split
    · exact ⟨bom.length, rfl⟩
    · exact ⟨0, rfl⟩
  obtain ⟨count, same⟩ := start
  obtain ⟨clean, fits⟩ := tidy.start count
  unfold classify
  dsimp only
  rw [same]
  refine (writes_start _ continues _ clean (rstrip_idempotent _) ?_).imp_right
    (Or.imp_right ?_)
  · intro marked
    exact fresh (Bool.and_eq_true_iff.mp marked).1
  · rintro ⟨item, line, allowed, short⟩
    exact ⟨item, line, allowed, by omega⟩

/-- A line that says nothing leaves the context as it was, and gives no pair. -/
theorem next_silent (context : Context) (line : Line)
    (silent : line = .ignored ∨ line = .malformed) :
    context.next line = context ∧ Reading.call ⟨context, line⟩ = none := by
  rcases silent with rfl | rfl <;> exact ⟨rfl, rfl⟩

/-- The pairs of tidy lines are those of some items. -/
theorem items_of_lines (first : Bool) (context : Context) (texts : List (List Char))
    (tidy : ∀ text ∈ texts, ∃ body, Tidy text body)
    (fresh : first = true → context.prevName = []) :
    ∃ items, Ordered context items ∧ (∀ item ∈ items, item.text.length + 2 ≤ iniMaxLine) ∧
      (itemReadings context items).filterMap Reading.call = calls first context texts := by
  induction texts generalizing first context with
  | nil => exact ⟨[], trivial, nofun, rfl⟩
  | cons text rest ih =>
      rw [List.forall_mem_cons] at tidy
      obtain ⟨⟨body, here⟩, later⟩ := tidy
      have empty : first = true → decide (context.prevName ≠ []) = false := fun initial =>
        decide_eq_false (not_not_intro (fresh initial))
      let line := classify first (decide (context.prevName ≠ [])) text
      obtain ⟨items, ordered, fits, same⟩ := ih false (context.next line) later nofun
      have split : calls first context (text :: rest) =
          (Reading.call ⟨context, line⟩).toList ++ calls false (context.next line) rest :=
        filterMap_call_cons _ _
      rw [split, ← same]
      rcases writes_line first _ text body here empty with ignored | malformed | writes
      · obtain ⟨kept, none⟩ := next_silent context line (Or.inl ignored)
        rw [kept] at ordered ⊢
        exact ⟨items, ordered, fits, by rw [none]; rfl⟩
      · obtain ⟨kept, none⟩ := next_silent context line (Or.inr malformed)
        rw [kept] at ordered ⊢
        exact ⟨items, ordered, fits, by rw [none]; rfl⟩
      · obtain ⟨item, reads, allowed, short⟩ := writes
        have reads : item.line = line := reads
        have room : item.text.length + 2 ≤ iniMaxLine := by
          have positive : 2 ≤ iniMaxLine := by decide
          omega
        refine ⟨item :: items, ⟨fun continues => of_decide_eq_true (allowed continues), ?_⟩,
          List.forall_mem_cons.mpr ⟨room, fits⟩, ?_⟩
        · rwa [reads]
        · rw [itemReadings, reads, filterMap_call_cons]

/-- What a file's buffers hold is tidy if its lines are short enough. -/
theorem tidy_fileLines (file : List Char)
    (short : ∀ line ∈ lines endsLine file, (line.filter (· ≠ '\n')).length + 2 ≤ iniMaxLine) :
    ∀ text ∈ fileLines file, ∃ body, Tidy text body := by
  intro text member
  obtain ⟨piece, inside, rfl⟩ := List.mem_map.mp member
  obtain ⟨line, given, cutting⟩ := List.mem_flatMap.mp inside
  have nonempty := lines_ne_nil endsLine file line given
  have room := short line given
  obtain ⟨body, free, split⟩ := line_split endsLine file line given
  have plain : body.filter (· ≠ '\n') = body := by
    refine List.filter_eq_self.mpr fun char inBody => ?_
    exact decide_eq_true (ne_of_beq_false (free char inBody))
  have whole : line = body ∨ line = body ++ ['\n'] := by
    refine split.imp_right ?_
    rintro ⟨last, ended, rfl⟩
    rw [eq_of_beq ended]
  have shortBody : body.length + 2 ≤ iniMaxLine := by
    rcases whole with rfl | rfl
    · rwa [plain] at room
    · rwa [List.filter_append, plain, List.length_append] at room
  have fits : line.length ≤ iniMaxLine - 1 := by
    rcases whole with rfl | rfl
    · omega
    · rw [List.length_append, List.length_singleton]
      omega
  rw [cut_of_fits _ _ nonempty fits, List.mem_singleton] at cutting
  subst cutting
  have kept : (cString body).length ≤ body.length := (List.takeWhile_prefix _).length_le
  refine ⟨cString body, fun char inBody => ?_, ?_, by omega⟩
  · have beforeNul := List.mem_takeWhile_imp inBody
    exact ⟨ne_of_beq_false (free char ((List.takeWhile_prefix _).subset inBody)),
      of_decide_eq_true beforeNul⟩
  · rcases whole with rfl | rfl
    · exact Or.inl rfl
    · unfold cString
      rw [List.takeWhile_append]
      split
      · rename_i all
        rw [(List.takeWhile_prefix _).eq_of_length all]
        exact Or.inr rfl
      · exact Or.inl rfl

/-- A file without overlong lines gives the pairs of some document. -/
theorem document_of_file (file : List Char)
    (short : ∀ line ∈ lines endsLine file, (line.filter (· ≠ '\n')).length + 2 ≤ iniMaxLine) :
    ∃ document : Document, document.calls = calls true Context.initial (fileLines file) := by
  obtain ⟨items, ordered, fits, same⟩ := items_of_lines true Context.initial (fileLines file)
    (tidy_fileLines file short) (fun _ => rfl)
  -- an empty line first: whatever follows is not taken for a byte order mark
  let document : Document :=
    { marked := false
      items := .blank .none :: items
      ordered := ⟨nofun, ordered⟩
      fits := List.forall_mem_cons.mpr ⟨by decide, fits⟩
      mark := nofun
      unmarked := by
        rintro - first ⟨⟩
        decide }
  refine ⟨document, ?_⟩
  rw [← same]
  rfl

/-- Whatever is in a file without overlong lines, malformed lines included, a document without
an error says the same. -/
theorem file_normal_form (file : List Char)
    (short : ∀ line ∈ lines endsLine file, (line.filter (· ≠ '\n')).length + 2 ≤ iniMaxLine) :
    ∃ document : Document, ∀ {υ : Type} (handler : Handler υ) (user : υ),
      (iniParseFile handler document.text user).1 = (iniParseFile handler file user).1 ∧
        ((∀ user sectionName name value, (handler user sectionName name value).2 = true) →
          (iniParseFile handler document.text user).2 = 0) := by
  obtain ⟨document, same⟩ := document_of_file file short
  refine ⟨document, fun handler user => ?_⟩
  obtain ⟨fed, -⟩ := iniParseFile_reads handler file user
  obtain ⟨meant, success⟩ := parse_document handler document user
  exact ⟨by rw [meant, fed, same], success⟩

/-- A file whose second line is malformed. -/
def damaged : List Char := "[playbin]\nvideo-sink\n volume = 1 ; loud\n".toList

theorem damaged_normal_form :
    ∃ document : Document, ∀ {υ : Type} (handler : Handler υ) (user : υ),
      (iniParseFile handler document.text user).1 = (iniParseFile handler damaged user).1 ∧
        ((∀ user sectionName name value, (handler user sectionName name value).2 = true) →
          (iniParseFile handler document.text user).2 = 0) :=
  file_normal_form damaged (by decide)

end MediaplayerServer.INI
