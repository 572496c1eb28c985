import MediaplayerServer.INIParse

set_option autoImplicit false

namespace MediaplayerServer.INI

open BoundedLines

/-- What one line says. -/
inductive Line
  | ignored
  | continuation (value : List Char)
  | heading (name : List Char)
  | pair (name value : List Char)
  | malformed
  deriving DecidableEq

/-- A line that is neither a comment nor a continuation. -/
def classifyText : List Char → Line
  | '[' :: rest =>
      let found := findCharsOrComment [']'] false rest
      if found.2.head? = some ']' then .heading found.1 else .malformed
  | text =>
      let found := findCharsOrComment ['=', ':'] false text
      match found.2 with
      | [] => .malformed
      | separator :: after =>
          if separator = '=' ∨ separator = ':' then
            .pair (rstrip found.1) (rstrip (lskip (findCharsOrComment [] false after).1))
          else .malformed

/-- A line without the whitespace at its end. An indented one continues the value before it,
if there is one; so does a line behind a byte order mark. -/
def classifyStart (marked continues : Bool) (start : List Char) : Line :=
  let text := lskip start
  match text with
  | [] => .ignored
  | char :: _ =>
      if char ∈ startCommentPrefixes then .ignored
      else if continues = true ∧ (marked = true ∨ text.length < start.length) then
        .continuation text
      else classifyText text

/-- `first` is set for the first line of a file, and `continues` where a name was given
that an indented line can continue. -/
def classify (first continues : Bool) (line : List Char) : Line :=
  let marked := first && bom.isPrefixOf line
  classifyStart marked continues (rstrip (if marked then line.drop bom.length else line))

/-- The section and the name that the next line belongs to. -/
structure Context where
  sectionName : List Char
  prevName : List Char
  deriving DecidableEq

def Context.initial : Context := ⟨[], []⟩

def Context.next (context : Context) : Line → Context
  | .heading name => ⟨strncpy0 name maxSection, []⟩
  | .pair name _ => { context with prevName := strncpy0 name maxName }
  | _ => context

/-- What a handler is called with. -/
structure Call where
  sectionName : List Char
  name : List Char
  value : List Char
  deriving DecidableEq

/-- One line in its context. -/
structure Reading where
  context : Context
  line : Line
  deriving DecidableEq

def Reading.call (reading : Reading) : Option Call :=
  match reading.line with
  | .continuation value => some ⟨reading.context.sectionName, reading.context.prevName, value⟩
  | .pair name value => some ⟨reading.context.sectionName, name, value⟩
  | _ => none

def readings (first : Bool) (context : Context) : List (List Char) → List Reading
  | [] => []
  | text :: rest =>
      let line := classify first (decide (context.prevName ≠ [])) text
      ⟨context, line⟩ :: readings false (context.next line) rest

/-- The pairs that some lines give, in their order. -/
def calls (first : Bool) (context : Context) (texts : List (List Char)) : List Call :=
  (readings first context texts).filterMap Reading.call

section Handlers

variable {υ : Type} (handler : Handler υ)

/-- What a handler makes of the user's data when it is given some pairs. -/
def feed (user : υ) (pairs : List Call) : υ :=
  pairs.foldl (fun user pair => (handler user pair.sectionName pair.name pair.value).1) user

/-- The line is malformed, or gives a pair that the handler does not accept. -/
def Reading.Fails (user : υ) (reading : Reading) : Prop :=
  reading.line = .malformed ∨ ∃ pair, reading.call = some pair ∧
    (handler user pair.sectionName pair.name pair.value).2 = false

/-- The line at the index fails, after the ones before it. -/
def FailsAt (user : υ) (lines : List Reading) (index : Nat) : Prop :=
  ∃ reading, lines[index]? = some reading ∧
    reading.Fails handler (feed handler user ((lines.take index).filterMap Reading.call))

/-- What a reading does to the variables of ini_parse_stream. -/
def Locals.apply (locals : Locals υ) : Line → Locals υ
  | .ignored => locals
  | .continuation value => locals.handle handler locals.prevName value
  | .heading name => { locals with sectionName := strncpy0 name maxSection, prevName := [] }
  | .pair name value =>
      { locals with prevName := strncpy0 name maxName }.handle handler name value
  | .malformed => locals.fail

def Locals.context (locals : Locals υ) : Context := ⟨locals.sectionName, locals.prevName⟩

theorem classifyText_heading (rest : List Char) :
    classifyText ('[' :: rest) =
      if (findCharsOrComment [']'] false rest).2.head? = some ']' then
        .heading (findCharsOrComment [']'] false rest).1
      else .malformed := rfl

theorem classifyText_pair (first : Char) (rest : List Char) (other : first ≠ '[') :
    classifyText (first :: rest) =
      match (findCharsOrComment ['=', ':'] false (first :: rest)).2 with
      | [] => .malformed
      | separator :: after =>
          if separator = '=' ∨ separator = ':' then
            .pair (rstrip (findCharsOrComment ['=', ':'] false (first :: rest)).1)
              (rstrip (lskip (findCharsOrComment [] false after).1))
          else .malformed := by
  unfold classifyText
  split
  · rename_i same
    exact absurd (List.cons.inj same).1 other
  · rfl

/-- A line acts on the variables through what it says only. -/
theorem parseLine_eq (locals : Locals υ) (line : List Char) :
    parseLine handler locals line =
      { locals with lineno := locals.lineno + 1 }.apply handler
        (classify (decide (locals.lineno = 0)) (decide (locals.prevName ≠ [])) line) := by
  have first : decide (locals.lineno + 1 = 1) = decide (locals.lineno = 0) := by
    simp only [Nat.add_eq_right]
  unfold parseLine classify classifyStart
  dsimp only
  rw [first]
  generalize (decide (locals.lineno = 0) && bom.isPrefixOf line) = marked
  generalize rstrip (if marked = true then line.drop bom.length else line) = start
  cases lskip start with
  | nil => rfl
  | cons char rest =>
      dsimp only
      simp only [decide_eq_true_eq]
      split
      · rfl
      · split
        · rfl
        · by_cases bracket : char = '['
          · subst bracket
            rw [if_pos rfl, classifyText_heading]
            split <;> rfl
          · rw [if_neg bracket, classifyText_pair char rest bracket]
            cases (findCharsOrComment ['=', ':'] false (char :: rest)).2 with
            | nil => rfl
            | cons separator after =>
                dsimp only
                split <;> rfl

theorem fail_error (locals : Locals υ) :
    locals.fail.error = if locals.error = 0 then locals.lineno else locals.error := by
  unfold Locals.fail
  split <;> rfl

theorem fail_other (locals : Locals υ) :
    locals.fail.user = locals.user ∧ locals.fail.context = locals.context ∧
      locals.fail.lineno = locals.lineno := by
  unfold Locals.fail
  split <;> exact ⟨rfl, rfl, rfl⟩

theorem handle_other (locals : Locals υ) (name value : List Char) :
    (locals.handle handler name value).user =
        (handler locals.user locals.sectionName name value).1 ∧
      (locals.handle handler name value).context = locals.context ∧
      (locals.handle handler name value).lineno = locals.lineno := by
  unfold Locals.handle
  dsimp only
  split
  · exact ⟨rfl, rfl, rfl⟩
  · exact fail_other _

theorem handle_error (locals : Locals υ) (name value : List Char) :
    (locals.handle handler name value).error =
      if locals.error = 0 ∧ (handler locals.user locals.sectionName name value).2 = false then
        locals.lineno
      else locals.error := by
  unfold Locals.handle
  dsimp only
  cases (handler locals.user locals.sectionName name value).2 with
  | true => simp
  | false => simp [fail_error]

theorem apply_other (locals : Locals υ) (line : Line) :
    (locals.apply handler line).user =
        feed handler locals.user (Reading.call ⟨locals.context, line⟩).toList ∧
      (locals.apply handler line).context = locals.context.next line ∧
      (locals.apply handler line).lineno = locals.lineno := by
  cases line with
  | ignored => exact ⟨rfl, rfl, rfl⟩
  | continuation value => exact handle_other handler locals locals.prevName value
  | heading name => exact ⟨rfl, rfl, rfl⟩
  | pair name value => exact handle_other handler _ name value
  | malformed => exact fail_other locals

/-- An error that was there before stays. -/
theorem apply_error_kept (locals : Locals υ) (line : Line) (before : locals.error ≠ 0) :
    (locals.apply handler line).error = locals.error := by
  cases line with
  | ignored => rfl
  | continuation value =>
      exact (handle_error handler locals _ value).trans (if_neg fun both => before both.1)
  | heading name => rfl
  | pair name value =>
      exact (handle_error handler _ name value).trans (if_neg fun both => before both.1)
  | malformed => exact (fail_error locals).trans (if_neg before)

theorem fails_of_call (user : υ) (reading : Reading) (pair : Call)
    (given : reading.call = some pair) :
    reading.Fails handler user ↔
      (handler user pair.sectionName pair.name pair.value).2 = false := by
  constructor
  · rintro (malformed | ⟨other, called, refused⟩)
    · rw [Reading.call, malformed] at given
      cases given
    · cases given.symm.trans called
      exact refused
  · exact fun refused => Or.inr ⟨pair, given, refused⟩

theorem handle_fresh (locals : Locals υ) (name value : List Char) (before : locals.error = 0) :
    ((handler locals.user locals.sectionName name value).2 = false ∧
        (locals.handle handler name value).error = locals.lineno) ∨
      (¬(handler locals.user locals.sectionName name value).2 = false ∧
        (locals.handle handler name value).error = 0) := by
  rw [handle_error]
  by_cases refused : (handler locals.user locals.sectionName name value).2 = false
  · exact Or.inl ⟨refused, if_pos ⟨before, refused⟩⟩
  · exact Or.inr ⟨refused, (if_neg fun both => refused both.2).trans before⟩

/-- The first line that fails sets the error. -/
theorem apply_error (locals : Locals υ) (line : Line) (before : locals.error = 0) :
    (Reading.Fails handler locals.user ⟨locals.context, line⟩ ∧
        (locals.apply handler line).error = locals.lineno) ∨
      (¬Reading.Fails handler locals.user ⟨locals.context, line⟩ ∧
        (locals.apply handler line).error = 0) := by
  cases line with
  | ignored => exact Or.inr ⟨by simp [Reading.Fails, Reading.call], before⟩
  | continuation value =>
      rw [fails_of_call handler _ _ _ rfl]
      exact handle_fresh handler locals locals.prevName value before
  | heading name => exact Or.inr ⟨by simp [Reading.Fails, Reading.call], before⟩
  | pair name value =>
      rw [fails_of_call handler _ _ _ rfl]
      exact handle_fresh handler { locals with prevName := strncpy0 name maxName } name value before
  | malformed => exact Or.inl ⟨Or.inl rfl, (fail_error locals).trans (if_pos before)⟩

theorem filterMap_call_cons (reading : Reading) (rest : List Reading) :
    (reading :: rest).filterMap Reading.call =
      reading.call.toList ++ rest.filterMap Reading.call := by
  cases given : reading.call with
  | none => rw [List.filterMap_cons_none given]; rfl
  | some pair => rw [List.filterMap_cons_some given]; rfl

theorem feed_append (user : υ) (first second : List Call) :
    feed handler user (first ++ second) = feed handler (feed handler user first) second :=
  List.foldl_append

theorem failsAt_zero (user : υ) (reading : Reading) (rest : List Reading) :
    FailsAt handler user (reading :: rest) 0 ↔ reading.Fails handler user := by
  constructor
  · rintro ⟨other, same, fails⟩
    cases same
    exact fails
  · exact fun fails => ⟨reading, rfl, fails⟩

theorem failsAt_succ (user : υ) (reading : Reading) (rest : List Reading) (index : Nat) :
    FailsAt handler user (reading :: rest) (index + 1) ↔
      FailsAt handler (feed handler user reading.call.toList) rest index := by
  unfold FailsAt
  rw [List.getElem?_cons_succ, List.take_succ_cons, filterMap_call_cons, feed_append]

/-- The error is zero if no line fails, and otherwise the number of the first one that
does. -/
def Reports (user : υ) (lines : List Reading) (lineno error : Nat) : Prop :=
  (error = 0 ∧ ∀ index, ¬FailsAt handler user lines index) ∨
    ∃ index, error = lineno + index + 1 ∧ FailsAt handler user lines index ∧
      ∀ earlier < index, ¬FailsAt handler user lines earlier

theorem foldl_parseLine (locals : Locals υ) (texts : List (List Char)) :
    (texts.foldl (parseLine handler) locals).user =
        feed handler locals.user (calls (decide (locals.lineno = 0)) locals.context texts) ∧
      (locals.error ≠ 0 → (texts.foldl (parseLine handler) locals).error = locals.error) ∧
      (locals.error = 0 →
        Reports handler locals.user (readings (decide (locals.lineno = 0)) locals.context texts)
          locals.lineno (texts.foldl (parseLine handler) locals).error) := by
  induction texts generalizing locals with
  | nil =>
      refine ⟨rfl, fun _ => rfl, fun fresh => Or.inl ⟨fresh, ?_⟩⟩
      rintro index ⟨reading, given, -⟩
      cases given
  | cons text rest ih =>
      let counted : Locals υ := { locals with lineno := locals.lineno + 1 }
      let line := classify (decide (locals.lineno = 0)) (decide (locals.prevName ≠ [])) text
      have step : parseLine handler locals text = counted.apply handler line :=
        parseLine_eq handler locals text
      obtain ⟨user, context, lineno⟩ := apply_other handler counted line
      have later : decide ((counted.apply handler line).lineno = 0) = false := by
        rw [lineno]
        rfl
      obtain ⟨fed, kept, reports⟩ := ih (counted.apply handler line)
      rw [later, context, user] at fed reports
      rw [List.foldl_cons, step]
      refine ⟨?_, fun before => ?_, fun fresh => ?_⟩
      · rw [fed, ← feed_append]
        exact congrArg (feed handler locals.user) (filterMap_call_cons _ _).symm
      · rw [kept (by rwa [apply_error_kept handler counted line before]),
          apply_error_kept handler counted line before]
      · rcases apply_error handler counted line fresh with ⟨fails, error⟩ | ⟨passes, error⟩
        · refine Or.inr ⟨0, ?_, (failsAt_zero handler _ _ _).mpr fails, nofun⟩
          rw [kept (by rw [error]; exact Nat.succ_ne_zero _), error]
        · rcases reports error with ⟨none, all⟩ | ⟨index, first, fails, earlier⟩
          · refine Or.inl ⟨none, fun index => ?_⟩
            cases index with
            | zero => exact fun fails => passes ((failsAt_zero handler _ _ _).mp fails)
            | succ index => exact fun fails => all index ((failsAt_succ handler _ _ _ _).mp fails)
          · refine Or.inr ⟨index + 1, ?_, (failsAt_succ handler _ _ _ _).mpr fails, ?_⟩
            · rw [first, lineno]
              show locals.lineno + 1 + index + 1 = locals.lineno + (index + 1) + 1
              omega
            · intro before less
              cases before with
              | zero => exact fun fails => passes ((failsAt_zero handler _ _ _).mp fails)
              | succ before =>
                  exact fun fails => earlier before (Nat.lt_of_succ_lt_succ less)
                    ((failsAt_succ handler _ _ _ _).mp fails)

/-- The buffers that fgets fills from a file are its lines, each cut where the buffer is
full. -/
def fileLines (file : List Char) : List (List Char) :=
  ((lines endsLine file).flatMap (cut (iniMaxLine - 1))).map cString

theorem parseLines_eq (locals : Locals υ) (file : List Char) :
    parseLines fgets handler locals file =
      (fileLines file).foldl (parseLine handler) locals := by
  rw [fileLines, ← pieces_eq_flatMap]
  induction length : file.length using Nat.strongRecOn generalizing locals file with
  | ind length ih =>
      rw [parseLines]
      by_cases empty : file = []
      · subst empty
        rfl
      · have taken : fgets.read iniMaxLine file =
            some (read endsLine (iniMaxLine - 1) file) := if_neg empty
        have shorter := read_shrinks endsLine (iniMaxLine - 1) file (by decide) empty
        rw [pieces_eq endsLine _ _ file (by decide) empty, List.map_cons, List.foldl_cons,
          ← ih _ (length ▸ shorter) _ _ rfl]
        split
        · rename_i none
          rw [taken] at none
          cases none
        · rename_i line rest same
          rw [taken, Option.some.injEq] at same
          rw [same]

/-- Whatever its handler answers, ini_parse_file hands it all pairs of the file, in the order
of the lines, and returns the number of the first line that is malformed or whose pair the
handler does not accept, or zero if there is none. -/
theorem iniParseFile_reads (file : List Char) (user : υ) :
    (iniParseFile handler file user).1 =
        feed handler user (calls true Context.initial (fileLines file)) ∧
      ∃ error : Nat, (iniParseFile handler file user).2 = error ∧
        Reports handler user (readings true Context.initial (fileLines file)) 0 error := by
  unfold iniParseFile iniParseStream
  rw [parseLines_eq]
  obtain ⟨fed, -, reports⟩ :=
    foldl_parseLine handler (Locals.initial user) (fileLines file)
  exact ⟨fed, _, rfl, reports rfl⟩

/-- Readers that fill a buffer of this size alike give the parser the same lines. -/
theorem parseLines_congr {σ : Type} (first second : Reader σ)
    (alike : ∀ stream, first.read iniMaxLine stream = second.read iniMaxLine stream)
    (locals : Locals υ) (stream : σ) :
    parseLines first handler locals stream = parseLines second handler locals stream := by
  induction locals, stream using parseLines.induct first handler with
  | case1 locals stream none =>
      rw [parseLines, parseLines]
      split
      · split
        · rfl
        · rename_i taken
          rw [← alike, none] at taken
          cases taken
      · rename_i taken
        rw [none] at taken
        cases taken
  | case2 locals stream line rest taken ih =>
      rw [parseLines, parseLines]
      split
      · rename_i none
        rw [taken] at none
        cases none
      · rename_i line' rest' taken'
        cases taken.symm.trans taken'
        split
        · rename_i none
          rw [← alike, taken] at none
          cases none
        · rename_i line'' rest'' taken''
          cases (taken.symm.trans (alike stream)).trans taken''
          exact ih

/-- A string is parsed as a file with the same text would be. -/
theorem iniParseString_eq (string : List Char) (user : υ) :
    iniParseString handler string user = iniParseFile handler (cString string) user := by
  have alike : ∀ stream, iniReaderString.read iniMaxLine stream = fgets.read iniMaxLine stream := by
    intro stream
    have room : ¬iniMaxLine < 2 := by decide
    show (if stream = [] ∨ iniMaxLine < 2 then none else _) = if stream = [] then none else _
    by_cases empty : stream = []
    · rw [if_pos (Or.inl empty), if_pos empty]
    · rw [if_neg (not_or.mpr ⟨empty, room⟩), if_neg empty]
  unfold iniParseString iniParseFile iniParseStream
  rw [parseLines_congr handler iniReaderString fgets alike]

theorem fileLines_of_fits (file : List Char)
    (fits : ∀ line ∈ lines endsLine file, line.length ≤ iniMaxLine - 1) :
    fileLines file = (lines endsLine file).map cString := by
  rw [fileLines, ← pieces_eq_flatMap, pieces_eq_of_fits]
  exact fits

/-- For every text and every handler, parsing is reading line by line: each line is taken
by itself, in the context that the ones before it leave, and the error is the number of the
first line that is malformed or refused. A text without a line that is too long for the buffer
is taken in its own lines. -/
theorem parsing_is_line_by_line (text : List Char) (user : υ) :
    iniParseString handler text user = iniParseFile handler (cString text) user ∧
      (iniParseFile handler text user).1 =
          feed handler user (calls true Context.initial (fileLines text)) ∧
      (∃ error : Nat, (iniParseFile handler text user).2 = error ∧
        Reports handler user (readings true Context.initial (fileLines text)) 0 error) ∧
      ((∀ line ∈ lines endsLine text, line.length ≤ iniMaxLine - 1) →
        fileLines text = (lines endsLine text).map cString) := by
  obtain ⟨fed, reported⟩ := iniParseFile_reads handler text user
  exact ⟨iniParseString_eq handler text user, fed, reported, fileLines_of_fits text⟩

end Handlers

end MediaplayerServer.INI
