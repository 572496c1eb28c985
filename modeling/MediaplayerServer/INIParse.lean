import Mathlib.Data.List.DropRight
import MediaplayerServer.BoundedLines
import MediaplayerServer.INIReader

set_option autoImplicit false

/- The parser of INI files, ini.c, as it is configured in ini.h. A text holds one
character for each byte of the file. -/
namespace MediaplayerServer.INI

def rstrip (s : List Char) : List Char := s.rdropWhile isSpace

def lskip (s : List Char) : List Char := s.dropWhile isSpace

/-- INI_START_COMMENT_PREFIXES. -/
def startCommentPrefixes : List Char := [';', '#']

/-- INI_INLINE_COMMENT_PREFIXES. -/
def inlineCommentPrefixes : List Char := [';']

/-- The text before the place that find_chars_or_comment returns, and the text from there
on, which is empty when it returns the end. -/
def findCharsOrComment (chars : List Char) : Bool → List Char → List Char × List Char
  | _, [] => ([], [])
  | wasSpace, first :: rest =>
      if first ∈ chars ∨ (wasSpace = true ∧ first ∈ inlineCommentPrefixes) then
        ([], first :: rest)
      else
        let found := findCharsOrComment chars (isSpace first) rest
        (first :: found.1, found.2)

def strncpy0 (src : List Char) (size : Nat) : List Char := src.take (size - 1)

def maxSection : Nat := 50

def maxName : Nat := 50

/-- INI_MAX_LINE. -/
def iniMaxLine : Nat := 200

/-- The UTF-8 byte order mark. -/
def bom : List Char := ['\u00EF', '\u00BB', '\u00BF']

/-- An ini_handler: what it makes of the user's data, and whether it accepts the pair. -/
abbrev Handler (υ : Type) : Type := υ → List Char → List Char → List Char → υ × Bool

/-- The local variables of ini_parse_stream. -/
structure Locals (υ : Type) where
  sectionName : List Char
  prevName : List Char
  lineno : Nat
  error : Nat
  user : υ

def Locals.initial {υ : Type} (user : υ) : Locals υ where
  sectionName := []
  prevName := []
  lineno := 0
  error := 0
  user := user

/-- Only the first error is kept. -/
def Locals.fail {υ : Type} (locals : Locals υ) : Locals υ :=
  if locals.error = 0 then { locals with error := locals.lineno } else locals

def Locals.handle {υ : Type} (handler : Handler υ) (locals : Locals υ)
    (name value : List Char) : Locals υ :=
  let result := handler locals.user locals.sectionName name value
  let locals := { locals with user := result.1 }
  if result.2 then locals else locals.fail

/-- The body of the loop, on the C string that was read into `line`. -/
def parseLine {υ : Type} (handler : Handler υ) (locals : Locals υ) (line : List Char) :
    Locals υ :=
  let locals := { locals with lineno := locals.lineno + 1 }
  let marked := decide (locals.lineno = 1) && bom.isPrefixOf line
  let start := rstrip (if marked then line.drop bom.length else line)
  let text := lskip start
  match text with
  | [] => locals
  | first :: rest =>
      if first ∈ startCommentPrefixes then locals
      else if locals.prevName ≠ [] ∧ (marked = true ∨ text.length < start.length) then
        locals.handle handler locals.prevName text
      else if first = '[' then
        let found := findCharsOrComment [']'] false rest
        if found.2.head? = some ']' then
          { locals with sectionName := strncpy0 found.1 maxSection, prevName := [] }
        else locals.fail
      else
        let found := findCharsOrComment ['=', ':'] false text
        match found.2 with
        | [] => locals.fail
        | separator :: after =>
            if separator = '=' ∨ separator = ':' then
              let name := rstrip found.1
              let value := rstrip (lskip (findCharsOrComment [] false after).1)
              { locals with prevName := strncpy0 name maxName }.handle handler name value
            else locals.fail

/-- What a buffer holds up to its first NUL. -/
def cString (buffer : List Char) : List Char := buffer.takeWhile (· ≠ '\x00')

/-- An ini_reader, `none` where it returns NULL. Each call takes something from what is
left of its stream. -/
structure Reader (σ : Type) where
  read : Nat → σ → Option (List Char × σ)
  left : σ → Nat
  shrinks : ∀ num stream line rest, 2 ≤ num → read num stream = some (line, rest) →
    left rest < left stream

def endsLine (char : Char) : Bool := char == '\n'

theorem shrinks_read (num : Nat) (stream line rest : List Char) (room : 2 ≤ num)
    (more : stream ≠ []) (taken : BoundedLines.read endsLine (num - 1) stream = (line, rest)) :
    rest.length < stream.length := by
  have shrinks := BoundedLines.read_shrinks endsLine (num - 1) stream (by omega) more
  rwa [taken] at shrinks

/-- fgets on what is left of a file. -/
def fgets : Reader (List Char) where
  read num stream :=
    if stream = [] then none else some (BoundedLines.read endsLine (num - 1) stream)
  left := List.length
  shrinks := by
    intro num stream line rest room taken
    split at taken
    · cases taken
    · rename_i more
      exact shrinks_read num stream line rest room more (Option.some.inj taken)

/-- The reader of ini_parse_string; the context is what is left of the string. -/
def iniReaderString : Reader (List Char) where
  read num stream :=
    if stream = [] ∨ num < 2 then none
    else some (BoundedLines.read endsLine (num - 1) stream)
  left := List.length
  shrinks := by
    intro num stream line rest room taken
    split at taken
    · cases taken
    · rename_i more
      exact shrinks_read num stream line rest room (not_or.mp more).1 (Option.some.inj taken)

section Stream

variable {σ υ : Type} (reader : Reader σ) (handler : Handler υ)

/-- The loop of ini_parse_stream. -/
def parseLines (locals : Locals υ) (stream : σ) : Locals υ :=
  match _taken : reader.read iniMaxLine stream with
  | none => locals
  | some (line, rest) => parseLines (parseLine handler locals (cString line)) rest
termination_by reader.left stream
decreasing_by exact reader.shrinks iniMaxLine stream line rest (by decide) _taken

def iniParseStream (stream : σ) (user : υ) : υ × Int :=
  let locals := parseLines reader handler (Locals.initial user) stream
  (locals.user, locals.error)

end Stream

def iniParseFile {υ : Type} (handler : Handler υ) (file : List Char) (user : υ) : υ × Int :=
  iniParseStream fgets handler file user

/-- `file` is `none` for a file that cannot be opened. -/
def iniParse {υ : Type} (handler : Handler υ) (file : Option (List Char)) (user : υ) : υ × Int :=
  match file with
  | none => (user, -1)
  | some file => iniParseFile handler file user

def iniParseString {υ : Type} (handler : Handler υ) (string : List Char) (user : υ) : υ × Int :=
  iniParseStream iniReaderString handler (cString string) user

end MediaplayerServer.INI
