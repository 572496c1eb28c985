import MediaplayerServer.Gst

set_option autoImplicit false

namespace MediaplayerServer

/-- The C library's tolower on each character, in the C locale. -/
def toLower (text : String) : String :=
  String.ofList (text.toList.map Char.toLower)

/-- `error` is what ini_parse returned and `values` maps the keys of MakeKey to the
texts of the file. -/
structure INIReader where
  error : Int
  values : List (String × String)
  deriving DecidableEq, Repr

/-- isspace in the C locale. -/
def isSpace (char : Char) : Bool :=
  char.toNat = 32 || (9 ≤ char.toNat && char.toNat ≤ 13)

/-- The value of a digit in a base up to 36. -/
def digit (base : Nat) (char : Char) : Option Nat :=
  let value :=
    if '0' ≤ char ∧ char ≤ '9' then char.toNat - '0'.toNat
    else if 'a' ≤ char ∧ char ≤ 'z' then char.toNat - 'a'.toNat + 10
    else if 'A' ≤ char ∧ char ≤ 'Z' then char.toNat - 'A'.toNat + 10
    else base
  if value < base then some value else none

/-- The longest run of digits, after those already read; `none` when there is none. -/
def digits (base : Nat) : Option Nat → List Char → Option Nat
  | before, [] => before
  | before, char :: rest =>
      match digit base char with
      | none => before
      | some value => digits base (some (before.getD 0 * base + value)) rest

/-- The base that strtol takes from the text when it is given the base zero. A `0x`
without a hexadecimal digit behind it is the number zero. -/
def magnitude : List Char → Option Nat
  | '0' :: 'x' :: rest => (digits 16 none rest).or (some 0)
  | '0' :: 'X' :: rest => (digits 16 none rest).or (some 0)
  | '0' :: rest => digits 8 (some 0) rest
  | text => digits 10 none text

/-- LONG_MAX, which is 2^63 - 1. -/
def longMax : Int := 9223372036854775807

/-- LONG_MIN, which is -2^63. -/
def longMin : Int := -9223372036854775808

/-- strtol with the base zero: `none` when it converts nothing, and saturated at the
limits of a 64-bit long. -/
def strtol (text : String) : Option Int :=
  match text.toList.dropWhile isSpace with
  | '-' :: rest => (magnitude rest).map fun value => max longMin (-(value : Int))
  | '+' :: rest => (magnitude rest).map fun value => min longMax value
  | rest => (magnitude rest).map fun value => min longMax value

namespace INIReader

def makeKey (sectionName name : String) : String :=
  toLower (sectionName ++ "=" ++ name)

def parseError (reader : INIReader) : Int := reader.error

def get (reader : INIReader) (sectionName name default : String) : String :=
  (reader.values.lookup (makeKey sectionName name)).getD default

def getString (reader : INIReader) (sectionName name default : String) : String :=
  let text := reader.get sectionName name ""
  if text = "" then default else text

def getInteger (reader : INIReader) (sectionName name : String) (default : Int) : Int :=
  (strtol (reader.get sectionName name "")).getD default

/-- `strtod` is the C library's, `none` when it converts nothing. -/
def getReal (strtod : String → Option Gdouble) (reader : INIReader) (sectionName name : String)
    (default : Gdouble) : Gdouble :=
  (strtod (reader.get sectionName name "")).getD default

def getBoolean (reader : INIReader) (sectionName name : String) (default : Bool) : Bool :=
  let text := toLower (reader.get sectionName name "")
  if text = "true" ∨ text = "yes" ∨ text = "on" ∨ text = "1" then true
  else if text = "false" ∨ text = "no" ∨ text = "off" ∨ text = "0" then false
  else default

def hasValue (reader : INIReader) (sectionName name : String) : Bool :=
  (reader.values.lookup (makeKey sectionName name)).isSome

end INIReader

end MediaplayerServer
