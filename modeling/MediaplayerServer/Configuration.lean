import MediaplayerServer.INIReader
import MediaplayerServer.Unrolling

set_option autoImplicit false

namespace MediaplayerServer.Configuration

open Unrolling

/-- The fundamental types setValue switches on; every other one goes by its name. -/
inductive GType
  | string
  | boolean
  | ulong
  | long
  | uint
  | int
  | uint64
  | int64
  | float
  | double
  | char
  | uchar
  | object
  | named (name : String)
  deriving DecidableEq, Repr

/-- What one g_object_set call passes; an element may be a null pointer. -/
inductive GValue (ε : Type)
  | string (text : String)
  | boolean (value : Bool)
  | long (value : Int)
  | double (value : Gdouble)
  | element (child : Option ε)

/-- An element with the g_object_set calls made on it, in their order. -/
inductive GstElement
  | mk (name : String) (assigned : List (String × GValue GstElement))

/-- What setup finds outside the server: the registered factories with their properties,
the factories that fail to create, and the C library's strtod. -/
structure Platform where
  factories : List (String × List (String × GType))
  fails : String → Bool
  strtod : String → Option Gdouble

/-- gst_element_factory_make returns an element. -/
def Platform.creates (platform : Platform) (name : String) : Bool :=
  (platform.factories.lookup name).isSome && !platform.fails name

/-- Insertion into the std::map of properties, which is sorted by name and keeps the
first entry for a name. -/
def insertProperty (name : String) (type : GType) :
    List (String × GType) → List (String × GType)
  | [] => [(name, type)]
  | entry :: rest =>
      if name < entry.1 then (name, type) :: entry :: rest
      else if name = entry.1 then entry :: rest
      else entry :: insertProperty name type rest

def getElementPropertyInfo (platform : Platform) (elementName : String) :
    List (String × GType) :=
  match platform.factories.lookup elementName with
  | none => []
  | some specs => specs.foldl (fun map param => insertProperty param.1 param.2 map) []

/-- The element and the result of MyElement::setup on one name. -/
abbrev Made : Type := Option GstElement × Bool

/-- The g_object_set calls of setValue. `setup` is the recursive call, `none` if that
does not return. -/
def setValue (platform : Platform) (reader : INIReader) (setup : String → Option Made)
    (name property : String) : GType → Option (List (String × GValue GstElement))
  | .string => some [(property, .string (reader.getString name property ""))]
  | .boolean => some [(property, .boolean (reader.getBoolean name property false))]
  | .ulong => some [(property, .long (reader.getInteger name property 0))]
  | .long => some [(property, .long (reader.getInteger name property 0))]
  | .uint => some [(property, .long (reader.getInteger name property 0))]
  | .int => some [(property, .long (reader.getInteger name property 0))]
  | .uint64 => some [(property, .long (reader.getInteger name property 0))]
  | .int64 => some [(property, .long (reader.getInteger name property 0))]
  | .float =>
      some [(property, .double (reader.getReal platform.strtod name property (.finite 0)))]
  | .double =>
      some [(property, .double (reader.getReal platform.strtod name property (.finite 0)))]
  | .char => some []
  | .uchar => some []
  | .object => some []
  | .named typeName =>
      if typeName = "GstElement" then
        (setup (reader.getString name property "")).map fun made =>
          [(property, .element made.1)]
      else if typeName = "GstPlayFlags" then
        some [(property, .long (reader.getInteger name property 0))]
      else some []

/-- The loop of setProperty over the entries that are left. -/
def setEntries (platform : Platform) (reader : INIReader) (setup : String → Option Made)
    (name : String) : List (String × GType) → Option (List (String × GValue GstElement))
  | [] => some []
  | (property, type) :: rest =>
      if reader.hasValue name property then
        (setValue platform reader setup name property type).bind fun first =>
          (setEntries platform reader setup name rest).map fun others => first ++ others
      else setEntries platform reader setup name rest

def setProperty (platform : Platform) (reader : INIReader) (setup : String → Option Made)
    (name : String) (mValidPropertyMap : List (String × GType)) :
    Option (Int × List (String × GValue GstElement)) :=
  if mValidPropertyMap.isEmpty then some (-1, [])
  else (setEntries platform reader setup name mValidPropertyMap).map fun assigned => (0, assigned)

/-- MyElement::setup, given the function it recurs on. -/
def setupBody (platform : Platform) (reader : INIReader) (setup : String → Option Made)
    (name : String) : Option Made :=
  if platform.creates name then
    if reader.parseError = 0 then
      (setProperty platform reader setup name (getElementPropertyInfo platform name)).map
        fun result => (some (.mk name result.2), true)
    else some (some (.mk name []), true)
  else some (none, false)

/-- MyElement::setup, cut off where it would be nested more deeply than `depth`. -/
def setup (platform : Platform) (reader : INIReader) : Nat → String → Option Made :=
  unroll (setupBody platform reader)

/-- setup on `name` comes to set up `other`: some element-valued property of `name` has
a value in the file, and that value is `other`. -/
def Refers (platform : Platform) (reader : INIReader) (name other : String) : Prop :=
  platform.creates name = true ∧ reader.parseError = 0 ∧
    ∃ property, (property, GType.named "GstElement") ∈ getElementPropertyInfo platform name ∧
      reader.hasValue name property = true ∧ reader.getString name property "" = other

end MediaplayerServer.Configuration
