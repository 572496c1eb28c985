import MediaplayerServer.CMemory
import MediaplayerServer.FileSystem

set_option autoImplicit false

namespace MediaplayerServer

open CMemory

/-- The three members of MediaInfo_s, each an array of 1024 bytes. -/
inductive Field
  | title
  | artist
  | album
  deriving DecidableEq, Repr

namespace Field

/-- sizeof of a member. -/
def size : Nat := 1024

def offset : Field → Nat
  | .title => 0
  | .artist => 1024
  | .album => 2048

/-- The tag that fills the member: GST_TAG_TITLE, GST_TAG_ARTIST or GST_TAG_ALBUM. -/
def tag : Field → String
  | .title => "title"
  | .artist => "artist"
  | .album => "album"

end Field

/-- sizeof of MediaInfo_s. -/
def sizeofMediaInfo : Nat := 3072

/-- GST_TAG_IMAGE. -/
def gstTagImage : String := "image"

/-- The image of a sample; gst_buffer_map may refuse to map it. -/
structure GstBuffer where
  data : List UInt8
  maps : Bool
  deriving DecidableEq

/-- A tag's value by what print_tag_foreach asks of it: a string, a sample with its
image and its caps, or anything else, serialized. -/
inductive TagValue
  | string (text : CString)
  | sample (img : Option GstBuffer) (caps : Option CString)
  | other (serialized : CString)
  deriving DecidableEq

/-- One call of print_tag_foreach. -/
structure Callback where
  tag : String
  value : TagValue
  deriving DecidableEq

def utf8 (text : String) : List UInt8 := text.toUTF8.data.toList

/-- The `str` of print_tag_foreach. -/
def TagValue.str : TagValue → CString
  | .string text => text
  | .sample none _ => CString.ofBytes (utf8 "NULL buffer")
  | .sample (some img) none =>
      CString.ofBytes (utf8 ("buffer of " ++ toString img.data.length ++ " bytes"))
  | .sample (some img) (some caps) =>
      CString.ofBytes
        (utf8 ("buffer of " ++ toString img.data.length ++ " bytes, type: ") ++ caps.bytes)
  | .other serialized => serialized

/-- The bytes that fwrite puts into the image file. -/
def GstBuffer.written (img : GstBuffer) : List UInt8 :=
  if img.maps then img.data else []

/-- fopen in the mode wb+, fwrite and fclose. -/
def saveImage (files : FileSystem) (mImagePath : String) (img : GstBuffer) : FileSystem :=
  if files.opensWrite mImagePath then files.write mImagePath img.written else files

/-- The image that a callback saves. -/
def Callback.image (callback : Callback) : Option GstBuffer :=
  match callback.value with
  | .sample (some img) _ => if callback.tag = gstTagImage then some img else none
  | _ => none

/-- The bytes that print_tag_foreach copies of a string: all of it, or as many as leave
room for the NUL. -/
def copied (str : CString) : List UInt8 :=
  str.bytes.take (if str.bytes.length < Field.size then str.bytes.length else Field.size - 1)

def copyField (memory : Memory) (field : Field) (str : CString) : Memory :=
  memcpy memory field.offset (copied str)

def printTagForeach (mImagePath : String) (state : FileSystem × Memory) (callback : Callback) :
    FileSystem × Memory :=
  let files :=
    match callback.image with
    | some img => saveImage state.1 mImagePath img
    | none => state.1
  let memory :=
    if callback.tag = Field.title.tag then copyField state.2 .title callback.value.str
    else if callback.tag = Field.album.tag then copyField state.2 .album callback.value.str
    else if callback.tag = Field.artist.tag then copyField state.2 .artist callback.value.str
    else state.2
  (files, memory)

/-- What GStreamer finds under a path: the calls of print_tag_foreach that process_file
makes, in their order. -/
abbrev Discover : Type := FileSystem → String → List Callback

def getTags (discover : Discover) (inFilePath outImagePath : String) (files : FileSystem)
    (mediainfo : Memory) : FileSystem × Memory :=
  (discover files inFilePath).foldl (printTagForeach outImagePath) (files, mediainfo)

end MediaplayerServer
