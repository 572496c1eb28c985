import MediaplayerServer.Discoverer

set_option autoImplicit false

namespace MediaplayerServer

open CMemory

structure MediaInfo where
  mMediaInfo : Memory
  mTempImg : String
  mFilePath : String

namespace MediaInfo

/-- A newly constructed MediaInfo. -/
def fresh : MediaInfo where
  mMediaInfo := fun _ => 0
  mTempImg := "/tmp/tmp.jpg"
  mFilePath := ""

/-- The first half of every getter: tags are read again only for another path. -/
def refresh (discover : Discover) (self : MediaInfo) (files : FileSystem) (inFilePath : String) :
    MediaInfo × FileSystem :=
  if self.mFilePath ≠ inFilePath then
    let result := getTags discover inFilePath self.mTempImg files self.mMediaInfo
    ({ self with mFilePath := inFilePath, mMediaInfo := result.2 }, result.1)
  else (self, files)

/-- A member of mMediaInfo as the std::string that a getter returns. -/
def text (self : MediaInfo) (field : Field) : List UInt8 :=
  readString self.mMediaInfo field.offset sizeofMediaInfo

/-- The common body of getTitle, getArtist and getAlbum. -/
def getField (discover : Discover) (field : Field) (self : MediaInfo) (files : FileSystem)
    (inFilePath : String) : (MediaInfo × FileSystem) × List UInt8 :=
  let result := self.refresh discover files inFilePath
  (result, result.1.text field)

def getTitle (discover : Discover) (self : MediaInfo) (files : FileSystem) (inFilePath : String) :
    (MediaInfo × FileSystem) × List UInt8 :=
  self.getField discover .title files inFilePath

def getArtist (discover : Discover) (self : MediaInfo) (files : FileSystem)
    (inFilePath : String) : (MediaInfo × FileSystem) × List UInt8 :=
  self.getField discover .artist files inFilePath

def getAlbum (discover : Discover) (self : MediaInfo) (files : FileSystem) (inFilePath : String) :
    (MediaInfo × FileSystem) × List UInt8 :=
  self.getField discover .album files inFilePath

/-- The destination is opened, and thereby emptied, before the source is looked at. -/
def move (files : FileSystem) (src dst : String) : FileSystem × Bool :=
  if src = dst then (files, true)
  else
    let opened := files.openWrite dst
    if files.opensRead src = false then (opened, false)
    else if files.opensWrite dst = false then (opened, false)
    else
      let written := opened.write dst ((opened.read src).getD [])
      ((written.remove src).1, true)

def getImage (discover : Discover) (self : MediaInfo) (files : FileSystem)
    (inFilePath inImagePath : String) : (MediaInfo × FileSystem) × Bool :=
  let result := self.refresh discover files inFilePath
  let moved := move result.2 result.1.mTempImg inImagePath
  ((result.1, moved.1), moved.2)

end MediaInfo

/-- The two requests of a mediainfo client. -/
inductive InfoRequest
  | getTags (filepath : String)
  | getImage (filepath imagepath : String)
  deriving DecidableEq, Repr

/-- handleGetTags, with the title, artist and album it sends back. -/
def handleGetTags (discover : Discover) (files : FileSystem) (filepath : String) :
    FileSystem × List UInt8 × List UInt8 × List UInt8 :=
  let title := MediaInfo.fresh.getTitle discover files filepath
  let artist := title.1.1.getArtist discover title.1.2 filepath
  let album := artist.1.1.getAlbum discover artist.1.2 filepath
  (album.1.2, title.2, artist.2, album.2)

/-- handleGetImage sends back nothing, whatever getImage returned. -/
def handleGetImage (discover : Discover) (files : FileSystem) (filepath imagepath : String) :
    FileSystem :=
  (MediaInfo.fresh.getImage discover files filepath imagepath).1.2

def InfoRequest.handle (discover : Discover) (files : FileSystem) : InfoRequest → FileSystem
  | .getTags filepath => (handleGetTags discover files filepath).1
  | .getImage filepath imagepath => handleGetImage discover files filepath imagepath

/-- The files after a history of requests, each served by a fresh MediaInfo. -/
def handleAll (discover : Discover) (files : FileSystem) (history : List InfoRequest) :
    FileSystem :=
  history.foldl (InfoRequest.handle discover) files

end MediaplayerServer
