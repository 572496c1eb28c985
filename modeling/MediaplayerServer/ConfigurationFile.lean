import MediaplayerServer.ConfigurationTree
import MediaplayerServer.INIReaderFile

set_option autoImplicit false

namespace MediaplayerServer.Configuration

open INI
open Relation

/-- Without a file that parses, setup makes the element alone, whatever the file says. -/
theorem setup_unparsed (platform : Platform) (reader : INIReader) (broken : reader.parseError ≠ 0)
    (depth : Nat) (name : String) :
    setup platform reader (depth + 1) name =
      some (if platform.creates name then (some (.mk name []), true) else (none, false)) := by
  show setupBody platform reader (setup platform reader depth) name = _
  rw [setupBody, if_neg broken]
  split <;> rfl

theorem ofFile_wellFormed (file : List Char) (formed : malformedAt file = 0) :
    INIReader.ofFile (some file) = INIReader.parse (fileEntries file) := by
  rw [ofFile_eq, formed]
  rfl

/-- The section of `windowed`, as it could be written by hand. -/
def handwritten : List Char := "# sinks\n[PlayBin]\nVideo-Sink = ximagesink ; a window\n".toList

end MediaplayerServer.Configuration
