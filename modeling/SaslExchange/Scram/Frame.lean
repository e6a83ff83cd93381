import SaslExchange.Bytes
import SaslExchange.Text.Utf8
import Std.Data.ExtTreeMap

/-!
# Frames

The messages of SCRAM: pieces `k=value` with commas between them, each key one character. A
frame is UTF-8 as a whole. A piece of another form is passed over, and of several pieces with
one key the last counts.
-/

namespace SaslExchange.Scram

/-- The value of each key, in the order of the keys' code points. -/
abbrev Frame := Std.ExtTreeMap Char String

namespace Frame

/-- The key and the value of a piece. -/
def entry? : List Char → Option (Char × String)
  | key :: '=' :: value => some (key, String.ofList value)
  | _ => none

/-- The key and value of each piece that has them, in order. -/
def entries (text : String) : List (Char × String) :=
  (text.toList.splitOn ',').filterMap entry?

/-- The last value of each key. -/
def ofEntries (entries : List (Char × String)) : Frame :=
  entries.foldl (fun frame entry => frame.insert entry.1 entry.2) ∅

/-- The frame of a message, or where its UTF-8 breaks. -/
def parse (message : Bytes) : Except Utf8.Defect Frame :=
  (Utf8.decode message).map fun text => ofEntries (entries text)

def writeEntry (entry : Char × Bytes) : Bytes :=
  String.utf8EncodeChar entry.1 ++ Ascii.equals :: entry.2

/-- The pieces in the given order. -/
def serialize (entries : List (Char × Bytes)) : Bytes :=
  Bytes.joinWith Ascii.comma (entries.map writeEntry)

end Frame

end SaslExchange.Scram
