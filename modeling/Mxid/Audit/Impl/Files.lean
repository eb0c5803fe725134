import Mxid.Audit.Impl.Basic
import Mxid.Data.LineFile

/-!
This module contains the file of anchor records. The JSON encoding is a parameter.
-/

namespace Mxid.Audit

open LineFile

/--
`Put` appends a line. A write that fails after `n` bytes is `some n`.
-/
def FileSink.put (codec : Codec AnchorRecord) (file : Bytes) (rec : AnchorRecord) : Option Nat → Bytes × Bool
  | none => (file ++ line codec rec, true)
  | some n => (file ++ (line codec rec).take n, false)

def FileSink.list (codec : Codec AnchorRecord) (file : Bytes) : Option (List AnchorRecord) :=
  scan codec (4 * 1024 * 1024) file

end Mxid.Audit
