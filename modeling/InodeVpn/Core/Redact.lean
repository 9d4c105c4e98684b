import InodeVpn.Core.Config
import InodeVpn.Lib.Json
import InodeVpn.Lib.Replace

namespace InodeVpn.Core
open Lib

def REDACTED : String := "<redacted>"

/-- One round of the loop of `redact`. -/
def redactOne (out : List Char) (secret : String) : List Char :=
  if secret.toList <:+: out then replace secret.toList REDACTED.toList out else out

def Redactor.redact (r : Redactor) (input : List Char) : List Char :=
  r.secrets.foldl redactOne input

end InodeVpn.Core
