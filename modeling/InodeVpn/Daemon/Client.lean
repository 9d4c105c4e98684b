import InodeVpn.Core.Ipc
import InodeVpn.Core.Config

namespace InodeVpn.Daemon
open InodeVpn.Core Lib Lib.Json

/-- The response in which `dispatch` sends its answer. -/
def respond (id : UInt64) : Reply → Ipc.Response
  | .pong version =>
    .ok id (struct true [("pong", .bool true), ("version", ofString version)])
  | .status snapshot => .ok id (snapshot.encode true)
  | .accepted => .ok id (struct true [("accepted", .bool true)])
  | .subscribed => .ok id (struct true [("subscribed", .bool true)])
  | .err code message => .err id (Int32.ofInt code) message

/-- What a connection leaves behind. -/
structure Served (σ : Type) where
  state : σ
  /-- one line each -/
  responses : List Ipc.Response := []
  /-- the client stays, to be sent events -/
  subscribed : Bool := false

section HandleClient
variable {σ : Type} (dispatch : σ → Ipc.Request → σ × Reply)
  (fromStr : Text → Except String Ipc.Request)

/-- The loop of `handle_client` over the lines that come in. The requests are dispatched to the
daemon in whatever state the ones before, and other threads, have left it; `fromStr` is
`serde_json::from_str`, with its error as a text. -/
def serveLines (s : σ) : List Text → Served σ
  | [] => { state := s }
  | line :: lines =>
    if trimLine line = [] then serveLines s lines
    else
      match fromStr (trimLine line) with
      | .error e =>
        let rest := serveLines s lines
        { rest with responses := .err 0 (-32700) ("parse error: " ++ e) :: rest.responses }
      | .ok request =>
        if request.method = "subscribe" then
          { state := s, responses := [respond request.id .subscribed], subscribed := true }
        else
          let answer := dispatch s request
          let rest := serveLines answer.1 lines
          { rest with responses := respond request.id answer.2 :: rest.responses }

/-- `handle_client`. -/
def handleClient (peerUid : Except Error Nat) (targetUid : Nat) (s : σ) (received : Text) :
    Served σ :=
  match peerUid with
  | .ok uid =>
    if uid = 0 ∨ uid = targetUid then serveLines dispatch fromStr s (readLines received)
    else { state := s }
  | .error _ => { state := s }

end HandleClient

/-- What `from_str` makes of a request that was written by `to_vec`. -/
def readRequest (parseError : Text → String) (line : Text) : Except String Ipc.Request :=
  match (parse line).bind Ipc.Request.decode with
  | some request => .ok request
  | none => .error (parseError line)

/-- What the thread of a subscriber writes. -/
def eventLine (e : Event) : Ipc.Event := .new e.method (e.params.encode true)

end InodeVpn.Daemon
