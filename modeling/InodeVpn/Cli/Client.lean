import InodeVpn.Core.Ipc
import InodeVpn.Core.Config

namespace InodeVpn.Cli
open InodeVpn.Core Lib Lib.Json

/-- What a command prints, and its exit code. -/
structure Ended where
  out : String := ""
  err : String := ""
  code : Int
  deriving DecidableEq, Repr

def display : SessionState → String
  | .stopped => "Stopped"
  | .authenticating => "Authenticating"
  | .connecting => "Connecting"
  | .connected => "Connected"
  | .reconnecting => "Reconnecting"
  | .failed => "Failed"

/-- `status_text`. -/
def statusText (s : StatusSnapshot) : String :=
  (match s.state with
    | .connected =>
      "● vpn - 已连接 (active, running, ip " ++ ((s.session.bind SessionInfo.ip).getD "?") ++ ")\n"
    | .stopped => "○ vpn - 未连接 (inactive)\n"
    | state => "◐ vpn - " ++ display state ++ "\n") ++
  match s.lastError with
  | some e => "  最后错误: " ++ e ++ "\n"
  | none => ""

section Commands
variable (parseError : Text → String)

/-- `rpc`, once the request is written, on what the daemon sends back. -/
def rpc (received : Text) : Except String Ipc.Response :=
  match readLines received with
  | [] => .error (Error.ipc "connection closed").toString
  | line :: _ =>
    match readMessage Ipc.Response.decode line with
    | some response => .ok response
    | none => .error ("bad daemon response: " ++ parseError (trimLine line))

/-- `rpc` and `unwrap_result`: what the command goes on with, or how it ends. -/
def call (method : String) (received : Text) : Except Ended Value :=
  match rpc parseError received with
  | .error e => .error { err := method ++ " failed: " ++ e ++ "\n", code := 1 }
  | .ok response =>
    match response.error with
    | some e => .error { err := method ++ " failed: " ++ e.message ++ "\n", code := 1 }
    | none => .ok (response.result.getD (struct true []))

/-- `inode status`. -/
def status (json : Bool) (received : Text) : Ended :=
  match call parseError "status" received with
  | .error ended => ended
  | .ok value =>
    match StatusSnapshot.decode value with
    | none => { err := "status parse failed: " ++ parseError value.compact ++ "\n", code := 1 }
    | some s =>
      { out := if json then String.ofList ((s.encode false).pretty 0) ++ "\n" else statusText s
        code := s.state.exitCode }

/-- `value.get("accepted").and_then(Value::as_bool) == Some(true)`. -/
def isAccepted : Value → Bool
  | .object members =>
    match findLast "accepted" (members.map fun m => (String.ofList m.1, m.2)) with
    | .one (.bool b) => b
    | _ => false
  | _ => false

/-- `inode start`, `inode stop` and `inode restart`. -/
def command (method : String) (received : Text) : Ended :=
  match call parseError method received with
  | .error ended => ended
  | .ok value => { out := if isAccepted value then method ++ " accepted\n" else "", code := 0 }

end Commands

/-- The loop of `run_watch`: what is printed for each line. -/
def watchLine (json : Bool) (line : Text) : String :=
  match readMessage Ipc.Event.decode line with
  | none => ""
  | some event =>
    if event.method = "state_changed" then
      if json then String.ofList (event.params.pretty 0) ++ "\n"
      else
        match StatusSnapshot.decode event.params with
        | some s => statusText s ++ "---\n"
        | none => ""
    else ""

/-- `run_watch`, once `subscribe` is written, until the daemon closes the connection. -/
def watch (json : Bool) (received : Text) : Ended :=
  match readLines received with
  | [] =>
    { err := "subscribe failed: " ++ (Error.ipc "connection closed").toString ++ "\n", code := 1 }
  | line :: lines =>
    match readMessage Ipc.Response.decode line with
    | none => { err := "bad subscribe response\n", code := 1 }
    | some response =>
      match response.error with
      | some e => { err := "subscribe failed: " ++ e.message ++ "\n", code := 1 }
      | none => { out := String.join (lines.map (watchLine json)), code := 0 }

end InodeVpn.Cli
