import InodeVpn.Cli.Client
import InodeVpn.Daemon.Client
import InodeVpn.Daemon.System
import InodeVpn.Proofs.IpcWire

namespace InodeVpn.Proofs.Conversation
open InodeVpn.Core Lib Lib.Json Daemon Cli IpcWire

section Depths

theorem mem_present {fields : List (String × Option Value)} {f : String × Value}
    (h : f ∈ present fields) : (f.1, some f.2) ∈ fields := by
  obtain ⟨f', hf', hmap⟩ := List.mem_filterMap.mp h
  obtain ⟨v, hv, rfl⟩ := Option.map_eq_some_iff.mp hmap
  rw [← hv]
  exact hf'

/-- A struct is one deeper than the deepest of its fields. -/
theorem depth_present {fields : List (String × Option Value)} {d : Nat} (sorted : Bool)
    (h : ∀ f ∈ fields, ∀ v ∈ f.2, v.depth ≤ d) : (struct sorted (present fields)).depth ≤ d + 1 :=
  depth_struct sorted fun _ hf => h _ (mem_present hf) _ rfl

theorem depth_map {α : Type} {encode : α → Value} {d : Nat} {a : Option α}
    (h : ∀ x ∈ a, (encode x).depth ≤ d) : ∀ v ∈ a.map encode, v.depth ≤ d := by
  intro v hv
  obtain ⟨x, hx, rfl⟩ := Option.map_eq_some_iff.mp hv
  exact h x hx

theorem depth_snapshot (sorted : Bool) (s : StatusSnapshot) : (s.encode sorted).depth ≤ 3 := by
  have hstring (a : Option String) (d : Nat) : ∀ v ∈ a.map ofString, v.depth ≤ d :=
    depth_map fun _ _ => Nat.zero_le d
  have hnat (a : Option Nat) (d : Nat) : ∀ v ∈ a.map ofNat, v.depth ≤ d :=
    depth_map fun _ _ => Nat.zero_le d
  have hsession (i : SessionInfo) : (i.encode sorted).depth ≤ 2 := by
    refine depth_present sorted ?_
    simp only [List.forall_mem_cons, List.not_mem_nil, false_implies, implies_true, and_true,
      Option.mem_some_iff, forall_eq']
    exact ⟨hstring _ _, hnat _ _, depth_ofStrings _, depth_ofStrings _, hnat _ _⟩
  have hstats (t : Stats) : (t.encode sorted).depth ≤ 2 := by
    refine depth_present sorted ?_
    simp [ofNat, Value.depth]
  have hhealth (h : HealthStatus) : (h.encode sorted).depth ≤ 2 := by
    refine depth_present sorted ?_
    simp only [List.forall_mem_cons, List.not_mem_nil, false_implies, implies_true, and_true,
      Option.mem_some_iff, forall_eq']
    exact ⟨Nat.zero_le _, hstring _ _⟩
  have hservice (t : ServiceStatus) : (t.encode sorted).depth ≤ 2 := by
    refine depth_present sorted ?_
    simp [ofString, Value.depth]
  refine depth_present sorted ?_
  simp only [List.forall_mem_cons, List.not_mem_nil, false_implies, implies_true, and_true,
    Option.mem_some_iff, forall_eq']
  exact ⟨Nat.zero_le _, hstring _ _, hstring _ _, depth_map fun i _ => hsession i,
    depth_map fun t _ => hstats t, hstring _ _, depth_map fun h _ => hhealth h, hservice _⟩

end Depths

section Travel

theorem travels_request {r : Ipc.Request} (h : r.params.depth < DEPTH) :
    Travels Ipc.Request.encode Ipc.Request.decode r where
  object := ⟨_, rfl⟩
  depth := by
    have hparams : r.params.depth ≤ 126 := Nat.le_of_lt_succ h
    refine depth_present (d := 126) false ?_
    simp [ofString, ofNat, Value.depth, hparams]
  decodes := decode_request r

theorem travels_response {r : Ipc.Response} (hresult : ∀ v ∈ r.result, v.depth < DEPTH)
    (hnull : r.result ≠ some .null) : Travels Ipc.Response.encode Ipc.Response.decode r where
  object := ⟨_, rfl⟩
  depth := by
    have herror : ∀ v ∈ r.error.map Ipc.RpcError.encode, v.depth ≤ 126 := depth_map fun e _ => by
      have hdepth : e.encode.depth ≤ 0 + 1 := by
        refine depth_present false ?_
        simp [ofString, ofInt, Value.depth]
      omega
    refine depth_present (d := 126) false ?_
    simp only [List.forall_mem_cons, List.not_mem_nil, false_implies, implies_true, and_true,
      Option.mem_some_iff, forall_eq']
    exact ⟨Nat.zero_le _, Nat.zero_le _, fun v hv => Nat.le_of_lt_succ (hresult v hv), herror⟩
  decodes := decode_response hnull

theorem travels_event {e : Ipc.Event} (h : e.params.depth < DEPTH) :
    Travels Ipc.Event.encode Ipc.Event.decode e where
  object := ⟨_, rfl⟩
  depth := by
    have hparams : e.params.depth ≤ 126 := Nat.le_of_lt_succ h
    refine depth_present (d := 126) false ?_
    simp [ofString, Value.depth, hparams]
  decodes := decode_event e

/-- Every answer of the daemon reaches the client as it is. -/
theorem travels_respond (id : UInt64) (reply : Reply) :
    Travels Ipc.Response.encode Ipc.Response.decode (respond id reply) := by
  have hflat (sorted : Bool) (fields : Fields) (h : ∀ f ∈ fields, f.2.depth ≤ 0) :
      (struct sorted fields).depth < DEPTH :=
    Nat.lt_of_le_of_lt (depth_struct sorted h) (by decide)
  cases reply with
  | status snapshot =>
    refine travels_response (fun v hv => ?_) (by rintro ⟨⟩)
    obtain rfl := Option.mem_some_iff.mp hv
    exact Nat.lt_of_le_of_lt (depth_snapshot true snapshot) (by decide)
  | err code message => exact travels_response (by rintro v ⟨⟩) (by rintro ⟨⟩)
  | _ =>
    refine travels_response (fun v hv => ?_) (by rintro ⟨⟩)
    obtain rfl := Option.mem_some_iff.mp hv
    exact hflat true _ (by simp [ofString, Value.depth])

theorem travels_err (id : UInt64) (code : Int32) (message : String) :
    Travels Ipc.Response.encode Ipc.Response.decode (.err id code message) :=
  travels_response (by rintro v ⟨⟩) (by rintro ⟨⟩)

end Travel

/-- What a line of a client is to the daemon. -/
inductive Sent
  | blank
  | request (r : Ipc.Request)
  | other (error : String)

def sent (fromStr : Text → Except String Ipc.Request) (line : Text) : Sent :=
  if trimLine line = [] then .blank
  else
    match fromStr (trimLine line) with
    | .ok r => .request r
    | .error e => .other e

namespace Sent

def Subscribes : Sent → Prop
  | request r => r.method = "subscribe"
  | _ => False

instance (x : Sent) : Decidable x.Subscribes := by
  unfold Subscribes
  split <;> infer_instance

/-- The lines up to the first that subscribes; no more of them are read. -/
def heard : List Sent → List Sent
  | [] => []
  | x :: script => if x.Subscribes then [x] else x :: heard script

variable {σ : Type} (dispatch : σ → Ipc.Request → σ × Reply)

def after (s : σ) (x : Sent) : σ :=
  match x with
  | request r => if r.method = "subscribe" then s else (dispatch s r).1
  | _ => s

def answers (s : σ) : Sent → List Ipc.Response
  | blank => []
  | request r =>
    [respond r.id (if r.method = "subscribe" then .subscribed else (dispatch s r).2)]
  | other e => [.err 0 (-32700) ("parse error: " ++ e)]

theorem after_of_subscribes {x : Sent} (h : x.Subscribes) (s : σ) : x.after dispatch s = s := by
  cases x with
  | request r => exact if_pos h
  | _ => exact h.elim

/-- The answers to one line after the other, each in the state that the lines before it have
left. -/
def allAnswers (s : σ) (script : List Sent) : List Ipc.Response :=
  (script.mapIdx fun i x => x.answers dispatch ((script.take i).foldl (after dispatch) s)).flatten

theorem allAnswers_cons (s : σ) (x : Sent) (script : List Sent) :
    allAnswers dispatch s (x :: script) =
      x.answers dispatch s ++ allAnswers dispatch (x.after dispatch s) script := by
  simp [allAnswers, List.mapIdx_cons]

end Sent

section Serving
variable {σ : Type} {dispatch : σ → Ipc.Request → σ × Reply}
  {fromStr : Text → Except String Ipc.Request} {uid targetUid : Nat}

/-- One line more. -/
theorem serveLines_cons (s : σ) (line : Text) (lines : List Text) :
    serveLines dispatch fromStr s (line :: lines) =
      let x := sent fromStr line
      if x.Subscribes then
        { state := s, responses := x.answers dispatch s, subscribed := true }
      else
        let rest := serveLines dispatch fromStr (x.after dispatch s) lines
        { rest with responses := x.answers dispatch s ++ rest.responses } := by
  rw [serveLines, sent]
  split
  · exact (if_neg not_false).symm
  · cases fromStr (trimLine line) with
    | error e => exact (if_neg not_false).symm
    | ok r =>
      simp only [Sent.Subscribes, Sent.answers, Sent.after]
      split <;> rfl

/-- The loop answers every line that it hears, by induction on the lines. -/
theorem serveLines_eq (s : σ) (lines : List Text) :
    let script := Sent.heard (lines.map (sent fromStr))
    serveLines dispatch fromStr s lines =
      { state := script.foldl (Sent.after dispatch) s
        responses := Sent.allAnswers dispatch s script
        subscribed := decide (∃ x ∈ script, x.Subscribes) } := by
  induction lines generalizing s with
  | nil => rfl
  | cons line lines ih =>
    rw [serveLines_cons, List.map_cons]
    generalize sent fromStr line = x
    dsimp only [Sent.heard]
    by_cases hx : x.Subscribes
    · simp [hx, Sent.allAnswers, Sent.after_of_subscribes dispatch hx]
    · simp [hx, ih, Sent.allAnswers_cons]

theorem travels_answers (s : σ) (x : Sent) {r : Ipc.Response}
    (h : r ∈ x.answers dispatch s) : Travels Ipc.Response.encode Ipc.Response.decode r := by
  cases x with
  | blank => cases h
  | request q =>
    obtain rfl := List.mem_singleton.mp h
    exact travels_respond _ _
  | other e =>
    obtain rfl := List.mem_singleton.mp h
    exact travels_err _ _ _

/-- A client that is root or the target user hears one answer to every line that is not blank, in
order and up to its first `subscribe`: to a request what the daemon made of it after the lines
before, under the request's id, and to any other line a parse error. -/
theorem conversation (hpeer : uid = 0 ∨ uid = targetUid) (s : σ) (received : Text) :
    let served := handleClient dispatch fromStr (.ok uid) targetUid s received
    let script := Sent.heard ((readLines received).map (sent fromStr))
    (readLines (sendAll Ipc.Response.encode served.responses)).map
        (readMessage Ipc.Response.decode) = (Sent.allAnswers dispatch s script).map some ∧
      served.state = script.foldl (Sent.after dispatch) s ∧
      (served.subscribed = true ↔ ∃ x ∈ script, x.Subscribes) := by
  intro served script
  have hserved : served = _ := (if_pos hpeer).trans (serveLines_eq s (readLines received))
  refine ⟨?_, congrArg Served.state hserved, by rw [hserved, decide_eq_true_iff]⟩
  rw [hserved]
  refine readMessages_sendAll fun r hr => ?_
  obtain ⟨l, hl, hrl⟩ := List.mem_flatten.mp hr
  obtain ⟨i, hi, rfl⟩ := List.mem_mapIdx.mp hl
  exact travels_answers _ _ hrl

/-- The requests that the daemon answers in one section. -/
def atRest (d : Shared) (r : Ipc.Request) : Shared × Reply :=
  match requestNext {} d ⟨r.id.toNat, r.method⟩ .dispatch with
  | some ⟨shared, .replied response, _, _⟩ => (shared, response.reply)
  | _ => (d, .err (-32001) "not at rest")

def asleep : Shared := Shared.new 1000 1000 none []

/-- A request without parameters, a blank line, one that is no request, and a subscription, behind
which nothing is heard. -/
def spoken : String :=
  "\x7b\"jsonrpc\":\"2.0\", \"id\":7, \"method\":\"ping\"\x7d\r\n \nx\n" ++
    "\x7b\"id\":8,\"method\":\"subscribe\",\"jsonrpc\":\"2.0\"\x7d\nx\n"

theorem conversation_asleep :
    let served := handleClient atRest (readRequest fun _ => "expected value at line 1 column 1")
      (.ok 0) 1000 asleep spoken.toList
    (readLines (sendAll Ipc.Response.encode served.responses)).map
        (readMessage Ipc.Response.decode) =
      [some (respond 7 (.pong VERSION)),
        some (.err 0 (-32700) "parse error: expected value at line 1 column 1"),
        some (respond 8 .subscribed)] :=
  (@conversation Shared atRest (readRequest fun _ => "expected value at line 1 column 1") 0 1000
    (Or.inl rfl) asleep spoken.toList).1.trans rfl

end Serving

section Client
variable {σ : Type} {dispatch : σ → Ipc.Request → σ × Reply} {parseError : Text → String}
variable {uid targetUid : Nat}

/-- What `rpc` returns when the daemon serves its one request. -/
theorem rpc_answer (hpeer : uid = 0 ∨ uid = targetUid) (s : σ) {r : Ipc.Request}
    (hdepth : r.params.depth < DEPTH) (hmethod : r.method ≠ "subscribe") :
    rpc parseError (sendAll Ipc.Response.encode
      (handleClient dispatch (readRequest parseError) (.ok uid) targetUid s
        (writeLine r.encode)).responses) = .ok (respond r.id (dispatch s r).2) := by
  have hsent : sent (readRequest parseError) (writeLine r.encode) = .request r := by
    have hread : (parse (trimLine (writeLine r.encode))).bind Ipc.Request.decode = some r :=
      readMessage_writeLine (travels_request hdepth)
    have hne : trimLine (writeLine r.encode) ≠ [] := by
      intro hnil
      rw [hnil] at hread
      cases hread
    rw [sent, if_neg hne, readRequest, hread]
  have hone : (handleClient dispatch (readRequest parseError) (.ok uid) targetUid s
      (writeLine r.encode)).responses = [respond r.id (dispatch s r).2] := by
    have hlines : readLines (writeLine r.encode) = [writeLine r.encode] := by
      have hwritten := readLines_written [r.encode]
      simpa using hwritten
    rw [handleClient, if_pos hpeer, hlines, serveLines_eq, List.map_singleton, hsent]
    simp [Sent.heard, Sent.Subscribes, Sent.allAnswers, Sent.answers, hmethod]
  have hlines := readLines_written [(respond r.id (dispatch s r).2).encode]
  simp only [List.flatMap_singleton, List.map_singleton] at hlines
  rw [hone, rpc]
  simp only [sendAll, List.flatMap_singleton, hlines, readMessage_writeLine (travels_respond _ _)]

end Client

section Commands
variable {σ : Type} {dispatch : σ → Ipc.Request → σ × Reply} {parseError : Text → String}
variable {uid targetUid : Nat}

/-- What the daemon sends back for one request without parameters. -/
def answered (dispatch : σ → Ipc.Request → σ × Reply) (parseError : Text → String)
    (uid targetUid : Nat) (s : σ) (method : String) : Text :=
  sendAll Ipc.Response.encode (handleClient dispatch (readRequest parseError) (.ok uid) targetUid s
    (writeLine (Ipc.Request.withParams 1 method (object [])).encode)).responses

theorem rpc_answered (hpeer : uid = 0 ∨ uid = targetUid) (s : σ) {method : String}
    (hmethod : method ≠ "subscribe") :
    rpc parseError (answered dispatch parseError uid targetUid s method) =
      .ok (respond 1 (dispatch s (.withParams 1 method (object []))).2) :=
  rpc_answer (r := .withParams 1 method (object [])) hpeer s
    (show (object []).depth < DEPTH by decide) hmethod

theorem document_status {s : StatusSnapshot} (h : s.Fits) :
    (parse ((s.encode false).pretty 0 ++ ['\n'])).bind StatusSnapshot.decode = some s := by
  have hblank : Blank ['\n'] := fun c hc => by rw [List.mem_singleton.mp hc]; rfl
  have hdepth : (s.encode false).depth ≤ DEPTH := Nat.le_trans (depth_snapshot false s) (by decide)
  rw [parse_iff.mpr ⟨document_pretty 0 (s.encode false) hblank, hdepth⟩, Option.bind_some,
    decode_snapshot false h]

/-- `inode status` shows the snapshot that the daemon has answered with, as a text or as a JSON
document that says the same, and ends with the exit code of its state. -/
theorem status_shown (hpeer : uid = 0 ∨ uid = targetUid) (s : σ) {snapshot : StatusSnapshot}
    (hreply : (dispatch s (.withParams 1 "status" (object []))).2 = .status snapshot)
    (hfits : snapshot.Fits) :
    let shown := fun json =>
      Cli.status parseError json (answered dispatch parseError uid targetUid s "status")
    shown false = { out := statusText snapshot, code := snapshot.state.exitCode } ∧
      (shown true).code = snapshot.state.exitCode ∧
      (parse (shown true).out.toList).bind StatusSnapshot.decode = some snapshot := by
  have hcall : call parseError "status" (answered dispatch parseError uid targetUid s "status") =
      .ok (snapshot.encode true) := by
    rw [call, rpc_answered hpeer s (by decide), hreply]
    rfl
  have hshown (json : Bool) :
      Cli.status parseError json (answered dispatch parseError uid targetUid s "status") =
        { out := if json then String.ofList ((snapshot.encode false).pretty 0) ++ "\n"
            else statusText snapshot
          code := snapshot.state.exitCode } := by
    rw [Cli.status, hcall]
    dsimp only
    rw [decode_snapshot true hfits]
  intro shown
  refine ⟨hshown false, congrArg Ended.code (hshown true), ?_⟩
  have htext : (shown true).out.toList = (snapshot.encode false).pretty 0 ++ ['\n'] := by
    rw [congrArg Ended.out (hshown true), if_pos rfl, String.toList_append, String.toList_ofList]
    rfl
  rw [htext, document_status hfits]

theorem status_shown_asleep :
    (parse (Cli.status (fun _ => "") true
      (answered atRest (fun _ => "") 1000 1000 asleep "status")).out.toList).bind
        StatusSnapshot.decode = some asleep.inner.snapshot :=
  (@status_shown Shared atRest (fun _ => "") 1000 1000 (Or.inr rfl) asleep
    asleep.inner.snapshot rfl
    ⟨by rintro i ⟨⟩, by rintro i ⟨⟩, by simp [asleep, Shared.new, Inner.snapshot]⟩).2.2

/-- `inode start`, `stop` and `restart` succeed exactly when the daemon has accepted, and
otherwise show its message. -/
theorem command_told (hpeer : uid = 0 ∨ uid = targetUid) (s : σ) {method : String}
    (hmethod : method ≠ "subscribe") {reply : Reply}
    (hreply : (dispatch s (.withParams 1 method (object []))).2 = reply) :
    (reply = .accepted →
      command parseError method (answered dispatch parseError uid targetUid s method) =
        { out := method ++ " accepted\n", code := 0 }) ∧
      ∀ code message, reply = .err code message →
        command parseError method (answered dispatch parseError uid targetUid s method) =
          { err := method ++ " failed: " ++ message ++ "\n", code := 1 } := by
  constructor
  · rintro rfl
    have hcall : call parseError method (answered dispatch parseError uid targetUid s method) =
        .ok (struct true [("accepted", .bool true)]) := by
      rw [call, rpc_answered hpeer s hmethod, hreply]
      rfl
    have haccepted : isAccepted (struct true [("accepted", .bool true)]) = true := by
      simp [struct, object, isAccepted, findLast]
    simp only [command, hcall, haccepted, if_true]
  · rintro code message rfl
    have hcall : call parseError method (answered dispatch parseError uid targetUid s method) =
        .error { err := method ++ " failed: " ++ message ++ "\n", code := 1 } := by
      rw [call, rpc_answered hpeer s hmethod, hreply]
      rfl
    simp only [command, hcall]

theorem command_told_unknown :
    command (fun _ => "") "frob" (answered atRest (fun _ => "") 0 1000 asleep "frob") =
      { err := "frob failed: method not found: frob\n", code := 1 } :=
  (@command_told Shared atRest (fun _ => "") 0 1000 (Or.inl rfl) asleep "frob"
    (by decide) _ rfl).2 (-32601) "method not found: frob" rfl

/-- What the daemon sends to a client that has subscribed: the answer, and the events. -/
def subscription (events : List Event) : Text :=
  sendAll Ipc.Response.encode [respond 1 .subscribed] ++
    sendAll Ipc.Event.encode (events.map eventLine)

/-- What `inode status --watch` shows of an event. -/
def shownEvent (json : Bool) (e : Event) : String :=
  if json then String.ofList ((e.params.encode true).pretty 0) ++ "\n"
  else statusText e.params ++ "---\n"

/-- `inode status --watch` shows the state changes that the daemon has emitted, each with the
snapshot it carries, in order, and nothing else. -/
theorem watch_follows (json : Bool) {events : List Event} (hfits : ∀ e ∈ events, e.params.Fits) :
    watch json (subscription events) =
      { out := String.join ((events.filter (·.method = "state_changed")).map (shownEvent json))
        code := 0 } := by
  have hline (e : Event) (he : e.params.Fits) :
      watchLine json (writeLine (eventLine e).encode) =
        if e.method = "state_changed" then shownEvent json e else "" := by
    have htravels : Travels Ipc.Event.encode Ipc.Event.decode (eventLine e) :=
      travels_event (Nat.lt_of_le_of_lt (depth_snapshot true e.params) (by decide))
    rw [watchLine, readMessage_writeLine htravels]
    simp only [eventLine, Ipc.Event.new, shownEvent, decode_snapshot true he]
  have hlines : readLines (subscription events) =
      writeLine (respond 1 .subscribed).encode ::
        events.map fun e => writeLine (eventLine e).encode := by
    have hwritten := readLines_written
      ((respond 1 .subscribed).encode :: events.map fun e => (eventLine e).encode)
    simpa [subscription, sendAll, List.flatMap_map, Function.comp_def] using hwritten
  have hjoin : String.join (events.map fun e => watchLine json (writeLine (eventLine e).encode)) =
      String.join ((events.filter (·.method = "state_changed")).map (shownEvent json)) := by
    clear hlines
    induction events with
    | nil => rfl
    | cons e events ih =>
      have hrest := ih fun x hx => hfits x (by simp [hx])
      rw [List.map_cons, String.join_cons, hrest, hline e (hfits e (by simp))]
      by_cases hmethod : e.method = "state_changed"
      · rw [if_pos hmethod, List.filter_cons_of_pos (by simpa using hmethod), List.map_cons,
          String.join_cons]
      · rw [if_neg hmethod, List.filter_cons_of_neg (by simpa using hmethod), String.empty_append]
  rw [watch, hlines]
  dsimp only
  rw [readMessage_writeLine (travels_respond 1 .subscribed)]
  simp only [List.map_map, Function.comp_def, hjoin]
  rfl

theorem watch_follows_asleep :
    watch false (subscription
      [⟨"state_changed", asleep.inner.snapshot⟩, ⟨"stats", asleep.inner.snapshot⟩]) =
      { out := String.join [shownEvent false ⟨"state_changed", asleep.inner.snapshot⟩]
        code := 0 } :=
  watch_follows false (by
    intro e he
    simp only [List.mem_cons, List.not_mem_nil, or_false] at he
    rcases he with rfl | rfl <;>
      exact ⟨by rintro i ⟨⟩, by rintro i ⟨⟩, by simp [asleep, Shared.new, Inner.snapshot]⟩)

end Commands

end InodeVpn.Proofs.Conversation
