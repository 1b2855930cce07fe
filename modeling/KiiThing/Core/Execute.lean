import KiiThing.Core.ContentLength
import KiiThing.Lib.Loop

/-!
# The engine

`prv_kii_http_execute` makes one step of an exchange: it looks at `_socket_state`, calls one of the
socket callbacks, and moves on, waits or fails. `kii_core_run` wraps it in the states of the SDK
object, and every `kii_*` function calls it until `_state` is IDLE again (`runToIdle`).

A step works on the object and on the trace of the exchange so far; the callbacks answer to the
trace (`Callbacks`).
-/

namespace KiiThing

open Http

variable {w : Nat}

/-- `KII_SERVER_PORT`. -/
def kiiServerPort : Nat := 443

/-- `KII_SOCKET_MAX_BUFF_SIZE`. -/
def kiiSocketMaxBuffSize : Nat := 256

/-- `HTTP1_1`. -/
def http1_1 : List Byte := ascii "HTTP/1.1 "

/-- An exchange under way. -/
structure Exchange (w : Nat) where
  core : Core w
  trace : List Event

/-- Call a callback. -/
def Exchange.ask (cbs : Callbacks) (x : Exchange w) (c : Call) : Reply × List Event :=
  (cbs x.trace c, x.trace ++ [⟨c, cbs x.trace c⟩])

/-- The `default` branch of a callback's answer: the socket has failed. -/
def socketError (k : Core w) : Core w :=
  { k with http.socketState := .idle, http.httpError := .socket }

/-- `case PRV_KII_SOCKET_STATE_IDLE`. -/
def executeIdle (x : Exchange w) : HttpCode × Exchange w :=
  (.again, { x with core := { x.core with
    http.sentSize := 0
    http.receivedSize := 0
    http.socketState := .connect
    http.responseLength := 0
    http.contentLengthScanned := false
    http.httpError := .none } })

/-- `case PRV_KII_SOCKET_STATE_CONNECT`. -/
def executeConnect (cbs : Callbacks) (x : Exchange w) : HttpCode × Exchange w :=
  let (reply, tr) := x.ask cbs (.connect (x.core.hostStr x.core.http.host) kiiServerPort)
  match reply.code with
  | .ok => (.again, ⟨{ x.core with http.socketState := .send }, tr⟩)
  | .again => (.again, ⟨x.core, tr⟩)
  | .fail => (.fail, ⟨socketError x.core, tr⟩)

/-- `case PRV_KII_SOCKET_STATE_SEND`. -/
def executeSend (cbs : Callbacks) (x : Exchange w) : HttpCode × Exchange w :=
  let h := x.core.http
  let size := min (h.totalSendSize - h.sentSize) kiiSocketMaxBuffSize
  let (reply, tr) := x.ask cbs (.send (Memory.slice h.buffer.bytes h.sentSize size))
  match reply.code with
  | .ok =>
    let sentSize := h.sentSize + size
    let socketState := if sentSize = h.totalSendSize then .recv else h.socketState
    (.again, ⟨{ x.core with http.sentSize := sentSize, http.socketState := socketState }, tr⟩)
  | .again => (.again, ⟨x.core, tr⟩)
  | .fail => (.fail, ⟨socketError x.core, tr⟩)

/-- The look for the end of the header in what has been received so far, and for the length of the
whole response when the header declares one. `none` while the header has no end. -/
def scanHeader (b : Buffer w) : Option (Option Nat) :=
  (b.strstr endOfHeader).map fun separator =>
    let contentLength := kiiParseContentLength w b.bytes
    if 0 < contentLength then some ((separator + 4 + contentLength) % 2 ^ w) else none

/-- `recv_cb` has stored `data` behind what was received before: `case KII_SOCKETC_OK`. -/
def takeRead (k : Core w) (data : List Byte) : HttpCode × Core w :=
  let h := k.http
  let b := h.buffer.write h.receivedSize data
  let receivedSize := h.receivedSize + data.length
  if b.size ≤ receivedSize then
    (.fail, { k with
      http.buffer := b
      http.receivedSize := receivedSize
      http.httpError := .insufficientBuffer })
  else
    -- the end of the header is looked for until it is found, and its length is read once
    let scan := if h.contentLengthScanned then none else scanHeader b
    let responseLength := scan.join.getD h.responseLength
    -- the length is reached, or the server has closed the connection
    let complete := (0 < responseLength ∧ responseLength ≤ receivedSize) ∨ data.length = 0
    (.again, { k with
      http.buffer := if complete then b.write receivedSize [0] else b
      http.receivedSize := receivedSize
      http.contentLengthScanned := h.contentLengthScanned || scan.isSome
      http.responseLength := responseLength
      http.socketState := if complete then .close else h.socketState })

/-- `case PRV_KII_SOCKET_STATE_RECV`. -/
def executeRecv (cbs : Callbacks) (x : Exchange w) : HttpCode × Exchange w :=
  let h := x.core.http
  let size := min (h.buffer.size - h.receivedSize) kiiSocketMaxBuffSize
  -- with the first read the request is wiped out
  let b := if h.receivedSize = 0 then h.buffer.clear else h.buffer
  let k := { x.core with http.buffer := b }
  let (reply, tr) := x.ask cbs (.recv size)
  match reply.code with
  | .ok => ((takeRead k reply.data).1, ⟨(takeRead k reply.data).2, tr⟩)
  | .again => (.again, ⟨k, tr⟩)
  | .fail => (.fail, ⟨socketError k, tr⟩)

/-- The status code: the three figures behind the first `HTTP/1.1 ` in the buffer. `none` when there
is no such text, `some none` when there are other characters behind it. -/
def statusCode (b : Buffer w) : Option (Option Nat) :=
  (b.strstr http1_1).map fun i =>
    match b.bytes.drop (i + http1_1.length) with
    | d₁ :: d₂ :: d₃ :: _ =>
      if Decimal.isDigit d₁ ∧ Decimal.isDigit d₂ ∧ Decimal.isDigit d₃ then
        some (Decimal.digitOf d₁ * 100 + Decimal.digitOf d₂ * 10 + Decimal.digitOf d₃)
      else none
    | _ => none

/-- `close_cb` has closed the connection: `case KII_HTTPC_OK`. -/
def takeResponse (k : Core w) : HttpCode × Core w :=
  match statusCode k.http.buffer with
  | none => (.fail, { k with http.httpError := .invalidResponse })
  | some none => (.fail, { k with responseCode := 0, http.httpError := .invalidResponse })
  | some (some code) =>
    let responseBody := (k.http.buffer.strstr endOfHeader).map (· + 4)
    (.ok, { k with
      responseCode := code
      responseBody := responseBody
      -- the length is only set together with the pointer
      responseBodyLength := responseBody.elim k.responseBodyLength (k.http.receivedSize - ·)
      http.socketState := .idle })

/-- `case PRV_KII_SOCKET_STATE_CLOSE`. -/
def executeClose (cbs : Callbacks) (x : Exchange w) : HttpCode × Exchange w :=
  let (reply, tr) := x.ask cbs .close
  match reply.code with
  | .ok => ((takeResponse x.core).1, ⟨(takeResponse x.core).2, tr⟩)
  | .again => (.again, ⟨x.core, tr⟩)
  | .fail => (.fail, ⟨socketError x.core, tr⟩)

/-- `prv_kii_http_execute`. -/
def prvKiiHttpExecute (cbs : Callbacks) (x : Exchange w) : HttpCode × Exchange w :=
  match x.core.http.socketState with
  | .idle => executeIdle x
  | .connect => executeConnect cbs x
  | .send => executeSend cbs x
  | .recv => executeRecv cbs x
  | .close => executeClose cbs x

/-- `kii_core_run`. -/
def kiiCoreRun (cbs : Callbacks) (x : Exchange w) : ErrorCode × Exchange w :=
  match x.core.state with
  | .idle => (.fail, x)
  | .ready => (.ok, { x with core := { x.core with state := .execute } })
  | .execute =>
    match prvKiiHttpExecute cbs x with
    | (.ok, x) => (.ok, { x with core := { x.core with state := .idle } })
    | (.again, x) => (.ok, x)
    | (.fail, x) => (.fail, { x with core := { x.core with state := .idle } })
  | .other _ => (.fail, x)

/-- `kii_core_get_state` is not IDLE. -/
def Exchange.busy (x : Exchange w) : Bool := x.core.state != .idle

/-- `do { core_err = kii_core_run(kii); } while (kii_core_get_state(kii) != KII_STATE_IDLE);` -/
def runToIdle (cbs : Callbacks) (fuel : Nat) (k : Core w) : Option (ErrorCode × Exchange w) :=
  Loop.doWhile (kiiCoreRun cbs) Exchange.busy fuel ⟨k, []⟩

end KiiThing
