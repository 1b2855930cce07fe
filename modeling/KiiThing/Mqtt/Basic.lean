import KiiThing.Core.Basic
import KiiThing.Lib.Interaction
import KiiThing.Sdk.Response

/-!
# The data of the push routine

What `kii_push.c` and `kii_mqtt.c` work on: the endpoint of the broker, the socket and the buffer of
`kii_t`, and the requests that the two tasks make of their surroundings.

* A function of the source is a program that makes requests (`Prog`): each call of a callback is one,
  and so is each write to `_mqtt_connected`, which the other task reads.
* `mqtt_buffer` and `mqtt_buffer_size` are a buffer; NULL is one of size 0.
* A callback may change `mqtt_socket_context.socket`: its reply tells the value that it leaves.
* With the macros as they are in the repository, the port is the one for TLS
  (`KII_MQTT_USE_PORT_TCP` is not defined).
-/

namespace KiiThing

open Http

variable {w : Nat}

/-- `kii_mqtt_endpoint_t`. -/
structure Endpoint where
  username : CharArray 64
  password : CharArray 128
  topic : CharArray 64
  host : CharArray 64
  portTcp : Nat
  portSsl : Nat
  ttl : Nat

theorem pos_64 : 0 < 64 := by decide

theorem pos_128 : 0 < 128 := by decide

/-- `memset(&endpoint, 0x00, sizeof(kii_mqtt_endpoint_t))`. -/
def Endpoint.empty : Endpoint :=
  ⟨.empty 64 pos_64, .empty 128 pos_128, .empty 64 pos_64, .empty 64 pos_64, 0, 0, 0⟩

/-- The part of `kii_t` that the push routine works on. -/
structure Push (w : Nat) where
  /-- `mqtt_socket_context.socket`. -/
  socket : Int
  /-- `mqtt_buffer`, of `mqtt_buffer_size` bytes. -/
  buffer : Buffer w

/-- A `kii_t` with an open socket and a buffer of 64 bytes. -/
def openPush : Push 32 := ⟨1, ⟨List.replicate 64 0, by decide, by decide⟩⟩

/-! ## Requests -/

/-- What a task asks of its surroundings. -/
inductive PushCall where
  | connect (host : CString) (port : Nat)
  | send (data : List Byte)
  | recv (lengthToRead : Nat)
  | close
  /-- The write to `_mqtt_connected`. -/
  | setConnected (connected : Bool)
  /-- `push_received_cb`. The message begins `message` bytes behind the start of the memory
  `buffer`. -/
  | pushReceived (buffer : List Byte) (message : Int) (messageLength : Nat)
  /-- `kiiPush_install`. -/
  | install
  /-- `kiiPush_retrieveEndpoint`. -/
  | retrieveEndpoint (installationId : CString)
  | delay (msec : Nat)
  deriving DecidableEq

/-- The answer of a socket callback. `data` is what `recv_cb` has stored, and its length is
`out_actual_length`; the other callbacks leave it empty. -/
structure SocketReply where
  code : SocketCode
  data : List Byte
  /-- `socket_context.socket` behind the call. -/
  socket : Int

/-- The reply to a request. An installation that succeeds has an id. The endpoint is the one that
`kiiPush_retrieveEndpoint` leaves in the caller's variable, whatever it returns. -/
def PushCall.Reply : PushCall → Type
  | connect _ _ => SocketReply
  | send _ => SocketReply
  | recv _ => SocketReply
  | close => SocketReply
  | setConnected _ => Unit
  | pushReceived _ _ _ => Unit
  | install => Option CString
  | retrieveEndpoint _ => RetrieveEndpointResult × Endpoint
  | delay _ => Unit

/-- A function of the source. -/
abbrev PushProg (α : Type) := Prog PushCall PushCall.Reply α

/-- What a function returns that fails, and one that does not. -/
theorem fails_ne : (-1 : Int) ≠ 0 := by decide

namespace Push

/-! ## The callbacks -/

/-- `mqtt_socket_connect_cb`. -/
def connectCb (m : Push w) (host : CString) (port : Nat) : PushProg (SocketCode × Push w) :=
  .ask (.connect host port) fun (r : SocketReply) => .done (r.code, { m with socket := r.socket })

/-- `mqtt_socket_send_cb`. -/
def sendCb (m : Push w) (data : List Byte) : PushProg (SocketCode × Push w) :=
  .ask (.send data) fun (r : SocketReply) => .done (r.code, { m with socket := r.socket })

/-- `mqtt_socket_recv_cb`, with the buffer from `p` on and room for `lengthToRead` bytes. -/
def recvCb (m : Push w) (p lengthToRead : Nat) : PushProg (SocketCode × Nat × Push w) :=
  .ask (.recv lengthToRead) fun (r : SocketReply) =>
    .done (r.code, r.data.length, ⟨r.socket, m.buffer.write p r.data⟩)

/-- `mqtt_socket_close_cb`. -/
def closeCb (m : Push w) : PushProg (SocketCode × Push w) :=
  .ask .close fun (r : SocketReply) => .done (r.code, { m with socket := r.socket })

end Push

end KiiThing
