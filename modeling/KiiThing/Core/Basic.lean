import KiiThing.Lib.Memory
import KiiThing.Lib.Http
import Mathlib.Data.List.TakeWhile
import Mathlib.Order.Basic

/-!
# The data of the SDK core

The types of `kii_core.h` and `kii_socket_callback.h`: strings, the communication buffer, the HTTP
context, the SDK object, and the four socket callbacks an application installs.

* A `const char*` argument is a `CString`: its bytes up to the terminator. A nullable one is an
  `Option CString`.
* `w` is the width of the target's machine word. On the SDK's targets (ILP32 microcontrollers and
  LP64 Linux) `size_t`, `long` and `unsigned long` are one word. Sizes are natural numbers; where
  the code adds a number it did not get from an object in memory, the sum is taken modulo `2 ^ w`.
* A pointer into the communication buffer (`_body_position`, `response_body`) is an offset.
* The callbacks belong to the application. `Callbacks` is an arbitrary strategy: an answer may
  depend on every call that was made before and on how it was answered.
-/

namespace KiiThing

open Http

abbrev Byte := UInt8

/-! ## Strings -/

/-- A NUL-terminated string, without its terminator. -/
@[ext] structure CString where
  bytes : List Byte
  noNul : ∀ b ∈ bytes, b ≠ 0
  deriving DecidableEq

namespace CString

/-- `strlen`. -/
def length (s : CString) : Nat := s.bytes.length

instance : Append CString where
  append a b := ⟨a.bytes ++ b.bytes, fun x hx =>
    (List.mem_append.mp hx).elim (a.noNul x) (b.noNul x)⟩

@[simp] theorem bytes_append (a b : CString) : (a ++ b).bytes = a.bytes ++ b.bytes := rfl

@[simp] theorem length_append (a b : CString) : (a ++ b).length = a.length + b.length :=
  List.length_append

/-- The string an array of bytes holds: what stands before its first NUL. -/
def ofArray (a : List Byte) : CString :=
  ⟨a.takeWhile (· ≠ 0), fun _ hb => by simpa using List.mem_takeWhile_imp hb⟩

/-- A string literal of the source. -/
def lit (s : String) : CString := ofArray (ascii s)

@[simp] theorem bytes_ofArray (a : List Byte) : (ofArray a).bytes = a.takeWhile (· ≠ 0) := rfl

end CString

/-- A `char` array of `n` bytes that holds a terminated string. -/
structure CharArray (n : Nat) where
  str : CString
  length_lt : str.length < n

/-! ## Return codes and states -/

/-- `kii_http_client_code_t`. -/
inductive HttpCode where
  | ok | fail | again
  deriving DecidableEq, Repr

/-- `kii_error_code_t`. -/
inductive ErrorCode where
  | ok | fail
  deriving DecidableEq, Repr

/-- `kii_http_error_t`. -/
inductive HttpError where
  | none | invalidResponse | insufficientBuffer | socket
  deriving DecidableEq, Repr

/-- `kii_socket_code_t`. Every value that is neither `KII_SOCKETC_OK` nor `KII_SOCKETC_AGAIN` takes
the `default` branch of the engine, as `fail` does. -/
inductive SocketCode where
  | ok | fail | again
  deriving DecidableEq, Repr

/-- `prv_kii_socket_state_t`. -/
inductive SocketState where
  | idle | connect | send | recv | close
  deriving DecidableEq, Repr

/-- `kii_state_t`. The object has an `int` for it, and that lies behind an array which is written
without a look at its size (`State.behind`): `other n` is the number `n + 3`, which has no name. -/
inductive State where
  | idle | ready | execute
  | other (n : Nat)
  deriving DecidableEq, Repr

/-! ## The communication buffer -/

/-- The memory behind `http_context.buffer`; `buffer_size` is its length. It is one object of the
target, so that its size is below `2 ^ (w - 1)` (a pointer difference inside of it is defined), and
`size_t` has 16 bits at least. -/
@[ext] structure Buffer (w : Nat) where
  bytes : List Byte
  length_lt : bytes.length < 2 ^ (w - 1)
  word_ge : 16 ≤ w
  deriving DecidableEq

namespace Buffer

variable {w : Nat}

/-- `buffer_size`. -/
def size (b : Buffer w) : Nat := b.bytes.length

/-- Store bytes; see `Memory.overwrite`. -/
def write (b : Buffer w) (p : Nat) (bs : List Byte) : Buffer w :=
  ⟨Memory.overwrite b.bytes p bs, by rw [Memory.length_overwrite]; exact b.length_lt, b.word_ge⟩

/-- `memmove` inside of the buffer. -/
def move (b : Buffer w) (dst src n : Nat) : Buffer w :=
  ⟨Memory.move b.bytes dst src n, by rw [Memory.length_move]; exact b.length_lt, b.word_ge⟩

/-- `memset(buffer, 0x00, buffer_size)`. -/
def clear (b : Buffer w) : Buffer w :=
  ⟨Memory.fill b.bytes 0, by rw [Memory.length_fill]; exact b.length_lt, b.word_ge⟩

/-- `strstr(buffer, pat)`: the search ends at the first NUL. -/
def strstr (b : Buffer w) (pat : List Byte) : Option Nat :=
  Search.find pat (b.bytes.takeWhile (· ≠ 0))

@[simp] theorem size_write (b : Buffer w) (p : Nat) (bs : List Byte) : (b.write p bs).size = b.size :=
  Memory.length_overwrite ..

@[simp] theorem size_move (b : Buffer w) (dst src n : Nat) : (b.move dst src n).size = b.size :=
  Memory.length_move ..

@[simp] theorem size_clear (b : Buffer w) : b.clear.size = b.size := Memory.length_fill ..

@[simp] theorem bytes_clear (b : Buffer w) : b.clear.bytes = List.replicate b.size 0 := rfl

/-- Offsets and sizes inside of the buffer, and objects of the target, add up without a wrap. -/
theorem add_lt_word (b : Buffer w) {m n : Nat} (hm : m ≤ b.size) (hn : n ≤ 2 ^ (w - 1)) :
    m + n < 2 ^ w := by
  have hsize : b.size < 2 ^ (w - 1) := b.length_lt
  have hpow : 2 ^ w = 2 ^ (w - 1) + 2 ^ (w - 1) := by
    obtain ⟨v, rfl⟩ : ∃ v, w = v + 1 := ⟨w - 1, by have := b.word_ge; omega⟩
    rw [Nat.add_sub_cancel, Nat.pow_succ]
    omega
  omega

theorem lt_word (b : Buffer w) {m : Nat} (hm : m ≤ b.size) : m < 2 ^ w :=
  b.add_lt_word hm (Nat.zero_le _)

/-- A short literal of the source is an object of every target. -/
theorem le_half_word (b : Buffer w) {n : Nat} (hn : n ≤ 2 ^ 15) : n ≤ 2 ^ (w - 1) :=
  Nat.le_trans hn (Nat.pow_le_pow_right (by decide) (by have := b.word_ge; omega))

end Buffer

/-! ## The SDK object -/

/-- `kii_http_context_t`. The callbacks are not part of it here: see `Callbacks`. -/
structure HttpContext (w : Nat) where
  buffer : Buffer w
  totalSendSize : Nat
  /-- `_body_position`, relative to `buffer`. 0 is NULL: no header begins with the buffer. -/
  bodyPosition : Nat
  /-- Memory was accessed through `_body_position` while it was NULL. No function returns from that;
  what the object holds behind it says nothing. -/
  nullAccess : Bool
  sentSize : Nat
  receivedSize : Nat
  responseLength : Nat
  /-- `_content_length_scanned`, which is only ever 0 or 1. -/
  contentLengthScanned : Bool
  socketState : SocketState
  host : CString
  normalizerHost : Option CString
  /-- `socket_context.http_error`. -/
  httpError : HttpError
  deriving DecidableEq

/-- `kii_author_t`. -/
structure Author where
  authorId : CharArray 128
  accessToken : CharArray 128

/-- `kii_core_t`. -/
structure Core (w : Nat) where
  appId : CString
  appKey : CString
  appHost : CString
  responseCode : Nat
  /-- `response_body`: NULL, or an offset into the buffer. -/
  responseBody : Option Nat
  responseBodyLength : Nat
  author : Author
  http : HttpContext w
  /-- `_http_request_path`, an array of 256 bytes: the text that was printed into it, also where it
  is longer than the array. -/
  httpRequestPath : CString
  state : State
  contentLength : Nat
  sdkInfo : CString

/-- `buffer_size`. -/
def Core.bufferSize {w : Nat} (k : Core w) : Nat := k.http.buffer.size

/-- The host a connection is opened to, and the one in the request line: `normalizer_host` where it
is set. -/
def Core.hostStr {w : Nat} (k : Core w) (host : CString) : CString :=
  k.http.normalizerHost.getD host

/-! ## The socket callbacks -/

/-- A call of one of the application's socket callbacks, with its arguments. -/
inductive Call where
  | connect (host : CString) (port : Nat)
  | send (chunk : List Byte)
  | recv (lengthToRead : Nat)
  | close
  deriving DecidableEq

/-- The answer of a callback. `data` is what `recv_cb` puts into the buffer, `out_actual_length` its
length; the other callbacks leave it empty. -/
structure Reply where
  code : SocketCode
  data : List Byte := []
  deriving DecidableEq

/-- A call and its answer. -/
structure Event where
  call : Call
  reply : Reply
  deriving DecidableEq

/-- The application's callbacks, as a strategy. -/
abbrev Callbacks := List Event → Call → Reply

/-- What `recv_cb` handed over in one event: the data of a successful call. -/
def Event.read : Event → Option (List Byte)
  | ⟨.recv _, ⟨.ok, data⟩⟩ => some data
  | _ => none

theorem Event.read_eq_some {e : Event} {data : List Byte} (h : e.read = some data) :
    ∃ n, e = ⟨.recv n, ⟨.ok, data⟩⟩ := by
  obtain ⟨_ | _ | n | _, _ | _ | _, data'⟩ := e <;> try cases h
  exact ⟨n, rfl⟩

/-- The successful reads of an exchange, in order. -/
def reads (tr : List Event) : List (List Byte) := tr.filterMap Event.read

/-- The bytes received in an exchange. -/
def received (tr : List Event) : List Byte := (reads tr).flatten

end KiiThing
