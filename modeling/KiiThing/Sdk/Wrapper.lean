import KiiThing.Core.Engine
import KiiThing.Core.Request

/-!
# The functions of the SDK

Every function of `kii.h` that talks to the server goes the same way: prepare a request, run the
engine until the object is IDLE, look at the status code, and read the response body. The parts of
that way are here; the functions themselves put them together.

The JSON reader is a library that is not part of the repository: it is a parameter, a function of
the text and of the fields that are asked for.
-/

namespace KiiThing

variable {w : Nat}

/-! ## The JSON reader -/

/-- `kii_json_field_type_t`, with the size of the buffer that a string is copied to. -/
inductive JsonType where
  | string (size : Nat)
  | integer
  | long
  deriving DecidableEq

/-- `kii_json_field_t`. -/
structure JsonField where
  name : CString
  type : JsonType

inductive JsonValue where
  | string (s : CString)
  | number (n : Int)

/-- What `kii_json_read_object` answers: whether it is `KII_JSON_PARSE_SUCCESS`, and what it has
copied for each field. -/
structure JsonAnswer where
  success : Bool
  copied : List (Option JsonValue)

/-- `prv_kii_json_read_object`. -/
abbrev JsonReader := List Byte → List JsonField → JsonAnswer

/-! ## The way of a function -/

/-- How a call ends: with a value and what was copied for the caller, or with an access to the
address NULL. -/
inductive Ending (γ : Type) (w : Nat) where
  | returned (value : γ) (x : Exchange w) (copied : List (Option JsonValue))
  | nullAccess (x : Exchange w)

def Ending.map {γ δ : Type} (f : γ → δ) : Ending γ w → Ending δ w
  | .returned value x copied => .returned (f value) x copied
  | .nullAccess x => .nullAccess x

/-- Prepare a request and run it: with an error of either, `failure` is returned. `none` is a run
that has not ended within `fuel` steps. -/
def perform {γ : Type} (cbs : Callbacks) (fuel : Nat) (r : Result ErrorCode w) (failure : γ)
    (rest : Exchange w → Ending γ w) : Option (Ending γ w) :=
  if r.isOk then
    (runToIdle cbs fuel r.core).map fun (coreErr, x) =>
      if coreErr = .ok then rest x else .returned failure x []
  else some (.returned failure ⟨r.core, []⟩ [])

/-- `if (response_code < 200 || 300 <= response_code)`: `failure`. -/
def ifSuccessful {γ : Type} (x : Exchange w) (failure : γ) (rest : Ending γ w) : Ending γ w :=
  if x.core.responseCode < 200 ∨ 300 ≤ x.core.responseCode then .returned failure x [] else rest

/-- The way of the functions that look at nothing but the status code. -/
def performStatus (cbs : Callbacks) (fuel : Nat) (r : Result ErrorCode w) :
    Option (Ending Int w) :=
  perform cbs fuel r (-1) fun x => ifSuccessful x (-1) (.returned 0 x [])

/-- The text behind `response_body`, up to its terminator. -/
def responseText (k : Core w) (p : Nat) : CString := .ofArray (k.http.buffer.bytes.drop p)

/-- The end of a function that reads the response: `strlen(response_body)`, then the comparison of
the pointer with NULL, then the JSON reader. `store` is what is kept of the values in the object. -/
def readResponse {γ : Type} (json : JsonReader) (x : Exchange w) (failure success : γ)
    (fields : List JsonField) (store : List (Option JsonValue) → Core w → Core w) : Ending γ w :=
  match x.core.responseBody with
  | none => .nullAccess x
  | some p =>
    let answer := json (responseText x.core p).bytes fields
    let x := { x with core := store answer.copied x.core }
    if answer.success then .returned success x answer.copied else .returned failure x answer.copied

section

variable {γ : Type} {cbs : Callbacks} {fuel : Nat} {r : Result ErrorCode w} {failure : γ}
  {rest : Exchange w → Ending γ w} {x : Exchange w}

/-- A request that is refused is not run. -/
theorem perform_of_refused (h : r.isOk = false) :
    perform cbs fuel r failure rest = some (.returned failure ⟨r.core, []⟩ []) := by
  rw [perform, if_neg (Bool.eq_false_iff.mp h)]

/-- A request that was prepared and run. -/
theorem perform_of_ok (hok : r.code = .ok) (hrun : runToIdle cbs fuel r.core = some (.ok, x)) :
    perform cbs fuel r failure rest = some (rest x) := by
  rw [perform, if_pos (Result.isOk_iff.mpr hok), hrun]
  rfl

/-- **How such a way ends**: with the preparation, with the exchange, or with the look at it. -/
theorem perform_cases {e : Ending γ w} (h : perform cbs fuel r failure rest = some e) :
    (r.code ≠ .ok ∧ e = .returned failure ⟨r.core, []⟩ []) ∨
    ∃ code x, r.code = .ok ∧ runToIdle cbs fuel r.core = some (code, x) ∧
      e = if code = .ok then rest x else .returned failure x [] := by
  rw [perform] at h
  split at h
  · next hok =>
    obtain ⟨⟨code, x⟩, hrun, rfl⟩ := Option.map_eq_some_iff.mp h
    exact .inr ⟨code, x, Result.isOk_iff.mp hok, hrun, rfl⟩
  · next hnot => exact .inl ⟨fun hok => hnot (Result.isOk_iff.mpr hok), (Option.some.inj h).symm⟩

theorem ifSuccessful_of_2xx {rest : Ending γ w}
    (h : 200 ≤ x.core.responseCode ∧ x.core.responseCode < 300) :
    ifSuccessful x failure rest = rest := by
  rw [ifSuccessful, if_neg]
  rintro (hlt | hge)
  · exact absurd h.1 (Nat.not_le.mpr hlt)
  · exact absurd h.2 (Nat.not_lt.mpr hge)

end

end KiiThing
