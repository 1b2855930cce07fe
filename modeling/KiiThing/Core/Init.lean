import KiiThing.Core.Engine
import KiiThing.Core.Request

/-!
# A fresh SDK object

`_kii_core_init_with_info` clears the object and sets the host of the site; the application then
sets the buffer, the callbacks and, where it has one, `normalizer_host`.
-/

namespace KiiThing

variable {w : Nat}

/-- The host of a site; every other text is taken for a host. -/
def siteHost (site : CString) : CString :=
  if site = .lit "CN" then .lit "api-cn2.kii.com"
  else if site = .lit "CN3" then .lit "api-cn3.kii.com"
  else if site = .lit "JP" then .lit "api-jp.kii.com"
  else if site = .lit "US" then .lit "api.kii.com"
  else if site = .lit "SG" then .lit "api-sg.kii.com"
  else if site = .lit "EU" then .lit "api-eu.kii.com"
  else site

/-- `memset` of a `char` array. -/
def CharArray.empty (n : Nat) (h : 0 < n := by decide) : CharArray n := ⟨.lit "", h⟩

/-- `_kii_core_init_with_info`, and the buffer that the application sets. -/
def kiiCoreInitWithInfo (buffer : Buffer w) (normalizerHost : Option CString)
    (site appId appKey info : CString) : Core w where
  appId := appId
  appKey := appKey
  appHost := siteHost site
  responseCode := 0
  responseBody := none
  responseBodyLength := 0
  author := ⟨.empty 128, .empty 128⟩
  http :=
    { buffer := buffer
      totalSendSize := 0
      bodyPosition := 0
      nullAccess := false
      sentSize := 0
      receivedSize := 0
      responseLength := 0
      contentLengthScanned := false
      socketState := .idle
      host := .lit ""
      normalizerHost := normalizerHost
      httpError := .none }
  httpRequestPath := .lit ""
  state := .idle
  contentLength := 0
  sdkInfo := info

/-- `kii_core_init`. -/
def kiiCoreInit (buffer : Buffer w) (normalizerHost : Option CString)
    (site appId appKey : CString) : Core w :=
  kiiCoreInitWithInfo buffer normalizerHost site appId appKey (.lit "sn=tec;sv=1.2.6")

/-- A buffer of `n` bytes in static memory. -/
def Buffer.static (n : Nat) (h : n < 2 ^ (w - 1) := by decide) (hw : 16 ≤ w := by decide) :
    Buffer w :=
  ⟨List.replicate n 0, by rw [List.length_replicate]; exact h, hw⟩

/-- A server that answers every call at once, hands over one of the pieces with every read, and
closes the connection behind them. -/
def serving (pieces : List (List Byte)) : Callbacks
  | tr, .recv _ => ⟨.ok, pieces.getD (reads tr).length []⟩
  | _, _ => ⟨.ok, []⟩

/-- A run of which the result was computed, and with it what `f` says of its end. -/
theorem exists_runToIdle_of_map {γ : Type} {cbs : Callbacks} {fuel : Nat} {k : Core w}
    {code : ErrorCode} {v : γ} (f : Exchange w → γ)
    (h : (runToIdle cbs fuel k).map (fun r => (r.1, f r.2)) = some (code, v)) :
    ∃ x, runToIdle cbs fuel k = some (code, x) ∧ f x = v := by
  obtain ⟨⟨_, x⟩, hx, hfields⟩ := Option.map_eq_some_iff.mp h
  obtain ⟨rfl, hv⟩ := Prod.mk.inj hfields
  exact ⟨x, hx, hv⟩

/-- An application `app` with the key `key`, on a 64-bit target with a buffer of `n` bytes. -/
def device (n : Nat) (h : n < 2 ^ 63 := by decide) : Core 64 :=
  kiiCoreInit (.static n h) none (.lit "US") (.lit "app") (.lit "key")

/-- The same, after it was authenticated. -/
def deviceWithToken (n : Nat) (h : n < 2 ^ 63 := by decide) : Core 64 :=
  { device n h with author := ⟨⟨.lit "th", by decide⟩, ⟨.lit "token", by decide⟩⟩ }

/-- A device with a first request: to get an object of a thing. -/
def deviceGet (n : Nat) (h : n < 2 ^ 63 := by decide) : Core 64 :=
  (kiiCoreGetObject (device n h) ⟨.thing, .lit "th", .lit "b"⟩ (.lit "o")).core

theorem lt_word_300 : 300 < 2 ^ 63 := by decide

instance (k : Core w) : Decidable (Prepared k) :=
  decidable_of_iff (k.state = .ready ∧ k.http.socketState = .idle ∧
    k.http.totalSendSize < k.bufferSize) ⟨fun h => ⟨h.1, h.2.1, h.2.2⟩, fun h => ⟨h.1, h.2, h.3⟩⟩

theorem prepared_deviceGet : Prepared (deviceGet 300) := by decide +kernel

end KiiThing
