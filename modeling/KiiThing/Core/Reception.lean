import KiiThing.Core.Transaction
import KiiThing.Lib.Reading

/-!
# What the server reads

A request whose texts have no CR inside is read back by a server as it was meant: method, host, path,
all header fields and the body (`Preparation.wellFormed_message`). What a server answers to the
requests it reads is then what the application gets: `exchange_served` puts the two directions
together.
-/

namespace KiiThing

open Http

variable {w : Nat}

/-! ## Texts that can be told apart -/

/-- No line ends in this string. -/
def OneLine (str : CString) : Prop := CR ∉ str.bytes

/-- No line ends in this string, and it has no blanks. -/
def Word (str : CString) : Prop := SP ∉ str.bytes ∧ CR ∉ str.bytes

instance (str : CString) : Decidable (OneLine str) := inferInstanceAs (Decidable (¬ _))

instance (str : CString) : Decidable (Word str) := inferInstanceAs (Decidable (_ ∧ _))

/-- A header field that is not taken for the length of the body. -/
structure Ordinary (h : Header) : Prop where
  isField : IsField h
  notLength : ¬ Named contentLengthName h

/-- What the application owes when it sets the SDK up. -/
structure Core.Proper (k : Core w) : Prop where
  appId : OneLine k.appId
  appKey : OneLine k.appKey
  appHost : OneLine k.appHost
  sdkInfo : OneLine k.sdkInfo
  host : SLASH ∉ (k.hostStr k.appHost).bytes ∧ CR ∉ (k.hostStr k.appHost).bytes

/-- The name of a field is a literal of the source. -/
theorem ordinary_of_value {key value : List Byte} (hcolon : COLON ∉ key) (hCR : CR ∉ key)
    (hname : key.map toLower ≠ contentLengthName) (hvalue : CR ∉ value) : Ordinary (key, value) :=
  ⟨⟨hcolon, hCR, hvalue⟩, hname⟩

theorem Core.Proper.defaultHeaders {k : Core w} (h : k.Proper) :
    ∀ f ∈ k.defaultHeaders, Ordinary f := by
  intro f hf
  simp only [Core.defaultHeaders, List.mem_cons, List.not_mem_nil, or_false] at hf
  rcases hf with rfl | rfl | rfl | rfl
  · exact ordinary_of_value (by decide) (by decide) (by decide) h.appHost
  · exact ordinary_of_value (by decide) (by decide) (by decide) h.appId
  · exact ordinary_of_value (by decide) (by decide) (by decide) h.appKey
  · exact ordinary_of_value (by decide) (by decide) (by decide) h.sdkInfo

theorem ordinary_headerIf {key : CString} {value : Option CString} (hcolon : COLON ∉ key.bytes)
    (hCR : CR ∉ key.bytes) (hname : key.bytes.map toLower ≠ contentLengthName)
    (hvalue : ∀ str ∈ value, OneLine str) : ∀ f ∈ headerIf key value, Ordinary f := by
  intro f hf
  cases value with
  | none => exact absurd hf List.not_mem_nil
  | some str =>
    obtain rfl : f = (key.bytes, str.bytes) := by simpa [headerIf] using hf
    exact ordinary_of_value hcolon hCR hname (hvalue str rfl)

theorem ordinary_bearerHeader {accessToken : Option CString}
    (h : ∀ str ∈ accessToken, OneLine str) : ∀ f ∈ bearerHeader accessToken, Ordinary f := by
  apply ordinary_headerIf (by decide) (by decide) (by decide)
  intro str hstr
  obtain ⟨token, htoken, rfl⟩ := Option.map_eq_some_iff.mp hstr
  have hbearer : CR ∉ (CString.lit "bearer ").bytes := by decide
  show CR ∉ (CString.lit "bearer ").bytes ++ token.bytes
  simp [hbearer, show CR ∉ token.bytes from h token htoken]

/-! ## Messages -/

/-- The headers that go with a body of these bytes: the length, or nothing when there are none. -/
def LengthOf (headers : List Header) (body : List Byte) : Prop :=
  headers = [contentLengthHeader body.length] ∨ headers = [] ∧ body = []

theorem lengthOf_bodyHeaders {body : Option (List Byte)} {bodyLen : Nat}
    (h : Readable w body bodyLen) : LengthOf (bodyHeaders body bodyLen) (bodyBytes body bodyLen) := by
  cases body with
  | none => exact Or.inr ⟨rfl, by simp [bodyBytes]⟩
  | some bs =>
    left
    have hlen : (bodyBytes (some bs) bodyLen).length = bodyLen :=
      List.length_take_of_le (h bs rfl).1
    rw [hlen]
    rfl

/-- **A message whose texts can be told apart is well-formed.** -/
theorem wellFormed_request {k : Core w} (hk : k.Proper) {method path : CString} (hmethod : Word method)
    (hpath : Word path) {headers lengths : List Header} {body : List Byte}
    (hheaders : ∀ f ∈ headers, Ordinary f) (hlength : LengthOf lengths body) :
    (k.request method path (headers ++ lengths) body).WellFormed := by
  have hall : ∀ f ∈ k.defaultHeaders ++ headers, Ordinary f := by
    intro f hf
    exact (List.mem_append.mp hf).elim (hk.defaultHeaders f) (hheaders f)
  have hnot : ∀ f ∈ k.defaultHeaders ++ headers, ¬ Named contentLengthName f :=
    fun f hf => (hall f hf).notLength
  rw [Core.request, ← List.append_assoc]
  refine ⟨hmethod, hk.host, hpath, ?_, ?_⟩
  · intro f hf
    rcases List.mem_append.mp hf with hfront | hlast
    · exact (hall f hfront).isField
    · rcases hlength with rfl | ⟨rfl, rfl⟩
      · obtain rfl := List.mem_singleton.mp hlast
        have hname : COLON ∉ contentLengthName ∧ CR ∉ contentLengthName := by decide
        refine ⟨hname.1, hname.2, ?_⟩
        intro hCR
        have hdigit := Decimal.isDigit_of_mem_text hCR
        revert hdigit
        decide
      · exact absurd hlast List.not_mem_nil
  · rcases hlength with rfl | ⟨rfl, rfl⟩
    · exact declaredLength_append hnot _
    · rw [List.append_nil]
      exact declaredLength_of_forall_not hnot

/-- The additional headers of `kii_core_api_call`: whatever the array still holds of an earlier name,
there is no colon in it. -/
theorem isField_sentHeaders {strs : List CString} {live : List Byte}
    (hlive : COLON ∉ live ∧ CR ∉ live) (hstrs : ∀ str ∈ strs, OneLine str) :
    ∀ f ∈ sentHeaders live strs, IsField f := by
  induction strs generalizing live with
  | nil =>
    intro f hf
    cases hf
  | cons str strs ih =>
    rw [sentHeaders]
    cases hcolon : colon str with
    | none =>
      intro f hf
      cases hf
    | some n =>
      have hstr : CR ∉ str.bytes := hstrs str List.mem_cons_self
      obtain ⟨a, b, hbytes, hlen, hnot⟩ := Search.find_singleton_iff.mp hcolon
      have htake : str.bytes.take n = a := by
        rw [hbytes, ← hlen]
        exact List.take_left
      have hname : COLON ∉ str.bytes.take n ++ live.drop n ∧ CR ∉ str.bytes.take n ++ live.drop n := by
        constructor
        · intro h
          rcases List.mem_append.mp h with h | h
          · exact hnot (htake ▸ h)
          · exact hlive.1 (List.mem_of_mem_drop h)
        · intro h
          rcases List.mem_append.mp h with h | h
          · exact hstr (List.mem_of_mem_take h)
          · exact hlive.2 (List.mem_of_mem_drop h)
      intro f hf
      rcases List.mem_cons.mp hf with rfl | hf
      · exact ⟨hname.1, hname.2, fun h => hstr (List.mem_of_mem_drop h)⟩
      · exact ih hname (fun s hs => hstrs s (List.mem_cons_of_mem _ hs)) f hf

/-! ## Preparations -/

namespace Preparation

/-- The strings that become values of header fields. -/
def texts (k : Core w) : Preparation → List CString
  | request c => (c.args k).contentType.toList ++ (c.args k).accessToken.toList ++
      (c.args k).etag.toList ++ (c.args k).contentEncoding.toList
  | registerThingWithId _ _ _ | thingAuthentication _ _ => []
  | installThingPush _ => k.accessToken.toList
  | apiCall a => a.contentType.toList ++ k.accessToken.toList ++ a.headers

/-- What the caller owes besides, for a request that can be read back. -/
structure Legible (k : Core w) (p : Preparation) : Prop where
  line : Word (p.line k).1 ∧ Word (p.line k).2
  texts : ∀ str ∈ p.texts k, OneLine str
  /-- The length of the body is not one of the additional headers. -/
  additional : ∀ a, p = apiCall a → ∀ h ∈ sentHeaders [] a.headers, ¬ Named contentLengthName h

theorem ordinary_append {headers headers' : List Header} (h : ∀ f ∈ headers, Ordinary f)
    (h' : ∀ f ∈ headers', Ordinary f) : ∀ f ∈ headers ++ headers', Ordinary f := by
  intro f hf
  exact (List.mem_append.mp hf).elim (h f) (h' f)

theorem ordinary_contentType {value : Option CString} (h : ∀ str ∈ value, OneLine str) :
    ∀ f ∈ headerIf (.lit "content-type") value, Ordinary f :=
  ordinary_headerIf (by decide) (by decide) (by decide) h

/-- A message that is put together. -/
theorem wellFormed_assembled {k : Core w} (hk : k.Proper) {path contentType : CString}
    (hpath : Word path) (hcontentType : OneLine contentType) {accessToken : Option CString}
    (htoken : ∀ str ∈ accessToken, OneLine str) (pieces : List CString) :
    (assembled k path contentType accessToken pieces).WellFormed := by
  rw [assembled, ← List.append_assoc]
  apply wellFormed_request hk (by decide) hpath
  · apply ordinary_append
    · apply ordinary_contentType
      rintro _ ⟨⟩
      exact hcontentType
    · exact ordinary_bearerHeader htoken
  · exact Or.inl rfl

/-- **What a preparation prepares can be read back.** -/
theorem wellFormed_message {k : Core w} {p : Preparation} (hk : k.Proper) (hvalid : p.Valid k)
    (h : p.Legible k) : (p.message k).WellFormed := by
  obtain ⟨⟨hmethod, hpath⟩, htexts, hadditional⟩ := h
  cases p with
  | request c =>
    obtain ⟨a, ha⟩ : ∃ a, c.args k = a := ⟨_, rfl⟩
    simp only [line, ha] at hmethod hpath
    simp only [texts, ha, List.mem_append, Option.mem_toList] at htexts
    simp only [Valid, ha] at hvalid
    rw [message, ha, RequestArgs.message, ← List.append_assoc]
    refine wellFormed_request hk hmethod hpath (ordinary_append ?_ ?_) (lengthOf_bodyHeaders hvalid)
    · apply ordinary_append
      · exact ordinary_contentType fun str hstr => htexts str (by simp [Option.mem_def.mp hstr])
      · apply ordinary_append
        · exact ordinary_bearerHeader fun str hstr => htexts str (by simp [Option.mem_def.mp hstr])
        · apply ordinary_headerIf (by decide) (by decide) (by decide)
          exact fun str hstr => htexts str (by simp [Option.mem_def.mp hstr])
    · rw [RequestArgs.encodingSent]
      split
      · apply ordinary_headerIf (by decide) (by decide) (by decide)
        exact fun str hstr => htexts str (by simp [Option.mem_def.mp hstr])
      · intro f hf
        cases hf
  | registerThingWithId vendorThingId password thingType =>
    exact wellFormed_assembled hk hpath (by decide) (by rintro _ ⟨⟩) _
  | thingAuthentication vendorThingId password =>
    exact wellFormed_assembled hk hpath (by decide) (by rintro _ ⟨⟩) _
  | installThingPush development =>
    simp only [texts, Option.mem_toList] at htexts
    exact wellFormed_assembled hk hpath (by decide) htexts _
  | apiCall a =>
    simp only [texts, List.mem_append, Option.mem_toList] at htexts
    rw [message, ApiCall.message, ← List.append_assoc, ← List.append_assoc]
    refine wellFormed_request hk hmethod hpath (ordinary_append (ordinary_append ?_ ?_) ?_)
      (lengthOf_bodyHeaders hvalid.1)
    · exact ordinary_contentType fun str hstr => htexts str (by simp [Option.mem_def.mp hstr])
    · exact ordinary_bearerHeader fun str hstr => htexts str (by simp [Option.mem_def.mp hstr])
    · intro f hf
      refine ⟨?_, hadditional a rfl f hf⟩
      apply isField_sentHeaders ⟨List.not_mem_nil, List.not_mem_nil⟩ _ f hf
      exact fun str hstr => htexts str (Or.inr hstr)

/-- **What is sent is read back as it was meant**: method, host, path, header fields and body. -/
theorem sent_readBack {k : Core w} {p : Preparation} (hk : k.Proper) (hvalid : p.Valid k)
    (hlegible : p.Legible k) (hok : (p.run k).code = .ok) {cbs : Callbacks}
    (h : Obliging cbs (p.run k).core) :
    ∃ N, ∀ n, N ≤ n →
      readRequest (sentBytes (runs cbs (p.run k).core n).trace) = some (p.message k, []) := by
  obtain ⟨N, hN⟩ := p.sent_message hvalid hok h
  refine ⟨N, fun n hn => ?_⟩
  have hread := readRequest_bytes (wellFormed_message hk hvalid hlegible) []
  rwa [List.append_nil, ← hN n hn] at hread

/-- To register a thing. -/
def registering : Preparation :=
  .registerThingWithId (.lit "thing-1") (.lit "secret") (.lit "lamp")

theorem sent_readBack_of_register :
    ∃ N, ∀ n, N ≤ n → readRequest (sentBytes
      (runs (atOnce []) (registering.run (device 512 lt_word_512)).core n).trace) =
        some (registering.message (device 512 lt_word_512), []) := by
  apply sent_readBack (k := device 512 lt_word_512) (p := registering)
  · exact ⟨by decide, by decide, by decide, by decide, by decide, by decide⟩
  · decide
  · exact ⟨by decide +kernel, by decide, by rintro a ⟨⟩⟩
  · decide +kernel
  · apply obliging_of_bound (N := 0)
    · rintro tr (_ | _ | _ | _) _ <;> exact nofun
    · rintro tr (_ | _ | _ | _) _ <;> exact nofun

end Preparation

end KiiThing
