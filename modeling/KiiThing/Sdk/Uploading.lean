import KiiThing.Core.Arrival
import KiiThing.Lib.Delivery
import KiiThing.Lib.Pieces
import KiiThing.Sdk.Ranges

/-!
# Uploading in parts

An application uploads the body of an object in chunks, each with its own call of
`kii_object_upload_body`, and finishes with `kii_object_commit_upload`. Calls may fail, at any moment;
what was sent by then may have reached the server or not, and the application may call again, for the
same chunk or for another one, and make other requests in between.

The server puts what arrives to its place (`Storage.take`). Whatever fails, the object never gets
another body than the one that is uploaded, and it has got it once the commit has returned 0 behind
calls that have returned 0 for chunks that cover it (`upload_reassembled`).
-/

namespace KiiThing

open Http

/-! ## The server -/

/-- What a server holds of an upload: how long the body will be, the bytes at some positions, and the
body that was committed. -/
structure Storage where
  totalLength : Option Nat
  bytes : Nat → Option Byte
  object : Option (List Byte)

namespace Storage

/-- Nothing has come yet. -/
def empty : Storage := ⟨none, fun _ => none, none⟩

/-- The body, when its length is known and there is no gap. -/
def body (s : Storage) : Option (List Byte) := s.totalLength.bind (Pieces.read s.bytes)

/-- Put some bytes to their place. -/
def put (totalLength position : Nat) (bytes : List Byte) (s : Storage) : Storage :=
  { s with totalLength := some totalLength, bytes := Pieces.put s.bytes position bytes }

/-- Make the body that of the object, when there is no gap. -/
def commit (s : Storage) : Storage := { s with object := s.body <|> s.object }

/-- Throw away what has come. -/
def cancel (s : Storage) : Storage := { s with totalLength := none, bytes := fun _ => none }

/-- The body of a request for the data of the upload goes to the place that its field `Content-Range`
says, if it is as long as that. -/
def takeData (s : Storage) (req : Request) : Storage :=
  match (req.headers.lookup (ascii "Content-Range")).bind readRangeOf with
  | some (first, last, totalLength) =>
    if last + 1 = first + req.body.length then s.put totalLength first req.body else s
  | none => s

/-- Do what a request asks for. The upload is known by its path. -/
def take (path : List Byte) (s : Storage) (req : Request) : Storage :=
  if req.method = ascii "PUT" ∧ req.path = path ++ ascii "/data" then s.takeData req
  else if req.method = ascii "POST" ∧ req.path = path ++ ascii "/status/committed" then s.commit
  else if req.method = ascii "POST" ∧ req.path = path ++ ascii "/status/cancelled" then s.cancel
  else s

/-- Take what arrives, if anything does. -/
def receive (path : List Byte) (s : Storage) (tr : List Event) : Storage :=
  (arrived tr).elim s (s.take path)

end Storage

/-! ## The application -/

/-- A body that is uploaded. -/
structure BodyUpload where
  bucket : Bucket
  objectId : CString
  uploadId : CString
  bodyContentType : Option CString
  data : List Byte

/-- What an application does for an upload. -/
inductive UploadAction where
  | chunk (position length : Nat)
  | finish (commit : Nat)

namespace BodyUpload

variable (u : BodyUpload)

/-- The chunk of the data that begins at a position. -/
def chunk (position length : Nat) : ChunkData where
  bodyContentType := u.bodyContentType
  position := position
  length := length
  totalLength := u.data.length
  chunk := some (u.data.drop position)

/-- The path of the upload. -/
def path {w : Nat} (k : Core w) : CString :=
  bodyPath k u.bucket u.objectId (.lit "/body/uploads/" ++ u.uploadId)

/-- The function that is called. -/
def call (cbs : Callbacks) (fuel : Nat) (k : Core 64) : UploadAction → Option (Ending Int 64)
  | .chunk position length =>
    kiiObjectUploadBody cbs fuel k u.bucket u.objectId u.uploadId (u.chunk position length)
  | .finish commit => kiiObjectCommitUpload cbs fuel k u.bucket u.objectId u.uploadId commit

/-- What it asks the server for. -/
def effect : UploadAction → Storage → Storage
  | .chunk position length => Storage.put u.data.length position ((u.data.drop position).take length)
  | .finish commit => if commit = 0 then Storage.cancel else Storage.commit

/-- A chunk is a part of the data, and not empty. -/
def Inside : UploadAction → Prop
  | .chunk position length => 1 ≤ length ∧ position + length ≤ u.data.length
  | .finish _ => True

/-- What the application owes. The paths fit `resource_path` with its 256 bytes: the longest one ends
with `/status/committed` or `/status/cancelled`. -/
structure Proper (k : Core 64) : Prop where
  path : Word (u.path k)
  path_lt : (u.path k).length + 17 < 256
  bodyContentType : ∀ str ∈ u.bodyContentType, OneLine str
  accessToken : OneLine k.author.accessToken.str ∧ k.author.accessToken.str.length ≤ 120
  data : u.data ≠ [] ∧ u.data.length ≤ 2 ^ 63

/-- The arguments of `kii_core_api_call`. -/
def apiCall {w : Nat} (k : Core w) : UploadAction → ApiCall
  | .chunk position length =>
    uploadBodyCall k u.bucket u.objectId u.uploadId (u.chunk position length)
  | .finish commit => commitUploadCall k u.bucket u.objectId u.uploadId commit

theorem call_eq (cbs : Callbacks) (fuel : Nat) (k : Core 64) (a : UploadAction) :
    u.call cbs fuel k a = performCall cbs fuel k (u.apiCall k a) := by
  cases a <;> rfl

end BodyUpload

/-- A call for an upload, and what it has returned. -/
structure UploadCall where
  action : UploadAction
  cbs : Callbacks
  value : Int

/-- The byte at this position is in the chunk, and 0 was returned for it. -/
def UploadCall.Covers (c : UploadCall) (i : Nat) : Prop :=
  c.value = 0 ∧ ∃ position length, c.action = .chunk position length ∧ position ≤ i ∧
    i < position + length

/-- 0 was returned for a commit. -/
def UploadCall.Commits (c : UploadCall) : Prop :=
  c.value = 0 ∧ ∃ commit, c.action = .finish commit ∧ commit ≠ 0

/-- The application makes calls on the object, and the server takes what arrives of them: calls for
the upload, which are noted, and other requests, which go elsewhere. -/
inductive Uploading (u : BodyUpload) (path : List Byte) :
    Core 64 → Storage → List UploadCall → Core 64 → Storage → Prop
  | nil {k : Core 64} {s : Storage} : Uploading u path k s [] k s
  | call {k k' : Core 64} {s s' : Storage} {a : UploadAction} {cbs : Callbacks} {fuel : Nat}
      {value : Int} {x : Exchange 64} {copied : List (Option JsonValue)} {cs : List UploadCall}
      (hinside : u.Inside a) (hcall : u.call cbs fuel k a = some (.returned value x copied))
      (h : Uploading u path x.core (s.receive path x.trace) cs k' s') :
      Uploading u path k s (⟨a, cbs, value⟩ :: cs) k' s'
  | other {k k' : Core 64} {s s' : Storage} {p : Preparation} {code : ErrorCode} {x : Exchange 64}
      {cs : List UploadCall} (hvalid : p.Valid k) (hlegible : p.Legible k)
      (hfits : p.PathFits k) (hpath : ¬ path <+: (p.message k).path) (hconducts : Conducts k p code x)
      (h : Uploading u path x.core (s.receive path x.trace) cs k' s') :
      Uploading u path k s cs k' s'

/-! ## One call -/

/-- A function that only looks at the status code conducts its request, which has been sent when it
returns 0. -/
theorem conducts_of_performCall {w : Nat} {cbs : Callbacks} {fuel : Nat} {k : Core w} {a : ApiCall}
    {value : Int} {x : Exchange w} {copied : List (Option JsonValue)}
    (h : performCall cbs fuel k a = some (.returned value x copied)) :
    ∃ code, Conducts k (.apiCall a) code x ∧ (value = 0 → code = .ok) := by
  rcases perform_cases h with ⟨hnot, he⟩ | ⟨code, y, hok, hrun, he⟩
  · obtain ⟨rfl, rfl, -⟩ := Ending.returned.inj he
    refine ⟨.fail, .refused hnot, ?_⟩
    intro h0
    cases h0
  · by_cases hcode : code = .ok
    · rw [if_pos hcode] at he
      have hx : x = y := by
        unfold ifSuccessful at he
        split at he
        · exact (Ending.returned.inj he).2.1
        · exact (Ending.returned.inj he).2.1
      subst hx
      exact ⟨code, .ran hok hrun, fun _ => hcode⟩
    · rw [if_neg hcode] at he
      obtain ⟨rfl, rfl, -⟩ := Ending.returned.inj he
      refine ⟨code, .ran hok hrun, ?_⟩
      intro h0
      cases h0

theorem performCall_of_ok {w : Nat} {cbs : Callbacks} {fuel : Nat} {k : Core w} {a : ApiCall}
    {x : Exchange w} (hok : (kiiCoreApiCall k a).code = .ok)
    (hrun : runToIdle cbs fuel (kiiCoreApiCall k a).core = some (.ok, x)) :
    performCall cbs fuel k a = some (ifSuccessful x (-1) (.returned 0 x [])) := by
  rw [performCall, perform_of_ok hok hrun]

namespace BodyUpload

variable {u : BodyUpload} {k : Core 64} {a : UploadAction}

theorem path_of_same {k' : Core 64} (h : SameApplication k k') : u.path k' = u.path k := by
  rw [h.rest]
  rfl

theorem Proper.later {k' : Core 64} (hu : u.Proper k) (h : SameApplication k k') : u.Proper k' := by
  refine ⟨?_, ?_, hu.bodyContentType, ?_, hu.data⟩
  · rw [path_of_same h]
    exact hu.path
  · rw [path_of_same h]
    exact hu.path_lt
  · rw [h.rest]
    exact hu.accessToken

/-- What the path ends with. -/
def suffix : UploadAction → CString
  | .chunk _ _ => .lit "/data"
  | .finish commit => .lit "/status/" ++ if commit = 0 then .lit "cancelled" else .lit "committed"

theorem resourcePath_eq {w : Nat} (k : Core w) (a : UploadAction) :
    (u.apiCall k a).resourcePath.bytes = (u.path k).bytes ++ (suffix a).bytes := by
  cases a with
  | chunk =>
    simp only [apiCall, uploadBodyCall, path, bodyPath, suffix, CString.bytes_append,
      List.append_assoc]
  | finish commit =>
    simp only [apiCall, commitUploadCall, path, bodyPath, suffix, CString.bytes_append,
      List.append_assoc]

theorem word_append {a b : CString} (ha : Word a) (hb : Word b) : Word (a ++ b) := by
  constructor
  · intro hmem
    exact (List.mem_append.mp hmem).elim ha.1 hb.1
  · intro hmem
    exact (List.mem_append.mp hmem).elim ha.2 hb.2

theorem word_suffix (a : UploadAction) : Word (suffix a) := by
  cases a with
  | chunk => exact (by decide : Word (.lit "/data"))
  | finish commit =>
    apply word_append (by decide)
    split <;> decide

section

variable {w : Nat} (k : Core w) (u : BodyUpload) (position length : Nat)

/-- The additional headers of the request. -/
theorem mem_sentHeaders {h : Header}
    (hmem : h ∈ sentHeaders [] (uploadBodyCall k u.bucket u.objectId u.uploadId
      (u.chunk position length)).headers) :
    h.1 = ascii "Accept" ∨ h.1 = ascii "Content-Range" := by
  have haccept : (CString.lit "Accept: application/json, application/*+json").bytes =
      ascii "Accept" ++ (ascii ":" ++ ascii " application/json, application/*+json") := by decide
  have hrange : ∀ a b c d e f : CString, (CString.lit "Content-Range: " ++ a ++ b ++ c ++ d ++ e ++
      f).bytes = ascii "Content-Range" ++ (ascii ":" ++ (ascii " " ++ (a ++ b ++ c ++ d ++ e ++
        f).bytes)) := by
    intro a b c d e f
    simp only [CString.bytes_append, List.append_assoc]
    rfl
  simp only [uploadBodyCall, chunk] at hmem
  rw [sentHeaders_cons haccept (by decide), sentHeaders_cons (hrange ..) (by decide)] at hmem
  rcases List.mem_cons.mp hmem with rfl | hmem
  · exact Or.inl rfl
  · obtain rfl := List.mem_singleton.mp hmem
    exact Or.inr rfl

/-- They fit the arrays of `kii_core_api_call`. -/
theorem headerFits (hw : w ≤ 64) (hposition : position < 2 ^ w) (hdata : u.data.length < 2 ^ w) :
    ∀ str ∈ (uploadBodyCall k u.bucket u.objectId u.uploadId (u.chunk position length)).headers,
      HeaderFits str := by
  have htext : ∀ n, n < 2 ^ w → (unsignedText n).length ≤ 20 := by
    intro n hn
    have hpow : 2 ^ w ≤ 2 ^ 64 := Nat.pow_le_pow_right (by decide) hw
    exact Decimal.length_text_le (by decide) (by omega)
  have hfirst := htext position hposition
  have hlast := htext _ (Nat.mod_lt (position + length + 2 ^ w - 1) (Nat.two_pow_pos w))
  have hall := htext u.data.length hdata
  have hrange : (CString.lit "Content-Range: ").length = 15 := rfl
  have hbytes : (CString.lit "bytes=").length = 6 := rfl
  have hdash : (CString.lit "-").length = 1 := rfl
  have hslash : (CString.lit "/").length = 1 := rfl
  simp only [uploadBodyCall, chunk, List.forall_mem_cons]
  refine ⟨headerFits_of_lt (by decide), headerFits_of_lt ?_, by simp⟩
  simp only [CString.length_append, hrange, hbytes, hdash, hslash]
  omega

end

theorem valid (hu : u.Proper k) (ha : u.Inside a) : (Preparation.apiCall (u.apiCall k a)).Valid k := by
  have hdata := hu.data.2
  cases a with
  | chunk position length =>
    obtain ⟨hpos, hle⟩ := ha
    refine ⟨?_, ?_, hu.accessToken.2⟩
    · rintro _ ⟨⟩
      rw [List.length_drop]
      exact ⟨Nat.le_sub_of_add_le' hle, Nat.le_trans (Nat.le_of_add_left_le hle) hdata⟩
    · apply headerFits k u position length (Nat.le_refl 64)
      · omega
      · omega
  | finish commit =>
    refine ⟨?_, ?_, hu.accessToken.2⟩
    · rintro _ ⟨⟩
    · simp [apiCall, commitUploadCall]

/-- A number is no end of a line. -/
theorem oneLine_unsignedText (n : Nat) : OneLine (unsignedText n) := by
  intro hmem
  have hdigit := Decimal.isDigit_of_mem_text hmem
  revert hdigit
  decide

theorem oneLine_append {a b : CString} (ha : OneLine a) (hb : OneLine b) : OneLine (a ++ b) := by
  intro hmem
  exact (List.mem_append.mp hmem).elim ha hb

theorem legible (hu : u.Proper k) (a : UploadAction) :
    (Preparation.apiCall (u.apiCall k a)).Legible k := by
  have htoken : ∀ str ∈ k.accessToken, OneLine str := by
    intro str hstr
    rw [Core.accessToken] at hstr
    split at hstr
    · obtain rfl := Option.some.inj hstr
      exact hu.accessToken.1
    · cases hstr
  have hword : Word (u.apiCall k a).resourcePath := by
    have hpath := word_append hu.path (word_suffix a)
    rw [Word, CString.bytes_append, ← resourcePath_eq] at hpath
    exact hpath
  cases a with
  | chunk position length =>
    refine ⟨⟨(by decide : Word (.lit "PUT")), hword⟩, ?_, ?_⟩
    · intro str hstr
      rcases List.mem_append.mp hstr with hstr | hstr
      · rcases List.mem_append.mp hstr with hstr | hstr
        · exact hu.bodyContentType str (Option.mem_toList.mp hstr)
        · exact htoken str (Option.mem_toList.mp hstr)
      · simp only [apiCall, uploadBodyCall, chunk, List.mem_cons, List.not_mem_nil, or_false] at hstr
        rcases hstr with rfl | rfl
        · decide
        · apply oneLine_append _ (oneLine_unsignedText _)
          apply oneLine_append _ (by decide)
          apply oneLine_append _ (oneLine_unsignedText _)
          apply oneLine_append _ (by decide)
          apply oneLine_append _ (oneLine_unsignedText _)
          decide
    · intro _ ha h hmem hnamed
      obtain rfl := Preparation.apiCall.inj ha
      rw [Named] at hnamed
      rcases mem_sentHeaders k u position length hmem with hname | hname
      · rw [hname] at hnamed
        revert hnamed
        decide
      · rw [hname] at hnamed
        revert hnamed
        decide
  | finish commit =>
    refine ⟨⟨(by decide : Word (.lit "POST")), hword⟩, ?_, ?_⟩
    · intro str hstr
      rcases List.mem_append.mp hstr with hstr | hstr
      · rcases List.mem_append.mp hstr with hstr | hstr
        · exact absurd hstr List.not_mem_nil
        · exact htoken str (Option.mem_toList.mp hstr)
      · exact absurd hstr List.not_mem_nil
    · intro _ ha h hmem _
      obtain rfl := Preparation.apiCall.inj ha
      exact absurd hmem List.not_mem_nil

/-- **A request for the upload** is taken for what it is. -/
theorem take_message (hu : u.Proper k) (ha : u.Inside a) (s : Storage) :
    s.take (u.path k).bytes ((u.apiCall k a).message k) = u.effect a s := by
  have hpath : ((u.apiCall k a).message k).path = (u.path k).bytes ++ (suffix a).bytes :=
    resourcePath_eq k a
  cases a with
  | chunk position length =>
    obtain ⟨hpos, hle⟩ := ha
    have hdata := hu.data.2
    have hlast : position + length - 1 < 2 ^ 64 := by omega
    have hdenotes : ContentRangeDenotes k u.bucket u.objectId u.uploadId (u.chunk position length) :=
      contentRangeDenotes k u.bucket u.objectId u.uploadId hpos hlast
    have hrange : ((((u.apiCall k (.chunk position length)).message k).headers.lookup
        (ascii "Content-Range")).bind readRangeOf) =
          some (position, position + length - 1, u.data.length) := hdenotes
    have hbody : ((u.apiCall k (.chunk position length)).message k).body =
        (u.data.drop position).take length := rfl
    have hlength : ((u.data.drop position).take length).length = length := by
      rw [List.length_take, List.length_drop]
      omega
    have hend : position + length - 1 + 1 = position + length := by omega
    rw [Storage.take, if_pos ⟨rfl, hpath⟩, Storage.takeData, hrange, hbody]
    dsimp only
    rw [hlength, if_pos hend]
    rfl
  | finish commit =>
    have hput : (CString.lit "POST").bytes ≠ ascii "PUT" := by decide
    rw [Storage.take, if_neg fun h => hput h.1, hpath]
    by_cases hcommit : commit = 0
    · have hne : (suffix (.finish commit)).bytes ≠ ascii "/status/committed" := by
        rw [suffix, if_pos hcommit]
        decide
      rw [if_neg fun h => hne (List.append_cancel_left h.2), if_pos, effect, if_pos hcommit]
      refine ⟨rfl, ?_⟩
      rw [suffix, if_pos hcommit]
      rfl
    · rw [if_pos, effect, if_neg hcommit]
      refine ⟨rfl, ?_⟩
      rw [suffix, if_neg hcommit]
      rfl

end BodyUpload

/-! ## What may get lost -/

/-- What a server knows of a call, and whether it was acknowledged. -/
def UploadCall.request (c : UploadCall) : UploadAction × Bool := (c.action, decide (c.value = 0))

/-- **The calls are requests that may get lost**, and those that return 0 are acknowledged. -/
theorem Uploading.delivery {k k' : Core 64} {u : BodyUpload} {path : List Byte} {s s' : Storage}
    {cs : List UploadCall} (hk : k.Proper) (hu : u.Proper k) (hpath : path = (u.path k).bytes)
    (h : Uploading u path k s cs k' s') :
    Delivery u.effect s (cs.map UploadCall.request) s' := by
  induction h with
  | nil => exact .nil
  | @call k k' s s' a cbs fuel value x copied cs hinside hcall h ih =>
    rw [BodyUpload.call_eq] at hcall
    obtain ⟨code, hconducts, hcode⟩ := conducts_of_performCall hcall
    have hvalid := BodyUpload.valid hu hinside
    have hsame := hconducts.sameApplication hvalid
    have hrest := ih (hsame.proper hk) (hu.later hsame)
      (by rw [hpath, BodyUpload.path_of_same hsame])
    have htake : s.take path ((u.apiCall k a).message k) = u.effect a s :=
      hpath ▸ BodyUpload.take_message hu hinside s
    obtain ⟨harrived, hok⟩ := hconducts.arrived hk hvalid (BodyUpload.legible hu a)
    rw [List.map_cons, UploadCall.request]
    rcases harrived with hnone | hsome
    · -- it got lost, so that the call has not returned 0
      have hvalue : value ≠ 0 := by
        intro h0
        rw [hok (hcode h0)] at hnone
        cases hnone
      rw [Storage.receive, hnone] at hrest
      rw [decide_eq_false hvalue]
      exact .lost hrest
    · rw [Storage.receive, hsome] at hrest
      exact .arrives (htake ▸ hrest)
  | @other k k' s s' p code x cs hvalid hlegible _ hne hconducts h ih =>
    have hsame := hconducts.sameApplication hvalid
    have hrest := ih (hsame.proper hk) (hu.later hsame)
      (by rw [hpath, BodyUpload.path_of_same hsame])
    have hstays : s.receive path x.trace = s := by
      have helse : ∀ t, (p.message k).path ≠ path ++ t := fun t ht => hne ⟨t, ht.symm⟩
      obtain ⟨hnone | hsome, -⟩ := hconducts.arrived hk hvalid hlegible
      · rw [Storage.receive, hnone]
        rfl
      · rw [Storage.receive, hsome, Option.elim_some, Storage.take, if_neg fun h => helse _ h.2,
          if_neg fun h => helse _ h.2, if_neg fun h => helse _ h.2]
    rwa [hstays] at hrest

/-! ## What the server holds -/

/-- What the server holds is right. -/
structure Storage.Sound (data : List Byte) (s : Storage) : Prop where
  agrees : Pieces.Agrees s.bytes data
  totalLength : ∀ n ∈ s.totalLength, n = data.length
  object : ∀ b ∈ s.object, b = data

/-- The server knows how long the data is, and it holds some of it. -/
def Storage.Has (data : List Byte) (s : Storage) (known : Nat → Prop) : Prop :=
  s.totalLength = some data.length ∧ ∀ i, known i → (s.bytes i).isSome = true

section

variable {u : BodyUpload} {s s' : Storage} {a : UploadAction}

theorem sound_empty (data : List Byte) : Storage.empty.Sound data :=
  ⟨Pieces.agrees_none data, by rintro _ ⟨⟩, by rintro _ ⟨⟩⟩

theorem Storage.Sound.body {data : List Byte} (h : s.Sound data) : ∀ b ∈ s.body, b = data := by
  intro b hb
  obtain ⟨n, hn, hread⟩ := Option.bind_eq_some_iff.mp hb
  obtain rfl := h.totalLength n hn
  exact Pieces.eq_of_read h.agrees hread

/-- **What arrives** keeps it right. -/
theorem Storage.Sound.effect (h : s.Sound u.data) (a : UploadAction) :
    (u.effect a s).Sound u.data := by
  cases a with
  | chunk position length =>
    refine ⟨h.agrees.put (List.take_prefix ..), ?_, h.object⟩
    rintro n ⟨⟩
    rfl
  | finish commit =>
    unfold BodyUpload.effect
    dsimp only
    split
    · exact ⟨Pieces.agrees_none _, by rintro _ ⟨⟩, h.object⟩
    · refine ⟨h.agrees, h.totalLength, ?_⟩
      intro b hb
      have hb : (s.body <|> s.object) = some b := hb
      cases hbody : s.body with
      | none =>
        rw [hbody] at hb
        exact h.object b hb
      | some b' =>
        rw [hbody] at hb
        obtain rfl := Option.some.inj hb
        exact h.body _ hbody

/-- Unless the upload is cancelled, nothing is forgotten. -/
theorem Storage.Has.effect {known : Nat → Prop} (h : s.Has u.data known) (ha : a ≠ .finish 0) :
    (u.effect a s).Has u.data known := by
  cases a with
  | chunk position length =>
    exact ⟨rfl, fun i hi => Pieces.isSome_put (h.2 i hi)⟩
  | finish commit =>
    have hcommit : commit ≠ 0 := fun h0 => ha (h0 ▸ rfl)
    rw [BodyUpload.effect, if_neg hcommit]
    exact h

/-- The chunk that has arrived is held. -/
theorem has_chunk {position length : Nat} (ha : u.Inside (.chunk position length)) (s : Storage) :
    (u.effect (.chunk position length) s).Has u.data fun i =>
      position ≤ i ∧ i < position + length := by
  have hlength : ((u.data.drop position).take length).length = length := by
    rw [List.length_take, List.length_drop]
    have := ha.2
    omega
  refine ⟨rfl, ?_⟩
  intro i hi
  exact Pieces.isSome_put_of_mem (by rwa [hlength])

/-- Without a gap, the body can be committed. -/
theorem object_commit {commit : Nat} (h : s.Sound u.data)
    (hhas : s.Has u.data fun i => i < u.data.length) (hcommit : commit ≠ 0) :
    (u.effect (.finish commit) s).object = some u.data := by
  have hbody : s.body = some u.data := by
    rw [Storage.body, hhas.1, Option.bind_some]
    exact Pieces.read_of_agrees h.agrees hhas.2
  rw [BodyUpload.effect, if_neg hcommit]
  show (s.body <|> s.object) = _
  rw [hbody]
  rfl

end

/-- A body that was committed stays. -/
theorem object_effect {u : BodyUpload} {s : Storage} (h : s.Sound u.data)
    (hobject : s.object = some u.data) (a : UploadAction) :
    (u.effect a s).object = some u.data := by
  cases a with
  | chunk => exact hobject
  | finish commit =>
    unfold BodyUpload.effect
    dsimp only
    split
    · exact hobject
    · show (s.body <|> s.object) = _
      cases hbody : s.body with
      | none => exact hobject
      | some b => rw [h.body b hbody]; rfl

/-- **Without a gap and without a cancellation** the server holds all of the data. -/
theorem has_of_covered {u : BodyUpload} {s s' : Storage} {cs : List UploadCall} (hs : s.Sound u.data)
    (hinside : ∀ c ∈ cs, u.Inside c.action) (hcancel : ∀ c ∈ cs, c.action ≠ .finish 0)
    (hdata : u.data ≠ []) (hall : ∀ i < u.data.length, ∃ c ∈ cs, c.Covers i)
    (h : Delivery u.effect s (cs.map UploadCall.request) s') :
    s'.Sound u.data ∧ s'.Has u.data fun i => i < u.data.length := by
  -- the chunk of each call that has returned 0 is held from then on
  have hchunk : ∀ i < u.data.length, s'.Has u.data fun j => j = i := by
    intro i hi
    obtain ⟨c, hc, hvalue, position, length, haction, hfirst, hlast⟩ := hall i hi
    obtain ⟨before, after, rfl⟩ := List.append_of_mem hc
    have hrequest : c.request = (.chunk position length, true) := by
      rw [UploadCall.request, haction, hvalue]
      rfl
    have hin : u.Inside (.chunk position length) := haction ▸ hinside c hc
    rw [List.map_append, List.map_cons, hrequest] at h
    refine Delivery.acknowledged (fun _ => True) (Storage.Has u.data · fun j => j = i)
      (fun _ _ => trivial) ?_ ?_ h
    · intro s₁ _
      obtain ⟨htotal, hknown⟩ := has_chunk hin s₁
      refine ⟨htotal, ?_⟩
      rintro _ rfl
      exact hknown _ ⟨hfirst, hlast⟩
    · intro x hx s₁ hhas
      obtain ⟨c', hc', rfl⟩ := List.mem_map.mp hx
      exact hhas.effect (hcancel c' (List.mem_append_right _ (List.mem_cons_of_mem _ hc')))
  refine ⟨h.invariant (fun x _ _ hsound => hsound.effect x.1) hs, ?_, ?_⟩
  · exact (hchunk 0 (List.length_pos_iff.mpr hdata)).1
  · intro i hi
    exact (hchunk i hi).2 i rfl

/-! ## Servers that accept -/

/-- A call that is served, so that 0 is returned. -/
structure Granted (u : BodyUpload) (k : Core 64) (serve : Request → Response) (c : UploadCall) :
    Prop where
  inside : u.Inside c.action
  serviceable : Serviceable k serve (.apiCall (u.apiCall k c.action)) c.cbs
  successful : 200 ≤ (serve ((u.apiCall k c.action).message k)).status ∧
    (serve ((u.apiCall k c.action).message k)).status < 300
  value : c.value = 0

section

variable {u : BodyUpload} {k k' : Core 64} {serve : Request → Response} {c : UploadCall}

theorem BodyUpload.apiCall_of_same (h : SameApplication k k') (a : UploadAction) :
    u.apiCall k' a = u.apiCall k a := by
  rw [h.rest]
  cases a <;> rfl

theorem Granted.later (h : Granted u k serve c) (hsame : SameApplication k k') :
    Granted u k' serve c := by
  have hmessage : (u.apiCall k c.action).message k' = (u.apiCall k c.action).message k :=
    hsame.message (.apiCall (u.apiCall k c.action))
  refine ⟨h.inside, ?_, ?_, h.value⟩
  · rw [BodyUpload.apiCall_of_same hsame]
    exact h.serviceable.later hsame
  · rw [BodyUpload.apiCall_of_same hsame, hmessage]
    exact h.successful

theorem Granted.returns (h : Granted u k serve c) (hk : k.Proper) :
    ∃ fuel x, u.call c.cbs fuel k c.action = some (.returned 0 x []) := by
  obtain ⟨hvalid, hlegible, -, hfits, ⟨N, hhosts⟩, hr, hd, hlt⟩ := h.serviceable
  have hok := (Preparation.prepares hvalid).ok_iff.mpr hfits
  obtain ⟨fuel, x, hrun, hstatus, -⟩ := exchange_served hk hvalid hlegible hok hhosts hr hd hlt
  have hcall := performCall_of_ok hok hrun
  rw [ifSuccessful_of_2xx (by rw [hstatus]; exact h.successful)] at hcall
  exact ⟨fuel, x, (u.call_eq ..).trans hcall⟩

/-- The calls of a list can be made one after the other. -/
theorem exists_uploading (hk : k.Proper) {cs : List UploadCall}
    (hcs : ∀ c ∈ cs, ∃ serve, Granted u k serve c) (path : List Byte) :
    ∃ k' s, Uploading u path k .empty cs k' s := by
  suffices hlater : ∀ {k₀ : Core 64} (s₀ : Storage), SameApplication k k₀ →
      ∃ k' s, Uploading u path k₀ s₀ cs k' s from hlater .empty (.refl k)
  induction cs with
  | nil => exact fun s₀ _ => ⟨_, s₀, .nil⟩
  | cons c cs ih =>
    intro k₀ s₀ hsame
    obtain ⟨serve, hfirst⟩ := hcs c List.mem_cons_self
    have hgranted := hfirst.later hsame
    obtain ⟨fuel, x, hcall⟩ := hgranted.returns (hsame.proper hk)
    obtain ⟨code, hconducts, -⟩ := conducts_of_performCall ((u.call_eq ..).symm.trans hcall)
    have hnext := hsame.trans (hconducts.sameApplication hgranted.serviceable.valid)
    obtain ⟨k', s, hrest⟩ :=
      ih (fun c hc => hcs c (List.mem_cons_of_mem _ hc)) (s₀.receive path x.trace) hnext
    refine ⟨k', s, ?_⟩
    have huploading := Uploading.call hgranted.inside hcall hrest
    rwa [← hgranted.value] at huploading

end

theorem Uploading.inside {k k' : Core 64} {u : BodyUpload} {path : List Byte} {s s' : Storage}
    {cs : List UploadCall} (h : Uploading u path k s cs k' s') : ∀ c ∈ cs, u.Inside c.action := by
  induction h with
  | nil => exact fun c hc => absurd hc List.not_mem_nil
  | call hinside _ _ ih => exact List.forall_mem_cons.mpr ⟨hinside, ih⟩
  | other _ _ _ _ _ _ ih => exact ih

/-- **Behind the commit** the object has the body, and keeps it. -/
theorem object_of_commits {u : BodyUpload} {s s' : Storage}
    {cs before chunks after : List UploadCall} {c : UploadCall} (hs : s.Sound u.data)
    (hinside : ∀ c ∈ cs, u.Inside c.action) (hdata : u.data ≠ [])
    (hcs : cs = before ++ (chunks ++ c :: after)) (hcancel : ∀ c ∈ chunks, c.action ≠ .finish 0)
    (hall : ∀ i < u.data.length, ∃ c ∈ chunks, c.Covers i) (hc : c.Commits)
    (h : Delivery u.effect s (cs.map UploadCall.request) s') : s'.object = some u.data := by
  obtain ⟨hvalue, commit, haction, hcommit⟩ := hc
  have hrequest : c.request = (.finish commit, true) := by
    rw [UploadCall.request, haction, hvalue]
    rfl
  rw [hcs, List.map_append] at h
  obtain ⟨s₁, h₁, h₂⟩ := h.append
  have hsound := h₁.invariant (fun x _ _ hsound => hsound.effect x.1) hs
  rw [List.map_append, List.map_cons, hrequest] at h₂
  have hin : ∀ c ∈ chunks, u.Inside c.action := fun c hc =>
    hinside c (hcs ▸ List.mem_append_right _ (List.mem_append_left _ hc))
  refine (h₂.acknowledged (fun s => s.Sound u.data ∧ s.Has u.data fun i => i < u.data.length)
    (fun s => s.Sound u.data ∧ s.object = some u.data) ?_ ?_ ?_).2
  · intro s₂ hchunks
    exact has_of_covered hsound hin hcancel hdata hall hchunks
  · rintro s₂ ⟨hsound₂, hhas⟩
    exact ⟨hsound₂.effect _, object_commit hsound₂ hhas hcommit⟩
  · rintro x - s₂ ⟨hsound₂, hobject⟩
    exact ⟨hsound₂.effect x.1, object_effect hsound₂ hobject x.1⟩

/-! ## The two directions -/

/-- **Uploading in parts is safe**: whatever fails, the object has no other body than the one that is
uploaded; and it has this one when a commit has returned 0 behind calls that have returned 0 for
chunks that cover it, with no cancellation in between. -/
theorem upload_reassembled {k k' : Core 64} {u : BodyUpload} {s : Storage} {cs : List UploadCall}
    (hk : k.Proper) (hu : u.Proper k) (h : Uploading u (u.path k).bytes k .empty cs k' s) :
    (∀ b ∈ s.object, b = u.data) ∧
      ∀ before chunks c after, cs = before ++ (chunks ++ c :: after) →
        (∀ c ∈ chunks, c.action ≠ .finish 0) → (∀ i < u.data.length, ∃ c ∈ chunks, c.Covers i) →
        c.Commits → s.object = some u.data := by
  have hdelivery := h.delivery hk hu rfl
  refine ⟨?_, ?_⟩
  · have hsound := hdelivery.invariant (fun x _ _ hsound => hsound.effect x.1) (sound_empty u.data)
    exact hsound.object
  · intro before chunks c after hcs hcancel hall hc
    exact object_of_commits (sound_empty u.data) h.inside hu.data.1 hcs hcancel hall hc hdelivery

/-- **Uploading in parts gets there**: where the servers grant the calls, every call returns 0, in
whatever order the chunks come, and behind the commit the object has the body. -/
theorem upload_completes {k : Core 64} {u : BodyUpload} {chunks : List UploadCall} {c : UploadCall}
    (hk : k.Proper) (hu : u.Proper k) (hgranted : ∀ c' ∈ chunks ++ [c], ∃ serve, Granted u k serve c')
    (hcancel : ∀ c ∈ chunks, c.action ≠ .finish 0)
    (hall : ∀ i < u.data.length, ∃ c ∈ chunks, c.Covers i) (hc : c.Commits) :
    ∃ k' s, Uploading u (u.path k).bytes k .empty (chunks ++ [c]) k' s ∧
      s.object = some u.data := by
  obtain ⟨k', s, h⟩ := exists_uploading hk hgranted (u.path k).bytes
  have hcs : chunks ++ [c] = [] ++ (chunks ++ c :: []) := rfl
  exact ⟨k', s, h, object_of_commits (sound_empty u.data) h.inside hu.data.1 hcs hcancel hall hc
    (h.delivery hk hu rfl)⟩

/-- A greeting, as the body of an object. -/
def greeting : BodyUpload where
  bucket := ⟨.app, .lit "", .lit "b"⟩
  objectId := .lit "o"
  uploadId := .lit "u"
  bodyContentType := some (.lit "text/plain")
  data := ascii "hello world"

theorem proper_device512 : device512.Proper :=
  ⟨by decide, by decide, by decide, by decide, by decide, by decide⟩

theorem proper_greeting : greeting.Proper device512 := by
  refine ⟨by decide +kernel, by decide +kernel, ?_, by decide, by decide, ?_⟩
  · rintro str ⟨⟩
    decide
  · exact Nat.le_trans (by decide : greeting.data.length ≤ 11) (Nat.le_of_lt (by decide))

/-- A call for it, served by one that hands over a byte at a time and keeps the connection. -/
def UploadCall.served (a : UploadAction) : UploadCall := ⟨a, answering fun _ => fiveBytesResponse, 0⟩

theorem granted_served {a : UploadAction} (hinside : greeting.Inside a)
    (hok : (kiiCoreApiCall device512 (greeting.apiCall device512 a)).code = .ok) :
    ∃ serve, Granted greeting device512 serve (.served a) := by
  have hsize : device512.bufferSize = 512 := by decide +kernel
  have hanswers : ∀ req : Request,
      ((fun _ => fiveBytesResponse) req).WellFormed ∧ DeclaresLength ((fun _ => fiveBytesResponse) req) :=
    fun _ => ⟨fiveBytesResponse_wellFormed, declaresLength_fiveBytesResponse⟩
  have hvalid := BodyUpload.valid proper_greeting hinside
  have hfits := (Preparation.prepares hvalid).ok_iff.mp hok
  refine ⟨fun _ => fiveBytesResponse, hinside, ⟨hvalid, BodyUpload.legible proper_greeting a,
    trivial, hfits, ⟨3, hosts_answering hanswers⟩, fiveBytesResponse_wellFormed,
    Or.inl declaresLength_fiveBytesResponse, ?_⟩, by decide, rfl⟩
  rw [hsize]
  exact registry_short [] ((greeting.apiCall device512 a).message device512)

/-- The second half first. -/
def halves : List UploadCall := [.served (.chunk 5 6), .served (.chunk 0 5)]

theorem granted_halves : ∀ c ∈ halves ++ [.served (.finish 1)],
    ∃ serve, Granted greeting device512 serve c := by
  simp only [halves, List.cons_append, List.nil_append, List.forall_mem_cons]
  exact ⟨granted_served ⟨by decide, by decide⟩ (by decide +kernel),
    granted_served ⟨by decide, by decide⟩ (by decide +kernel),
    granted_served trivial (by decide +kernel), by simp⟩

theorem covers_halves : ∀ i < greeting.data.length, ∃ c ∈ halves, c.Covers i := by
  intro i hi
  have hlen : greeting.data.length = 11 := by decide
  by_cases h : 5 ≤ i
  · exact ⟨_, List.mem_cons_self, rfl, 5, 6, rfl, h, by rwa [hlen] at hi⟩
  · refine ⟨_, List.mem_cons_of_mem _ List.mem_cons_self, rfl, 0, 5, rfl, Nat.zero_le i, ?_⟩
    exact Nat.lt_of_not_le h

theorem not_cancel_halves : ∀ c ∈ halves, c.action ≠ .finish 0 := by
  simp only [halves, List.forall_mem_cons]
  exact ⟨UploadAction.noConfusion, UploadAction.noConfusion, by simp⟩

theorem upload_reassembled_of_greeting : ∃ (k' : Core 64) (s : Storage),
    Uploading greeting (greeting.path device512).bytes device512 .empty
        (halves ++ [.served (.finish 1)]) k' s ∧
      (∀ b ∈ s.object, b = greeting.data) ∧ s.object = some greeting.data := by
  obtain ⟨k', s, h⟩ := exists_uploading proper_device512 granted_halves
    (greeting.path device512).bytes
  obtain ⟨hsafe, hobject⟩ := upload_reassembled proper_device512 proper_greeting h
  exact ⟨k', s, h, hsafe, hobject [] halves _ [] rfl not_cancel_halves covers_halves
    ⟨rfl, 1, rfl, Nat.one_ne_zero⟩⟩

theorem upload_completes_of_greeting : ∃ (k' : Core 64) (s : Storage),
    Uploading greeting (greeting.path device512).bytes device512 .empty
        (halves ++ [.served (.finish 1)]) k' s ∧ s.object = some greeting.data :=
  upload_completes proper_device512 proper_greeting granted_halves not_cancel_halves covers_halves
    ⟨rfl, 1, rfl, Nat.one_ne_zero⟩

end KiiThing
