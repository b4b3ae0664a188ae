import Chinwag.Lib.JsonText
import Chinwag.Dpop.OneTimeUse
import Chinwag.Dpop.Thumbprint
import Chinwag.Gateway.Proxy

/-!
# The text of a proof

What `createDPoPProof` writes, `ParseProof` reads: the client's claims, and the key whose thumbprint
the client has for its own. So a client that holds a nonce is let through exactly where its address,
its method and its clock are those of the service, and nobody has used nonce or identifier before.
-/
namespace Chinwag.Dpop

open Base64 Gateway UrlPath

/-! ### The client -/

/-- `TextEncoder.encode`. -/
def utf8 (s : String) : List Octet := s.toUTF8.data.toList.map UInt8.toFin

def encodeJSON (value : Json) : String := base64url (utf8 (JsonText.stringify value))

/-- The key pair; `sign` is ECDSA with its private key, over the digest of the bytes. -/
structure StoredKey where
  point : PublicPoint
  sign : List Octet → List Octet

def StoredKey.publicJwk (key : StoredKey) : JsonWebKey := exportKey key.point

structure ProofOptions where
  method : String
  url : Bytes
  nonce : Option String

/-- What the browser adds: an identifier, its clock in seconds, and how it reads an address. -/
structure Browser where
  randomUUID : String
  now : Int
  readURL : Bytes → Option ClientURL

/-- Addresses are ASCII. -/
def asText (s : Bytes) : String := String.ofList (s.map fun b => Char.ofNat b.val)

def proofHeader (publicJwk : JsonWebKey) : Json :=
  .obj [("typ", .str "dpop+jwt"), ("alg", .str "ES256"), ("jwk", proofJwk publicJwk)]

/-- The nonce is set last, and only if there is one that is not empty. -/
def nonceMember : Option String → List (String × Json)
  | none => []
  | some nonce => if nonce = "" then [] else [("nonce", .str nonce)]

def proofPayload (b : Browser) (opts : ProofOptions) : Json :=
  .obj (("jti", .str b.randomUUID) :: ("htm", .str opts.method.toUpper) ::
    ("htu", .str (asText (normalizeHtu opts.url (b.readURL opts.url)))) :: ("iat", .int b.now) :: nonceMember opts.nonce)

structure CreatedProof where
  proof : String
  jkt : String

def createDPoPProof (sha256 : ByteArray → List Octet) (key : StoredKey) (b : Browser) (opts : ProofOptions) :
    CreatedProof :=
  let signingInput := encodeJSON (proofHeader key.publicJwk) ++ "." ++ encodeJSON (proofPayload b opts)
  ⟨signingInput ++ "." ++ base64url (key.sign (utf8 signingInput)), computeJkt sha256 key.publicJwk⟩

/-- The text that is hashed is the JSON of the four members in their order. -/
theorem computeJkt_stringify (sha256 : ByteArray → List Octet) (publicJwk : JsonWebKey) :
    computeJkt sha256 publicJwk = base64url (sha256 (JsonText.stringify (.obj [("crv", .str publicJwk.crv),
      ("kty", .str publicJwk.kty), ("x", .str publicJwk.x), ("y", .str publicJwk.y)])).toUTF8) := by
  have hchar : stringifyChar = JsonText.escape := rfl
  have htext : "\x7b\"crv\":" ++ stringify publicJwk.crv ++ ",\"kty\":" ++ stringify publicJwk.kty ++
      ",\"x\":" ++ stringify publicJwk.x ++ ",\"y\":" ++ stringify publicJwk.y ++ "\x7d" =
        JsonText.stringify (.obj [("crv", .str publicJwk.crv), ("kty", .str publicJwk.kty), ("x", .str publicJwk.x),
          ("y", .str publicJwk.y)]) := by
    apply String.toList_inj.mp
    simp [stringify, JsonText.stringify, JsonText.print, JsonText.printMembers, JsonText.quoted, hchar, JsonText.escape]
  exact congrArg (fun text : String => base64url (sha256 text.toUTF8)) htext

/-! ### The service -/

/-- What `json.Unmarshal` allows of nesting. -/
def maxNestingDepth : Nat := 10000

/-- What the service relies on: `RawURLEncoding` decodes what it encodes, and `encoding/json` reads
texts as RFC 8259 has them. -/
structure ReadsTokens (lib : Libraries) : Prop where
  decodes : ∀ s : String, lib.decodeString (rawUrl (utf8 s)) = .ok s
  unmarshals : ∀ (text : String) (v : Json), JsonText.parse maxNestingDepth text = some v → lib.unmarshal text = .ok v

/-- The claims of `createDPoPProof`, as the service has them. -/
def createdClaims (b : Browser) (opts : ProofOptions) : ProofClaims :=
  ⟨b.randomUUID, opts.method.toUpper, asText (normalizeHtu opts.url (b.readURL opts.url)), b.now, opts.nonce.getD ""⟩

def createdHeader (key : StoredKey) : ProofHeader := ⟨"dpop+jwt", "ES256", some (proofJwk key.publicJwk)⟩

/-- The clock of the browser in an `int64`, and a point without a zero coordinate. -/
structure Usual (key : StoredKey) (b : Browser) : Prop where
  x : key.point.x ≠ 0
  y : key.point.y ≠ 0
  now : Json.inInt64 b.now = true

/-! ### Reading it back -/

theorem no_dot (data : List Octet) : '.' ∉ (base64url data).toList := by
  have hsymbol : ∀ s : Sextet, urlSymbol s ≠ '.' := by decide
  rw [base64url_eq_rawUrl, rawUrl, String.toList_ofList]
  intro hmem
  obtain ⟨s, -, hs⟩ := List.mem_map.mp hmem
  exact hsymbol s hs

section Reading

variable {lib : Libraries} {key : StoredKey} {b : Browser} {opts : ProofOptions}

theorem decode_encodeJSON (h : ReadsTokens lib) (v : Json) :
    lib.decodeString (encodeJSON v) = .ok (JsonText.stringify v) := by
  unfold encodeJSON
  rw [base64url_eq_rawUrl]
  exact h.decodes _

theorem unmarshal_stringify (h : ReadsTokens lib) {v : Json} (hint : JsonText.integral v = true)
    (hdepth : JsonText.depth v ≤ maxNestingDepth) {α : Type} (decode : Json → Option α) :
    unmarshalInto lib decode (JsonText.stringify v) = (decode v).elim (.error lib.mismatch) .ok := by
  have hparse := JsonText.parse_stringify hint hdepth
  unfold unmarshalInto
  rw [h.unmarshals _ v hparse]
  cases hdecode : decode v with
  | none =>
    simp only [bind, Except.bind, hdecode]
    rfl
  | some a =>
    simp only [bind, Except.bind, hdecode]
    rfl

theorem ok_of_wrap {α : Type} {text : String} {x : Except String α} {a : α} (h : wrap text x = .ok a) : x = .ok a := by
  cases x with
  | error e => cases h
  | ok b => exact h

theorem plain_header (publicJwk : JsonWebKey) : JsonText.integral (proofHeader publicJwk) = true ∧
    JsonText.depth (proofHeader publicJwk) = 2 := by
  simp [proofHeader, proofJwk, JsonText.integral, JsonText.integralMembers, JsonText.depth, JsonText.depthMembers]

theorem plain_payload (b : Browser) (opts : ProofOptions) : JsonText.integral (proofPayload b opts) = true ∧
    JsonText.depth (proofPayload b opts) = 1 := by
  have hnonce : JsonText.integralMembers (nonceMember opts.nonce) = true ∧
      JsonText.depthMembers (nonceMember opts.nonce) = 0 := by
    unfold nonceMember
    split
    · exact ⟨rfl, rfl⟩
    · split <;> exact ⟨rfl, rfl⟩
  simp [proofPayload, JsonText.integral, JsonText.integralMembers, JsonText.depth, JsonText.depthMembers, hnonce]

theorem decode_header (key : StoredKey) :
    ProofHeader.decode (proofHeader key.publicJwk) = some (createdHeader key) := by
  have hnames : (["typ", "alg", "jwk"].map Json.foldName).Nodup := by decide
  have htyp : Json.stringField "typ" [("typ", .str "dpop+jwt"), ("alg", .str "ES256"),
      ("jwk", proofJwk key.publicJwk)] = some "dpop+jwt" :=
    Json.stringField_of_values (JsonText.valuesOf_once hnames (by simp))
  have halg : Json.stringField "alg" [("typ", .str "dpop+jwt"), ("alg", .str "ES256"),
      ("jwk", proofJwk key.publicJwk)] = some "ES256" :=
    Json.stringField_of_values (JsonText.valuesOf_once hnames (by simp))
  have hjwk : Json.rawField "jwk" [("typ", .str "dpop+jwt"), ("alg", .str "ES256"),
      ("jwk", proofJwk key.publicJwk)] = some (proofJwk key.publicJwk) :=
    Json.rawField_of_values (JsonText.valuesOf_once hnames (by simp))
  unfold ProofHeader.decode proofHeader
  simp only [Json.asStruct_obj, Option.bind_eq_bind, Option.bind_some, htyp, halg, hjwk]
  rfl

/-- What the service reads where each member but the nonce is there once, and the nonce at most once. -/
theorem decode_members {members : List (String × Json)} (claims : ProofClaims)
    (hnames : (members.map fun m => Json.foldName m.1).Nodup) (hjti : ("jti", .str claims.jti) ∈ members)
    (hhtm : ("htm", .str claims.htm) ∈ members) (hhtu : ("htu", .str claims.htu) ∈ members)
    (hiat : ("iat", .int claims.iat) ∈ members)
    (hnonce : ("nonce", .str claims.nonce) ∈ members ∨
      Json.foldName "nonce" ∉ (members.map fun m => Json.foldName m.1) ∧ claims.nonce = "") :
    ProofClaims.decode (.obj members) = if Json.inInt64 claims.iat then some claims else none := by
  have htime : Json.int64Field "iat" members = if Json.inInt64 claims.iat then some claims.iat else none := by
    unfold Json.int64Field Json.field
    rw [JsonText.valuesOf_once hnames hiat]
    simp [Json.decodeOnto, Json.readInt64]
  have hheld : Json.stringField "nonce" members = some claims.nonce := by
    rcases hnonce with hmem | ⟨hnone, hempty⟩
    · exact Json.stringField_of_values (JsonText.valuesOf_once hnames hmem)
    · unfold Json.stringField Json.field
      rw [JsonText.valuesOf_absent hnone, hempty]
      rfl
  unfold ProofClaims.decode
  simp only [Json.asStruct_obj, Option.bind_eq_bind, Option.bind_some, htime, hheld,
    Json.stringField_of_values (JsonText.valuesOf_once hnames hjti),
    Json.stringField_of_values (JsonText.valuesOf_once hnames hhtm),
    Json.stringField_of_values (JsonText.valuesOf_once hnames hhtu)]
  split <;> rfl

theorem decode_payload (b : Browser) (opts : ProofOptions) :
    ProofClaims.decode (proofPayload b opts) = if Json.inInt64 b.now then some (createdClaims b opts) else none := by
  have hnames : (["jti", "htm", "htu", "iat", "nonce"].map Json.foldName).Nodup := by decide
  have hfour : (["jti", "htm", "htu", "iat"].map Json.foldName).Nodup := by decide
  have habsent : Json.foldName "nonce" ∉ ["jti", "htm", "htu", "iat"].map Json.foldName := by decide
  unfold proofPayload nonceMember
  split
  · rename_i hnone
    refine decode_members (createdClaims b opts) hfour ?_ ?_ ?_ ?_ (.inr ⟨habsent, ?_⟩)
    · simp [createdClaims]
    · simp [createdClaims]
    · simp [createdClaims]
    · simp [createdClaims]
    · rw [createdClaims, hnone]
      rfl
  · rename_i nonce hsome
    split
    · rename_i hempty
      refine decode_members (createdClaims b opts) hfour ?_ ?_ ?_ ?_ (.inr ⟨habsent, ?_⟩)
      · simp [createdClaims]
      · simp [createdClaims]
      · simp [createdClaims]
      · simp [createdClaims]
      · rw [createdClaims, hsome]
        exact hempty
    · refine decode_members (createdClaims b opts) hnames ?_ ?_ ?_ ?_ (.inl ?_)
      · simp [createdClaims]
      · simp [createdClaims]
      · simp [createdClaims]
      · simp [createdClaims]
      · simp [createdClaims, hsome]

/-- What the service makes of the client's proof. -/
def createdProof (sha256 : ByteArray → List Octet) (key : StoredKey) (b : Browser) (opts : ProofOptions) : Proof :=
  ⟨(createDPoPProof sha256 key b opts).proof, createdHeader key, createdClaims b opts, key.point.key⟩

/-- Up to the key and the claims nothing can go wrong with a proof the client made. -/
theorem parseProof_created (sha256 : ByteArray → List Octet) (h : ReadsTokens lib) :
    parseProof lib (createDPoPProof sha256 key b opts).proof =
      (wrap "parse jwk: " (parsePublicKey lib (proofJwk key.publicJwk)) >>= fun pub =>
        wrap "parse claims: " (unmarshalInto lib ProofClaims.decode (JsonText.stringify (proofPayload b opts))) >>=
          fun claims => .ok ⟨(createDPoPProof sha256 key b opts).proof, createdHeader key, claims, pub⟩) := by
  have hsplit := splitDots_three (no_dot (utf8 (JsonText.stringify (proofHeader key.publicJwk))))
    (no_dot (utf8 (JsonText.stringify (proofPayload b opts))))
    (no_dot (key.sign (utf8 (encodeJSON (proofHeader key.publicJwk) ++ "." ++ encodeJSON (proofPayload b opts)))))
  have hproof : splitDots (createDPoPProof sha256 key b opts).proof = [encodeJSON (proofHeader key.publicJwk),
      encodeJSON (proofPayload b opts), base64url (key.sign (utf8 (encodeJSON (proofHeader key.publicJwk) ++ "." ++
        encodeJSON (proofPayload b opts))))] := hsplit
  obtain ⟨hint, hdepth⟩ := plain_header key.publicJwk
  have hheader : unmarshalInto lib ProofHeader.decode (JsonText.stringify (proofHeader key.publicJwk)) =
      .ok (createdHeader key) := by
    rw [unmarshal_stringify h hint (by rw [hdepth]; decide), decode_header]
    rfl
  unfold parseProof
  rw [hproof]
  simp only [decode_encodeJSON h, hheader, wrap, bind, Except.bind]
  rfl

/-- The key of a proof is the client's, if it is one the service takes. -/
theorem parsePublicKey_created (hkeys : ReadsKeys lib) (key : StoredKey) :
    (key.point.x ≠ 0 ∧ key.point.y ≠ 0 → parsePublicKey lib (proofJwk key.publicJwk) = .ok key.point.key) ∧
      ∀ pub, parsePublicKey lib (proofJwk key.publicJwk) = .ok pub →
        (key.point.x ≠ 0 ∧ key.point.y ≠ 0) ∧ pub = key.point.key := by
  obtain ⟨members, hjwk, hdenotes, hadds⟩ := denotes_proofJwk key.point
  have haccepts := hkeys.accepts key.point members hdenotes hadds
  have hreads : ∀ pub, parsePublicKey lib (.obj members) = .ok pub → pub = key.point.key := fun pub hpub =>
    hkeys.reads key.point members pub hdenotes (parsePublicKey_ok.mp hpub).1
  rw [StoredKey.publicJwk, hjwk]
  constructor
  · intro hcoordinates
    obtain ⟨pub, hpub⟩ := (parsePublicKey_key hkeys haccepts).mpr hcoordinates
    rw [hpub, hreads pub hpub]
  · exact fun pub hpub => ⟨(parsePublicKey_key hkeys haccepts).mp ⟨pub, hpub⟩, hreads pub hpub⟩

theorem parseProof_created_iff (sha256 : ByteArray → List Octet) (h : ReadsTokens lib) (hkeys : ReadsKeys lib)
    {proof : Proof} : parseProof lib (createDPoPProof sha256 key b opts).proof = .ok proof ↔
      Usual key b ∧ proof = createdProof sha256 key b opts := by
  obtain ⟨hint, hdepth⟩ := plain_payload b opts
  obtain ⟨haccepted, htaken⟩ := parsePublicKey_created hkeys key
  have hclaims := unmarshal_stringify h hint (by rw [hdepth]; decide) ProofClaims.decode
  rw [decode_payload] at hclaims
  rw [parseProof_created sha256 h, hclaims]
  constructor
  · intro hproof
    obtain ⟨pub, hpub, hproof⟩ := ok_of_bind hproof
    obtain ⟨claims, hread, hproof⟩ := ok_of_bind hproof
    obtain ⟨⟨hx, hy⟩, rfl⟩ := htaken pub (ok_of_wrap hpub)
    have hread := ok_of_wrap hread
    split at hread
    · rename_i hnow
      obtain rfl := Except.ok.inj hread
      exact ⟨⟨hx, hy, hnow⟩, (Except.ok.inj hproof).symm⟩
    · cases hread
  · rintro ⟨⟨hx, hy, hnow⟩, rfl⟩
    rw [haccepted ⟨hx, hy⟩, if_pos hnow]
    rfl

end Reading

section Sample

/-- The libraries, with a signature check that is given. -/
def goLibraries (verify : String → EcKey → Bool) : Libraries where
  decodeString text :=
    match decodeRawUrl text with
    | none => .error "illegal base64 data at input byte 0"
    | some data =>
      match String.fromUTF8? ⟨(data.map UInt8.ofFin).toArray⟩ with
      | none => .error "invalid UTF-8"
      | some s => .ok s
  unmarshal text :=
    match JsonText.parse maxNestingDepth text with
    | none => .error "unexpected end of JSON input"
    | some v => .ok v
  mismatch := "json: cannot unmarshal"
  parseKey := readJwk
  isOnCurve k := onCurve k.x k.y
  verify := verify

theorem readsTokens_goLibraries (verify : String → EcKey → Bool) : ReadsTokens (goLibraries verify) where
  decodes s := by
    have hbytes : ((utf8 s).map UInt8.ofFin).toArray = s.toUTF8.data := by
      unfold utf8
      rw [List.map_map]
      have hid : (UInt8.ofFin ∘ UInt8.toFin) = id := rfl
      rw [hid, List.map_id]
    have htext : String.fromUTF8? s.toUTF8 = some s := by
      unfold String.fromUTF8?
      exact dif_pos s.isValidUTF8
    unfold goLibraries
    simp only [decodeRawUrl_rawUrl, hbytes]
    rw [show (⟨s.toUTF8.data⟩ : ByteArray) = s.toUTF8 from rfl, htext]
  unmarshals text v h := by
    unfold goLibraries
    simp only [h]

theorem readsKeys_goLibraries (verify : String → EcKey → Bool) : ReadsKeys (goLibraries verify) where
  on_curve _ _ := rfl
  accepts := readsKeys_keyLibraries.accepts
  reads := readsKeys_keyLibraries.reads

def sampleStoredKey : StoredKey := ⟨samplePoint, fun _ => []⟩

def sampleBrowser : Browser := ⟨"7f1c9a52-6d3f-4f0b-9a55-0d1c2f6b8e11", 1760000000, fun _ => none⟩

def sampleOptions : ProofOptions := ⟨"get", bytes "https://chat.local/rooms", some "01890a5d-ac96-774b-bcce-b302099a8061"⟩

end Sample

end Chinwag.Dpop
