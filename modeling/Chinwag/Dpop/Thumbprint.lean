import Mathlib.Data.List.DropRight
import Chinwag.Lib.Base64
import Chinwag.Dpop.Validator

/-!
# The thumbprint of a key, on both sides

The client makes it of the JWK it exported, the backend of the point it read out of a header. The
hash is the same function of bytes on both sides.
-/
namespace Chinwag.Dpop

open Base64

/-! ### Keys -/

def p256Prime : ℕ := 0xFFFFFFFF00000001000000000000000000000000FFFFFFFFFFFFFFFFFFFFFFFF

def p256B : ℕ := 0x5AC635D8AA3A93E7B3EBBD55769886BC651D06B0CC53B0F63BCE3C3E27D2604B

/-- `IsOnCurve` of `elliptic.P256()`. -/
def onCurve (x y : ℤ) : Bool :=
  0 ≤ x && x < p256Prime && 0 ≤ y && y < p256Prime && (y * y - (x * x * x - 3 * x + p256B)) % p256Prime = 0

/-- The public key of a key pair: every such point is that of exactly one. -/
structure PublicPoint where
  x : ℕ
  y : ℕ
  on_curve : onCurve x y = true

def PublicPoint.key (P : PublicPoint) : EcKey := ⟨true, P.x, P.y⟩

theorem PublicPoint.bounds (P : PublicPoint) : P.x < 256 ^ 32 ∧ P.y < 256 ^ 32 := by
  have hcurve := P.on_curve
  have hprime : p256Prime < 256 ^ 32 := by decide +kernel
  simp only [onCurve, Bool.and_eq_true, decide_eq_true_eq, Nat.cast_lt] at hcurve
  obtain ⟨⟨⟨⟨-, hx⟩, -⟩, hy⟩, -⟩ := hcurve
  exact ⟨hx.trans hprime, hy.trans hprime⟩

/-! ### The client -/

/-- `base64url`. -/
def base64url (data : List Octet) : String :=
  String.ofList (((std data).map fun c => if c = '+' then '-' else if c = '/' then '_' else c).rdropWhile (· = '='))

/-- The members of a `JsonWebKey` that are read. -/
structure JsonWebKey where
  kty : String
  crv : String
  x : String
  y : String

/-- `exportKey` of WebCrypto. -/
def exportKey (P : PublicPoint) : JsonWebKey := ⟨"EC", "P-256", rawUrl (bigEndian 32 P.x), rawUrl (bigEndian 32 P.y)⟩

def hexDigit (n : ℕ) : Char := if n < 10 then Char.ofNat (n + 48) else Char.ofNat (n + 87)

/-- A character in a string of `JSON.stringify`. -/
def stringifyChar (c : Char) : List Char :=
  if c = '"' then ['\\', '"']
  else if c = '\\' then ['\\', '\\']
  else if c.toNat = 8 then ['\\', 'b']
  else if c.toNat = 12 then ['\\', 'f']
  else if c = '\n' then ['\\', 'n']
  else if c = '\r' then ['\\', 'r']
  else if c = '\t' then ['\\', 't']
  else if c.toNat < 32 then ['\\', 'u', '0', '0', hexDigit (c.toNat / 16), hexDigit (c.toNat % 16)]
  else [c]

def stringify (s : String) : String := String.ofList ('"' :: s.toList.flatMap stringifyChar ++ ['"'])

theorem octet_ne_zero : 256 ≠ 0 := by decide

-- for the literals of `Octet`
local instance octet_neZero : NeZero 256 := ⟨octet_ne_zero⟩

section Hash

variable (sha256 : ByteArray → List Octet)

def computeJkt (publicJwk : JsonWebKey) : String :=
  let canonical := "\x7b\"crv\":" ++ stringify publicJwk.crv ++ ",\"kty\":" ++ stringify publicJwk.kty ++
    ",\"x\":" ++ stringify publicJwk.x ++ ",\"y\":" ++ stringify publicJwk.y ++ "\x7d"
  base64url (sha256 canonical.toUTF8)

/-- The jwk header of `createDPoPProof`. -/
def proofJwk (publicJwk : JsonWebKey) : Json :=
  .obj [("kty", .str publicJwk.kty), ("crv", .str publicJwk.crv), ("x", .str publicJwk.x), ("y", .str publicJwk.y)]

/-! ### The backend -/

def paddedBytes (b : List Octet) (size : ℕ) : List Octet :=
  if size ≤ b.length then b.take size else List.replicate (size - b.length) 0 ++ b

/-- A character under `%q`; which characters outside ASCII are printable is a table. -/
def quoteChar (isPrint : Char → Bool) (c : Char) : List Char :=
  if c = '"' then ['\\', '"']
  else if c = '\\' then ['\\', '\\']
  else if c.toNat < 127 ∧ 32 ≤ c.toNat then [c]
  else if c.toNat = 7 then ['\\', 'a']
  else if c.toNat = 8 then ['\\', 'b']
  else if c.toNat = 12 then ['\\', 'f']
  else if c = '\n' then ['\\', 'n']
  else if c = '\r' then ['\\', 'r']
  else if c = '\t' then ['\\', 't']
  else if c.toNat = 11 then ['\\', 'v']
  else if c.toNat < 128 then ['\\', 'x', hexDigit (c.toNat / 16), hexDigit (c.toNat % 16)]
  else if isPrint c then [c]
  else if c.toNat < 65536 then
    '\\' :: 'u' :: [12, 8, 4, 0].map fun shift => hexDigit (c.toNat / 2 ^ shift % 16)
  else '\\' :: 'U' :: [28, 24, 20, 16, 12, 8, 4, 0].map fun shift => hexDigit (c.toNat / 2 ^ shift % 16)

def quote (isPrint : Char → Bool) (s : String) : String :=
  String.ofList ('"' :: s.toList.flatMap (quoteChar isPrint) ++ ['"'])

variable (isPrint : Char → Bool)

/-- `Thumbprint`; `Bytes` takes the absolute value. -/
def thumbprint (pub : EcKey) : Except String String :=
  if ¬ pub.p256 then .error "unsupported curve, expected P-256"
  else
    let size := (256 + 7) / 8
    let canonical := "\x7b\"crv\":\"P-256\",\"kty\":\"EC\",\"x\":" ++
      quote isPrint (rawUrl (paddedBytes (minimal pub.x.natAbs) size)) ++ ",\"y\":" ++
      quote isPrint (rawUrl (paddedBytes (minimal pub.y.natAbs) size)) ++ "\x7d"
    .ok (rawUrl (sha256 canonical.toUTF8))

/-! ### The same text -/

theorem base64url_eq_rawUrl (data : List Octet) : base64url data = rawUrl data := by
  have hmap : ∀ ss : List Sextet,
      ((ss.map stdSymbol).map fun c => if c = '+' then '-' else if c = '/' then '_' else c) = ss.map urlSymbol := by
    intro ss
    rw [List.map_map]
    exact List.map_congr_left fun s _ => (urlSymbol_of_std s).symm
  have hpad : ∃ j, (padding data.length).map (fun c => if c = '+' then '-' else if c = '/' then '_' else c) =
      List.replicate j '=' := by
    unfold padding
    split
    · exact ⟨2, rfl⟩
    · exact ⟨1, rfl⟩
    · exact ⟨0, rfl⟩
  have hkept : ∀ c ∈ (sextets data).map urlSymbol, c ≠ '=' := by
    intro c hc
    obtain ⟨s, -, rfl⟩ := List.mem_map.mp hc
    have hpad : ∀ s : Sextet, urlSymbol s ≠ '=' := by decide
    exact hpad s
  obtain ⟨j, hj⟩ := hpad
  unfold base64url rawUrl std
  rw [List.map_append, hmap, hj, List.rdropWhile, List.reverse_append, List.reverse_replicate,
    List.dropWhile_append_of_pos (fun c hc => by simp [List.eq_of_mem_replicate hc])]
  have hself := List.rdropWhile_eq_self_iff (p := fun c => decide (c = '=')) (l := (sextets data).map urlSymbol)
  congr 1
  refine hself.mpr fun hne hlast => hkept _ (List.getLast_mem hne) (by simpa using hlast)

theorem paddedBytes_minimal {n : ℕ} (h : n < 256 ^ 32) : paddedBytes (minimal n) 32 = bigEndian 32 n := by
  obtain ⟨hlen, heq⟩ := zeros_minimal h
  unfold paddedBytes
  split
  · rename_i hfull
    have hsize : (minimal n).length = 32 := le_antisymm hlen hfull
    rw [hsize, Nat.sub_self, List.replicate_zero, List.nil_append] at heq
    rw [← heq]
    exact List.take_of_length_le (le_of_eq hsize)
  · exact heq

/-- Neither side has anything to escape in base64. -/
theorem quote_rawUrl (bs : List Octet) : quote isPrint (rawUrl bs) = stringify (rawUrl bs) := by
  have hplain : ∀ s : Sextet, stringifyChar (urlSymbol s) = [urlSymbol s] ∧
      (urlSymbol s ≠ '"' ∧ urlSymbol s ≠ '\\' ∧ (urlSymbol s).toNat < 127 ∧ 32 ≤ (urlSymbol s).toNat) := by
    decide
  have hsame : ∀ s : Sextet, quoteChar isPrint (urlSymbol s) = stringifyChar (urlSymbol s) := by
    intro s
    obtain ⟨hstringify, hquote, hslash, hprint⟩ := hplain s
    unfold quoteChar
    rw [if_neg hquote, if_neg hslash, if_pos hprint, hstringify]
  unfold quote stringify rawUrl
  rw [String.toList_ofList, List.flatMap_map, List.flatMap_map]
  simp only [hsame]

/-- The two canonical texts of a key are one. -/
theorem thumbprint_key (P : PublicPoint) :
    thumbprint sha256 isPrint P.key = .ok (computeJkt sha256 (exportKey P)) := by
  obtain ⟨hx, hy⟩ := P.bounds
  have hcrv : stringify "P-256" = "\"P-256\"" := by decide
  have hkty : stringify "EC" = "\"EC\"" := by decide
  have hhead : "\x7b\"crv\":" ++ "\"P-256\"" ++ ",\"kty\":" ++ "\"EC\"" ++ ",\"x\":" =
      "\x7b\"crv\":\"P-256\",\"kty\":\"EC\",\"x\":" := by decide
  unfold thumbprint computeJkt
  rw [if_neg (not_not_intro (show P.key.p256 = true from rfl)), base64url_eq_rawUrl]
  simp only [PublicPoint.key, exportKey, Int.natAbs_natCast, Nat.reduceAdd, Nat.reduceDiv, paddedBytes_minimal hx,
    paddedBytes_minimal hy, quote_rawUrl, hcrv, hkty, hhead]

end Hash

/-! ### Headers that denote a key -/

/-- The members that stand for a point, each once, in any order and among others. -/
structure Denotes (P : PublicPoint) (members : List (String × Json)) : Prop where
  once : (members.map Prod.fst).Nodup
  kty : ("kty", .str "EC") ∈ members
  crv : ("crv", .str "P-256") ∈ members
  x : ("x", .str (rawUrl (bigEndian 32 P.x))) ∈ members
  y : ("y", .str (rawUrl (bigEndian 32 P.y))) ∈ members

/-- The names of members that mean something in a key. -/
def registered : List String := ["kty", "crv", "x", "y", "d", "use", "key_ops", "alg", "kid", "x5u", "x5c", "x5t", "x5t#S256"]

/-- No member but the four is one that is looked at. -/
def OnlyAdds (members : List (String × Json)) : Prop :=
  ∀ m ∈ members, m.1 ∈ registered → m.1 ∈ ["kty", "crv", "x", "y"]

/-- What the backend relies on: `IsOnCurve` checks the equation, and a JWK is read by its members,
of which unknown ones are ignored. -/
structure ReadsKeys (lib : Libraries) : Prop where
  on_curve : ∀ x y, lib.isOnCurve ⟨true, x, y⟩ = onCurve x y
  accepts : ∀ (P : PublicPoint) (members : List (String × Json)), Denotes P members → OnlyAdds members →
    lib.parseKey (.obj members) = .ok P.key
  reads : ∀ (P : PublicPoint) (members : List (String × Json)) (key : EcKey), Denotes P members →
    lib.parseKey (.obj members) = .ok key → key = P.key

theorem denotes_proofJwk (P : PublicPoint) :
    ∃ members, proofJwk (exportKey P) = .obj members ∧ Denotes P members ∧ OnlyAdds members := by
  refine ⟨_, rfl, ⟨?_, ?_, ?_, ?_, ?_⟩, ?_⟩
  · simp
  · simp [exportKey]
  · simp [exportKey]
  · simp [exportKey]
  · simp [exportKey]
  · intro m hm _
    revert m
    simp

variable {lib : Libraries}

theorem parsePublicKey_ok {raw : Json} {pub : EcKey} :
    parsePublicKey lib raw = .ok pub ↔
      lib.parseKey raw = .ok pub ∧ pub.p256 = true ∧ 0 < pub.x ∧ 0 < pub.y ∧ lib.isOnCurve pub = true := by
  unfold parsePublicKey
  cases hparse : lib.parseKey raw with
  | error e => simp [bind, Except.bind]
  | ok key =>
    simp only [bind, Except.bind, pure, Except.pure, throw, throwThe, MonadExceptOf.throw, Except.ok.injEq]
    constructor
    · intro h
      split at h
      · cases h
      · split at h
        · cases h
        · split at h
          · cases h
          · cases h
            rename_i hcurve hsign honCurve
            rw [not_or, not_le, not_le] at hsign
            exact ⟨rfl, not_not.mp hcurve, hsign.1, hsign.2, not_not.mp honCurve⟩
    · rintro ⟨rfl, hcurve, hx, hy, honCurve⟩
      rw [if_neg (not_not_intro hcurve), if_neg (by omega), if_neg (not_not_intro honCurve)]

section Agreement

variable (sha256 : ByteArray → List Octet) (isPrint : Char → Bool)

/-- The backend takes a key from the header, and under the thumbprint the client has for its own. -/
def Agrees (lib : Libraries) (P : PublicPoint) (raw : Json) : Prop :=
  ∃ pub, parsePublicKey lib raw = .ok pub ∧ thumbprint sha256 isPrint pub = .ok (computeJkt sha256 (exportKey P))

/-- Only the guard on the signs of the coordinates keeps a key of the client out. -/
theorem parsePublicKey_key (hlib : ReadsKeys lib) {P : PublicPoint} {raw : Json} (h : lib.parseKey raw = .ok P.key) :
    (∃ pub, parsePublicKey lib raw = .ok pub) ↔ P.x ≠ 0 ∧ P.y ≠ 0 := by
  constructor
  · rintro ⟨pub, hpub⟩
    obtain ⟨hparse, -, hx, hy, -⟩ := parsePublicKey_ok.mp hpub
    rw [h] at hparse
    cases hparse
    exact ⟨fun hzero => by simp [PublicPoint.key, hzero] at hx, fun hzero => by simp [PublicPoint.key, hzero] at hy⟩
  · rintro ⟨hx, hy⟩
    have hcurve : lib.isOnCurve P.key = true := (hlib.on_curve P.x P.y).trans P.on_curve
    refine ⟨P.key, parsePublicKey_ok.mpr ⟨h, rfl, ?_, ?_, hcurve⟩⟩
    · exact Int.natCast_pos.mpr (Nat.pos_of_ne_zero hx)
    · exact Int.natCast_pos.mpr (Nat.pos_of_ne_zero hy)

/-- Whatever header with its members the backend takes a client's key from, the thumbprint is the client's. -/
theorem thumbprint_of_denotes (hlib : ReadsKeys lib) {P : PublicPoint} {members : List (String × Json)}
    (h : Denotes P members) {pub : EcKey} (hpub : parsePublicKey lib (.obj members) = .ok pub) :
    thumbprint sha256 isPrint pub = .ok (computeJkt sha256 (exportKey P)) := by
  rw [hlib.reads P members pub h (parsePublicKey_ok.mp hpub).1]
  exact thumbprint_key sha256 isPrint P

theorem agrees_iff (hlib : ReadsKeys lib) {P : PublicPoint} {members : List (String × Json)} (h : Denotes P members)
    (hadds : OnlyAdds members) : Agrees sha256 isPrint lib P (.obj members) ↔ P.x ≠ 0 ∧ P.y ≠ 0 := by
  rw [← parsePublicKey_key hlib (hlib.accepts P members h hadds)]
  constructor
  · rintro ⟨pub, hpub, -⟩
    exact ⟨pub, hpub⟩
  · rintro ⟨pub, hpub⟩
    exact ⟨pub, hpub, thumbprint_of_denotes sha256 isPrint hlib h hpub⟩

/-- The two sides agree on every key without a zero coordinate, and on every header that denotes it. -/
theorem thumbprints_agree (hlib : ReadsKeys lib) (P : PublicPoint) :
    (Agrees sha256 isPrint lib P (proofJwk (exportKey P)) ↔ P.x ≠ 0 ∧ P.y ≠ 0) ∧
      ∀ members, Denotes P members →
        (OnlyAdds members → (Agrees sha256 isPrint lib P (.obj members) ↔ P.x ≠ 0 ∧ P.y ≠ 0)) ∧
          ∀ pub, parsePublicKey lib (.obj members) = .ok pub →
            thumbprint sha256 isPrint pub = .ok (computeJkt sha256 (exportKey P)) := by
  refine ⟨?_, fun members h => ⟨agrees_iff sha256 isPrint hlib h, fun pub =>
    thumbprint_of_denotes sha256 isPrint hlib h⟩⟩
  obtain ⟨members, hjwk, hdenotes, hadds⟩ := denotes_proofJwk P
  rw [hjwk]
  exact agrees_iff sha256 isPrint hlib hdenotes hadds

end Agreement

/-! ### A library and two keys -/

def member (name : String) (members : List (String × Json)) : Option String :=
  match members.lookup name with
  | some (.str s) => some s
  | _ => none

/-- `ParseKey` and `Export` on the keys of the curve; a private key is no `ecdsa.PublicKey`. -/
def readJwk : Json → Except String EcKey
  | .obj members =>
    if member "kty" members = some "EC" ∧ member "crv" members = some "P-256" ∧ members.lookup "d" = none then
      match (member "x" members).bind decodeRawUrl, (member "y" members).bind decodeRawUrl with
      | some x, some y => .ok ⟨true, ofBigEndian x, ofBigEndian y⟩
      | _, _ => .error "failed to decode a coordinate"
    else .error "failed to parse key"
  | _ => .error "failed to probe data"

/-- The libraries as far as keys go. -/
def keyLibraries : Libraries where
  decodeString _ := .error "illegal base64 data at input byte 0"
  unmarshal _ := .error "unexpected end of JSON input"
  mismatch := "json: cannot unmarshal"
  parseKey := readJwk
  isOnCurve k := onCurve k.x k.y
  verify _ _ := false

theorem lookup_of_mem {members : List (String × Json)} (h : (members.map Prod.fst).Nodup) {name : String} {v : Json}
    (hmem : (name, v) ∈ members) : members.lookup name = some v := by
  induction members with
  | nil => cases hmem
  | cons m members ih =>
    obtain ⟨hnot, hrest⟩ := List.nodup_cons.mp h
    rcases List.mem_cons.mp hmem with rfl | hmem
    · exact List.lookup_cons_self
    · have hne : name ≠ m.1 := fun heq => hnot (heq ▸ List.mem_map_of_mem hmem)
      rw [List.lookup_cons, beq_false_of_ne hne]
      exact ih hrest hmem

theorem readJwk_of_denotes {P : PublicPoint} {members : List (String × Json)} (h : Denotes P members) :
    readJwk (.obj members) = if members.lookup "d" = none then .ok P.key else .error "failed to parse key" := by
  obtain ⟨hx, hy⟩ := P.bounds
  have hmember : ∀ {name text : String}, (name, Json.str text) ∈ members → member name members = some text := by
    intro name text hmem
    unfold member
    rw [lookup_of_mem h.once hmem]
  unfold readJwk
  dsimp only
  rw [hmember h.kty, hmember h.crv, hmember h.x, hmember h.y]
  simp only [true_and, Option.bind_some, decodeRawUrl_rawUrl, ofBigEndian_bigEndian hx, ofBigEndian_bigEndian hy]
  rfl

theorem readsKeys_keyLibraries : ReadsKeys keyLibraries where
  on_curve _ _ := rfl
  accepts P members h hadds := by
    refine (readJwk_of_denotes h).trans (if_pos ?_)
    rw [List.lookup_eq_none_iff]
    intro m hm
    rw [bne_iff_ne]
    intro heq
    have hknown := hadds m hm (by rw [← heq]; decide)
    rw [← heq] at hknown
    revert hknown
    decide
  reads P members key h hread := by
    have heq := (readJwk_of_denotes h).symm.trans hread
    split at heq
    · cases heq
      rfl
    · cases heq

/-- The digest of the canonical text of the key below. -/
def sampleDigest : List Octet :=
  [206, 120, 105, 26, 54, 89, 67, 74, 152, 21, 70, 77, 208, 60, 136, 176, 195, 8, 123, 19, 252, 143, 74, 241, 252, 30,
    31, 171, 240, 39, 140, 253]

def samplePoint : PublicPoint where
  x := 9372480342514887934870238206278543536461331173809889539786675672709239067423
  y := 70376275182526577586400019767757557714117150090485545153602164974997211444335
  on_curve := by decide +kernel

theorem samplePoint_agrees :
    (Agrees (fun _ => sampleDigest) (fun _ => false) keyLibraries samplePoint (proofJwk (exportKey samplePoint)) ↔
        samplePoint.x ≠ 0 ∧ samplePoint.y ≠ 0) ∧
      ∀ members, Denotes samplePoint members →
        (OnlyAdds members → (Agrees (fun _ => sampleDigest) (fun _ => false) keyLibraries samplePoint (.obj members) ↔
          samplePoint.x ≠ 0 ∧ samplePoint.y ≠ 0)) ∧
          ∀ pub, parsePublicKey keyLibraries (.obj members) = .ok pub →
            thumbprint (fun _ => sampleDigest) (fun _ => false) pub =
              .ok (computeJkt (fun _ => sampleDigest) (exportKey samplePoint)) :=
  thumbprints_agree (fun _ => sampleDigest) (fun _ => false) readsKeys_keyLibraries samplePoint

/-- A point of the curve whose first coordinate is zero. -/
def zeroPoint : PublicPoint where
  x := 0
  y := 0x66485c780e2f83d72433bd5d84a06bb6541c2af31dae871728bf856a174f93f4
  on_curve := by decide +kernel

/-- The backend refuses that key, so the client has a thumbprint and the backend none. -/
theorem zeroPoint_refused :
    ReadsKeys keyLibraries ∧
      ¬ Agrees (fun _ => sampleDigest) (fun _ => false) keyLibraries zeroPoint (proofJwk (exportKey zeroPoint)) := by
  refine ⟨readsKeys_keyLibraries, ?_⟩
  rintro ⟨pub, hpub, -⟩
  obtain ⟨members, hjwk, hdenotes, -⟩ := denotes_proofJwk zeroPoint
  rw [hjwk] at hpub
  obtain ⟨hparse, -, hx, -, -⟩ := parsePublicKey_ok.mp hpub
  rw [readsKeys_keyLibraries.reads zeroPoint members pub hdenotes hparse] at hx
  exact absurd hx (by decide)

end Chinwag.Dpop
