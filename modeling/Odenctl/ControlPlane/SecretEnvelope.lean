import Mathlib.Data.List.TakeWhile
import Odenctl.ControlPlane.Contracts
import Odenctl.Framework.OrdMap
import Odenctl.Runtime.WireBody

/-! # Envelopes of secrets

    The values of secrets are sealed with AES-256-GCM
    (`control-plane/secret-encryption.ts`).  What is stored of a value is one
    text, an envelope: a name, the id of the key, the IV, the tag and the
    ciphertext, with colons between them.  A key ring seals with its primary
    key and opens with all of its keys. -/

namespace Odenctl.ControlPlane.SecretStorage

open JsText JsString Base64

open Runtime.WireBody (utf8 fromUtf8? fromUtf8?_utf8 utf8_eq_flatMap)

abbrev Bytes := List UInt8

/-- `aes-256-gcm`: a key, an IV and bytes give a ciphertext and a tag. -/
structure Aead where
  encipher : Bytes → Bytes → Bytes → Bytes × Bytes
  /-- The bytes that were enciphered, unless the tag is refused. -/
  decipher : Bytes → Bytes → Bytes × Bytes → Option Bytes
  correct : ∀ key iv bytes, decipher key iv (encipher key iv bytes) = some bytes
  length_ciphertext : ∀ key iv bytes, (encipher key iv bytes).1.length = bytes.length
  length_tag : ∀ key iv bytes, (encipher key iv bytes).2.length = 16

/-! ### Bytes and strings -/

def isSpaceUnit (u : UInt16) : Bool := JsText.isSpace (Char.ofNat u.toNat)

def trim (us : JsString) : JsString :=
  ((us.dropWhile isSpaceUnit).reverse.dropWhile isSpaceUnit).reverse

/-- A decoder between two bytes: how many it still needs, the range of the next
    one and the code point so far. -/
structure Utf8State where
  needed : Nat
  lower : Nat
  upper : Nat
  codePoint : Nat

def Utf8State.start (b : Nat) : List Char × Utf8State :=
  if b < 0x80 then ([Char.ofNat b], ⟨0, 0x80, 0xbf, 0⟩)
  else if 0xc2 ≤ b ∧ b ≤ 0xdf then ([], ⟨1, 0x80, 0xbf, b - 0xc0⟩)
  else if 0xe0 ≤ b ∧ b ≤ 0xef then
    ([], ⟨2, if b = 0xe0 then 0xa0 else 0x80, if b = 0xed then 0x9f else 0xbf, b - 0xe0⟩)
  else if 0xf0 ≤ b ∧ b ≤ 0xf4 then
    ([], ⟨3, if b = 0xf0 then 0x90 else 0x80, if b = 0xf4 then 0x8f else 0xbf, b - 0xf0⟩)
  else ([Char.ofNat 0xfffd], ⟨0, 0x80, 0xbf, 0⟩)

/-- A byte after others; one that does not fit starts anew. -/
def Utf8State.next (d : Utf8State) (b : Nat) : List Char × Utf8State :=
  if d.needed = 0 then start b
  else if d.lower ≤ b ∧ b ≤ d.upper then
    let codePoint := d.codePoint * 64 + (b - 0x80)
    if d.needed = 1 then ([Char.ofNat codePoint], ⟨0, 0x80, 0xbf, 0⟩)
    else ([], ⟨d.needed - 1, 0x80, 0xbf, codePoint⟩)
  else (Char.ofNat 0xfffd :: (start b).1, (start b).2)

def Utf8State.decode (d : Utf8State) : Bytes → List Char
  | [] => if d.needed = 0 then [] else [Char.ofNat 0xfffd]
  | b :: rest => (d.next b.toNat).1 ++ (d.next b.toNat).2.decode rest

/-- `buffer.toString("utf8")`: what is not UTF-8 becomes replacement characters. -/
def bytesToText (bytes : Bytes) : String :=
  match fromUtf8? bytes with
  | some text => text
  | none => String.ofList (Utf8State.decode ⟨0, 0x80, 0xbf, 0⟩ bytes)

/-- `Buffer.from(text, "utf8")`. -/
abbrev textToBytes (text : JsString) : Bytes := Runtime.WireBody.Ts.fromText text

def urlChar (c : Char) : Char := if c = '+' then '-' else if c = '/' then '_' else c

def base64url (bytes : Bytes) : String :=
  String.ofList (((Base64.encode bytes).filter (· ≠ '=')).map urlChar)

def fromBase64url (value name : String) : Except ControlPlaneError Bytes :=
  let decoded := Runtime.WireBody.Ts.fromBase64 (JsString.ofString value)
  if decoded = [] then .error (validationError s!"{name} is malformed") else .ok decoded

def encodePart (value : JsString) : String := base64url (textToBytes value)

def decodePart (value name : String) : Except ControlPlaneError JsString := do
  let decoded := JsString.ofString (bytesToText (← fromBase64url value name))
  if trim decoded = [] then .error (validationError s!"{name} is empty") else .ok decoded

/-! ### Key rings -/

structure SecretDataKey where
  keyId : JsString
  key : Bytes
  deriving DecidableEq

/-- A key that `normalizeDataKey` has accepted. -/
structure DataKey extends SecretDataKey where
  named : trim keyId ≠ []
  size : key.length = 32
  deriving DecidableEq

structure KeyringSecretCipherOptions where
  primaryKey : SecretDataKey
  decryptKeys : List SecretDataKey

theorem mem_dropWhile {α : Type} {p : α → Bool} {x : α} {xs : List α} (hx : x ∈ xs)
    (hp : p x = false) : x ∈ xs.dropWhile p := by
  induction xs with
  | nil => cases hx
  | cons y xs ih =>
    by_cases hy : p y = true
    · rw [List.dropWhile_cons_of_pos hy]
      rcases List.mem_cons.mp hx with rfl | hrest
      · rw [hp] at hy
        cases hy
      · exact ih hrest
    · rw [List.dropWhile_cons_of_neg hy]
      exact hx

theorem mem_trim {us : JsString} {u : UInt16} (hu : u ∈ us) (hspace : isSpaceUnit u = false) :
    u ∈ trim us := by
  have hfront := mem_dropWhile hu hspace
  exact List.mem_reverse.mpr (mem_dropWhile (List.mem_reverse.mpr hfront) hspace)

theorem trim_trim {us : JsString} (h : trim us ≠ []) : trim (trim us) ≠ [] := by
  have hsome : ∃ u ∈ us, isSpaceUnit u = false := by
    by_contra hnone
    have hall : ∀ u ∈ us, isSpaceUnit u = true := by simpa using hnone
    apply h
    unfold trim
    rw [List.dropWhile_eq_nil_iff.mpr hall]
    rfl
  obtain ⟨u, hu, hspace⟩ := hsome
  exact List.ne_nil_of_mem (mem_trim (mem_trim hu hspace) hspace)

def normalizeDataKey (key : SecretDataKey) (name : String) : Except ControlPlaneError DataKey :=
  if hid : trim key.keyId = [] then .error (validationError s!"{name} id is required")
  else if hsize : key.key.length = 32 then .ok ⟨⟨trim key.keyId, key.key⟩, trim_trim hid, hsize⟩
  else .error (validationError s!"{name} must be 32 bytes")

/-- `addDataKey` returns the map with the key. -/
def addDataKey (keys : OrdMap JsString Bytes) (key : DataKey) (name : String) :
    Except ControlPlaneError (OrdMap JsString Bytes) :=
  match keys.get? key.keyId with
  | some existing =>
    if existing ≠ key.key then
      .error (validationError
        s!"{name} id {JsString.toWellFormed key.keyId} is configured more than once")
    else .ok (keys.set key.keyId key.key)
  | none => .ok (keys.set key.keyId key.key)

def addDecryptKeys (keys : OrdMap JsString Bytes) :
    List SecretDataKey → Except ControlPlaneError (OrdMap JsString Bytes)
  | [] => .ok keys
  | key :: rest => do
    let key ← normalizeDataKey key "decrypt secret key"
    let keys ← addDataKey keys key "decrypt secret key"
    addDecryptKeys keys rest

variable {keys keys' : OrdMap JsString Bytes} {name text id : String}

/-- A key that is there stays when another one is added. -/
theorem addDataKey_keeps {key : DataKey} (h : addDataKey keys key name = .ok keys') :
    keys'.get? key.keyId = some key.key ∧
      ∀ id bytes, keys.get? id = some bytes → keys'.get? id = some bytes := by
  unfold addDataKey at h
  -- a key of that id is new, or must be the same key
  cases hfound : keys.get? key.keyId with
  | none =>
    rw [hfound] at h
    cases h
    refine ⟨by rw [OrdMap.get?_set, if_pos rfl], fun id bytes hid => ?_⟩
    have hother : id ≠ key.keyId := by
      rintro rfl
      rw [hfound] at hid
      cases hid
    rw [OrdMap.get?_set, if_neg hother]
    exact hid
  | some existing =>
    rw [hfound] at h
    by_cases hsame : existing ≠ key.key
    · simp only [if_pos hsame] at h
      cases h
    · simp only [if_neg hsame] at h
      cases h
      rw [not_not] at hsame
      rw [OrdMap.set_of_some (by rw [hfound, hsame])]
      exact ⟨by rw [hfound, hsame], fun _ _ hid => hid⟩

theorem addDecryptKeys_keeps {added : List SecretDataKey}
    (h : addDecryptKeys keys added = .ok keys') {id : JsString} {bytes : Bytes}
    (hid : keys.get? id = some bytes) : keys'.get? id = some bytes := by
  induction added generalizing keys with
  | nil =>
    cases h
    exact hid
  | cons key rest ih =>
    obtain ⟨normalized, -, h⟩ := Except.bind_eq_ok.mp h
    obtain ⟨keys₁, hadded, h⟩ := Except.bind_eq_ok.mp h
    exact ih h ((addDataKey_keeps hadded).2 id bytes hid)

/-- What `createKeyringSecretCipher` closes over. -/
structure Keyring where
  primaryKey : DataKey
  keys : OrdMap JsString Bytes
  primary : keys.get? primaryKey.keyId = some primaryKey.key

theorem primary_added {key : DataKey} {added : List SecretDataKey}
    (h : addDataKey .empty key name = .ok keys) (h' : addDecryptKeys keys added = .ok keys')
    : keys'.get? key.keyId = some key.key :=
  addDecryptKeys_keeps h' (addDataKey_keeps h).1

def createKeyringSecretCipher (options : KeyringSecretCipherOptions) :
    Except ControlPlaneError Keyring :=
  match normalizeDataKey options.primaryKey "primary secret key" with
  | .error e => .error e
  | .ok primaryKey =>
    match hadded : addDataKey .empty primaryKey "primary secret key" with
    | .error e => .error e
    | .ok keys =>
      match hall : addDecryptKeys keys options.decryptKeys with
      | .error e => .error e
      | .ok keys => .ok ⟨primaryKey, keys, primary_added hadded hall⟩

/-! ### Envelopes -/

def ivBytes : Nat := 12

/-- `envelopePrefix.slice(0, -1)`. -/
def envelopeName : String := "wasmplane:v1:aes-256-gcm"

def envelopePrefix : String := envelopeName ++ ":"

def isEncryptedSecretValue (value : String) : Bool := JsText.startsWith value envelopePrefix

structure SecretEnvelope where
  keyId : JsString
  iv : Bytes
  tag : Bytes
  ciphertext : Bytes

def envelope (keyId : JsString) (iv : Bytes) (output : Bytes × Bytes) : String :=
  JsText.join ":" [envelopeName, encodePart keyId, base64url iv, base64url output.2,
    base64url output.1]

def parseSecretEnvelope (value : String) : Except ControlPlaneError SecretEnvelope :=
  if isEncryptedSecretValue value then
    match JsText.split ':' value with
    | [_, _, _, keyId, iv, tag, ciphertext] => do
      let keyId ← decodePart keyId "secret envelope key id"
      let iv ← fromBase64url iv "secret envelope iv"
      let tag ← fromBase64url tag "secret envelope auth tag"
      let ciphertext ← fromBase64url ciphertext "secret envelope ciphertext"
      return ⟨keyId, iv, tag, ciphertext⟩
    | _ => .error (validationError "secret envelope is malformed")
  else .error (validationError "secret value is not an encrypted odenctl envelope")

section cipher
variable (aead : Aead) (ring : Keyring)

def encrypt (iv : Bytes) (plaintext : JsString) : Except ControlPlaneError String :=
  if iv.length = ivBytes then
    .ok (envelope ring.primaryKey.keyId iv
      (aead.encipher ring.primaryKey.key iv (textToBytes plaintext)))
  else .error (validationError "secret cipher IV generator returned invalid size")

def decrypt (ciphertext : String) : Except ControlPlaneError JsString := do
  let sealed ← parseSecretEnvelope ciphertext
  match ring.keys.get? sealed.keyId with
  | none => .error (validationError
      s!"secret envelope key id {JsString.toWellFormed sealed.keyId} is not configured")
  | some key =>
    match aead.decipher key sealed.iv (sealed.ciphertext, sealed.tag) with
    | some bytes => .ok (JsString.ofString (bytesToText bytes))
    | none => .error (validationError "secret envelope could not be decrypted")

end cipher

/-! ### What is sealed is opened -/

/-- A character of base64 in the alphabet for URLs: one code unit that is no
    colon and has the same six bits; padding is left out. -/
theorem urlChar_spec (cs : List Char) (hcs : ∀ c ∈ cs, c ∈ alphabet ∨ c = '=') :
    (((cs.filter (· ≠ '=')).map urlChar).flatMap encodeChar).filterMap
        Runtime.WireBody.Ts.nodeValue? = cs.filterMap value? ∧
      ':' ∉ (cs.filter (· ≠ '=')).map urlChar := by
  have hall : (('=' :: alphabet).all fun c => decide
      (((([c].filter (· ≠ '=')).map urlChar).flatMap encodeChar).filterMap
        Runtime.WireBody.Ts.nodeValue? = [c].filterMap value? ∧
      ':' ∉ ([c].filter (· ≠ '=')).map urlChar)) = true := by
    decide +kernel
  rw [List.all_eq_true] at hall
  induction cs with
  | nil => exact ⟨rfl, List.not_mem_nil⟩
  | cons c cs ih =>
    obtain ⟨hsame, hcolon⟩ := of_decide_eq_true
      (hall c (List.mem_cons.mpr (hcs c List.mem_cons_self).symm))
    obtain ⟨hrest, hnone⟩ := ih fun d hd => hcs d (List.mem_cons_of_mem _ hd)
    have hfilter : (c :: cs).filter (· ≠ '=') = [c].filter (· ≠ '=') ++ cs.filter (· ≠ '=') := by
      rw [← List.filter_append]
      rfl
    rw [hfilter, List.map_append, List.flatMap_append, List.filterMap_append, hsame, hrest,
      ← List.filterMap_append, List.mem_append, not_or]
    exact ⟨rfl, hcolon, hnone⟩

theorem fromBase64url_base64url {bytes : Bytes} (hbytes : bytes ≠ []) (name : String) :
    fromBase64url (base64url bytes) name = .ok bytes := by
  have hdecoded : Runtime.WireBody.Ts.fromBase64 (ofString (base64url bytes)) = bytes := by
    unfold Runtime.WireBody.Ts.fromBase64 base64url ofString
    rw [String.toList_ofList, (urlChar_spec _ (mem_encode bytes)).1,
      decodeGroups_encode]
  unfold fromBase64url
  dsimp only
  rw [hdecoded, if_neg hbytes]

theorem colon_base64url (bytes : Bytes) : ':' ∉ (base64url bytes).toList := by
  unfold base64url
  rw [String.toList_ofList]
  exact (urlChar_spec _ (mem_encode bytes)).2

theorem bytesToText_textToBytes (text : String) :
    bytesToText (textToBytes (ofString text)) = text := by
  unfold bytesToText textToBytes Runtime.WireBody.Ts.fromText
  rw [toWellFormed_ofString, fromUtf8?_utf8]

theorem textToBytes_ne_nil (h : ofString text ≠ []) :
    textToBytes (ofString text) ≠ [] := by
  intro hnil
  have hback := bytesToText_textToBytes text
  rw [hnil] at hback
  have hempty : text = "" := hback.symm
  exact h (by rw [hempty]; rfl)

theorem decodePart_encodePart (hnamed : trim (ofString id) ≠ []) (name : String) :
    decodePart (encodePart (ofString id)) name = .ok (ofString id) := by
  have hunits : ofString id ≠ [] := by
    intro hnil
    rw [hnil] at hnamed
    exact hnamed rfl
  unfold decodePart encodePart
  rw [fromBase64url_base64url (textToBytes_ne_nil hunits)]
  dsimp only [bind, Except.bind]
  rw [bytesToText_textToBytes, if_neg hnamed]

/-- Joined texts without the separator are split into the same texts. -/
theorem split_join {sep : Char} {xs : List String} (hxs : xs ≠ [])
    (hsep : ∀ x ∈ xs, sep ∉ x.toList) :
    split sep (join (String.singleton sep) xs) = xs := by
  unfold split join
  rw [String.toList_ofList, String.toList_singleton, List.splitOn_intercalate, List.map_map]
  · simp [Function.comp_def]
  · intro l hl
    obtain ⟨x, hx, rfl⟩ := List.mem_map.mp hl
    exact hsep x hx
  · simpa using hxs

theorem split_envelope (keyId : JsString) (iv : Bytes) (output : Bytes × Bytes) :
    split ':' (envelope keyId iv output) = ["wasmplane", "v1", "aes-256-gcm",
      encodePart keyId, base64url iv, base64url output.2, base64url output.1] := by
  -- the name has two colons of its own
  have hparts : envelope keyId iv output = join (String.singleton ':')
      ["wasmplane", "v1", "aes-256-gcm", encodePart keyId, base64url iv, base64url output.2,
        base64url output.1] := rfl
  rw [hparts]
  refine split_join (by simp) fun x hx => ?_
  simp only [List.mem_cons, List.not_mem_nil, or_false] at hx
  rcases hx with rfl | rfl | rfl | rfl | rfl | rfl | rfl
  · decide
  · decide
  · decide
  all_goals exact colon_base64url _

theorem isEncryptedSecretValue_envelope (keyId : JsString) (iv : Bytes) (output : Bytes × Bytes) :
    isEncryptedSecretValue (envelope keyId iv output) = true := by
  unfold isEncryptedSecretValue startsWith envelope join envelopePrefix
  rw [String.toList_ofList, List.map_cons, List.map_cons, List.intercalate_cons_cons,
    String.toList_append, List.isPrefixOf_iff_prefix]
  exact List.prefix_append _ _

theorem parseSecretEnvelope_envelope {iv : Bytes} {output : Bytes × Bytes}
    (hnamed : trim (ofString id) ≠ []) (hiv : iv ≠ []) (htag : output.2 ≠ [])
    (hciphertext : output.1 ≠ []) :
    parseSecretEnvelope (envelope (ofString id) iv output) =
      .ok ⟨ofString id, iv, output.2, output.1⟩ := by
  unfold parseSecretEnvelope
  rw [if_pos (isEncryptedSecretValue_envelope ..), split_envelope]
  dsimp only
  rw [decodePart_encodePart hnamed, fromBase64url_base64url hiv, fromBase64url_base64url htag,
    fromBase64url_base64url hciphertext]
  rfl

theorem decrypt_envelope {aead : Aead} {ring : Keyring} {key : DataKey} {iv : Bytes}
    (hid : key.keyId = ofString id) (hkey : ring.keys.get? key.keyId = some key.key)
    (hiv : iv.length = ivBytes) (htext : ofString text ≠ []) :
    decrypt aead ring (envelope key.keyId iv
      (aead.encipher key.key iv (textToBytes (ofString text)))) =
      .ok (ofString text) := by
  have hiv' : iv ≠ [] := List.ne_nil_of_length_pos (by rw [hiv]; decide)
  have htag : (aead.encipher key.key iv (textToBytes (ofString text))).2 ≠ [] :=
    List.ne_nil_of_length_pos (by rw [aead.length_tag]; decide)
  have hciphertext : (aead.encipher key.key iv (textToBytes (ofString text))).1 ≠ [] := by
    apply List.ne_nil_of_length_pos
    rw [aead.length_ciphertext]
    exact List.length_pos_iff.mpr (textToBytes_ne_nil htext)
  have hnamed : trim (ofString id) ≠ [] := hid ▸ key.named
  unfold decrypt
  rw [hid, parseSecretEnvelope_envelope hnamed hiv' htag hciphertext]
  show (match ring.keys.get? (ofString id) with | none => _ | some key => _) = _
  rw [← hid, hkey]
  dsimp only
  rw [aead.correct]
  dsimp only
  rw [bytesToText_textToBytes]

end Odenctl.ControlPlane.SecretStorage
