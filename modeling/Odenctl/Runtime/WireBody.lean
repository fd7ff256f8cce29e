import Odenctl.Framework.Base64
import Odenctl.Framework.Utf16

/-! # Wire bodies

    A body travels in a JSON object, as text under `body` or as base64 under
    `bodyBase64`, between a codec in TypeScript (`runtime/wire-body.ts`) and
    one in Rust (`wire_body.rs`).  The strings of the former are code units,
    those of the latter are texts. -/

namespace Odenctl.Runtime.WireBody

open JsString Base64

/-! ### JSON values -/

/-- A JSON value whose strings are of type `σ`. -/
inductive Value (σ : Type) where
  | null
  | bool (b : Bool)
  | num (q : Rat)
  | str (s : σ)
  | arr (items : List (Value σ))
  | obj (fields : List (σ × Value σ))

abbrev Fields (σ : Type) := List (σ × Value σ)

/-- The field with a name; of several ones the last counts. -/
def get? {σ : Type} [DecidableEq σ] (name : σ) : Fields σ → Option (Value σ)
  | [] => none
  | (key, value) :: rest => get? name rest <|> if key = name then some value else none

namespace Value

mutual

def read : Value JsString → Option (Value String)
  | .null => some .null
  | .bool b => some (.bool b)
  | .num q => some (.num q)
  | .str s => (JsString.text? s).map .str
  | .arr items => (readItems items).map .arr
  | .obj fields => (readFields fields).map .obj

def readItems : List (Value JsString) → Option (List (Value String))
  | [] => some []
  | item :: rest =>
    match read item, readItems rest with
    | some item, some rest => some (item :: rest)
    | _, _ => none

def readFields : Fields JsString → Option (Fields String)
  | [] => some []
  | (key, value) :: rest =>
    match JsString.text? key, read value, readFields rest with
    | some key, some value, some rest => some ((key, value) :: rest)
    | _, _, _ => none

end

end Value

/-! ### Bytes of texts -/

def utf8 (s : String) : List UInt8 := s.toByteArray.data.toList

/-- The text whose bytes these are, if there is one. -/
def fromUtf8? (bytes : List UInt8) : Option String := String.fromUTF8? ⟨bytes.toArray⟩

theorem fromUtf8?_eq_some {bytes : List UInt8} {s : String} :
    fromUtf8? bytes = some s ↔ utf8 s = bytes := by
  unfold fromUtf8? String.fromUTF8? utf8
  split
  · next hvalid =>
    rw [Option.some.injEq]
    constructor
    · rintro rfl
      rfl
    · rintro rfl
      apply String.toByteArray_inj.mp
      rfl
  · next hinvalid =>
    refine iff_of_false (by simp) ?_
    rintro rfl
    exact hinvalid s.isValidUTF8

@[simp] theorem fromUtf8?_utf8 (s : String) : fromUtf8? (utf8 s) = some s :=
  fromUtf8?_eq_some.mpr rfl

theorem ofNat_ne_zero {n : Nat} (h : 0 < n) (h' : n < 256) : (0 : UInt8) ≠ UInt8.ofNat n := by
  intro hzero
  have hnat := congrArg UInt8.toNat hzero
  rw [UInt8.toNat_ofNat', UInt8.toNat_zero] at hnat
  omega

theorem zero_mem_utf8EncodeChar {c : Char} :
    (0 : UInt8) ∈ String.utf8EncodeChar c ↔ c = '\x00' := by
  constructor
  · intro h
    have hval : c.val.toNat = c.toNat := rfl
    unfold String.utf8EncodeChar at h
    dsimp only at h
    by_cases hone : c.val.toNat ≤ 0x7f
    · rw [if_pos hone, List.mem_singleton] at h
      have hnat := congrArg UInt8.toNat h
      rw [UInt8.toNat_ofNat', UInt8.toNat_zero] at hnat
      apply ext_toNat
      show c.toNat = 0
      omega
    -- the bytes of longer encodings have their highest bit set
    · exfalso
      rw [if_neg hone] at h
      split at h
      · simp only [List.mem_cons, List.not_mem_nil, or_false] at h
        rcases h with h | h <;> exact ofNat_ne_zero (by omega) (by omega) h
      · split at h
        · simp only [List.mem_cons, List.not_mem_nil, or_false] at h
          rcases h with h | h | h <;> exact ofNat_ne_zero (by omega) (by omega) h
        · simp only [List.mem_cons, List.not_mem_nil, or_false] at h
          rcases h with h | h | h | h <;> exact ofNat_ne_zero (by omega) (by omega) h
  · rintro rfl
    decide

theorem utf8_eq_flatMap (s : String) : utf8 s = s.toList.flatMap String.utf8EncodeChar := by
  rw [utf8, ← String.utf8Encode_toList, List.utf8Encode, List.toList_data_toByteArray]

theorem zero_mem_utf8 {s : String} : (0 : UInt8) ∈ utf8 s ↔ '\x00' ∈ s.toList := by
  rw [utf8_eq_flatMap, List.mem_flatMap]
  constructor
  · rintro ⟨c, hc, hzero⟩
    exact zero_mem_utf8EncodeChar.mp hzero ▸ hc
  · exact fun hc => ⟨_, hc, zero_mem_utf8EncodeChar.mpr rfl⟩

/-! ### The codec in TypeScript -/

namespace Ts

/-- `buffer.toString("base64")`. -/
def toBase64 (bytes : List UInt8) : JsString :=
  JsString.ofString (String.ofList (Base64.encode bytes))

/-- The six bits of a code unit, also in the alphabet for URLs. -/
def nodeValue? (u : UInt16) : Option (Fin 64) :=
  if u = 0x2D then some 62
  else if u = 0x5F then some 63
  else if u < 0x80 then Base64.value? (Char.ofNat u.toNat)
  else none

/-- `Buffer.from(text, "base64")`: other code units are skipped. -/
def fromBase64 (text : JsString) : List UInt8 := Base64.decodeGroups (text.filterMap nodeValue?)

def fromText (text : JsString) : List UInt8 := utf8 (JsString.toWellFormed text)

def encodeWireBody (bytes : List UInt8) : Fields JsString :=
  match fromUtf8? bytes with
  | some text =>
    if 0 ∈ bytes then [(JsString.ofString "bodyBase64", .str (toBase64 bytes))]
    else [(JsString.ofString "body", .str (JsString.ofString text))]
  | none => [(JsString.ofString "bodyBase64", .str (toBase64 bytes))]

/-- The bytes, or the message of a `RuntimeError` with code `invoke`. -/
def decodeWireBody (record : Fields JsString) : Except String (List UInt8) :=
  match get? (JsString.ofString "body") record, get? (JsString.ofString "bodyBase64") record with
  | some _, some _ => .error "body and bodyBase64 are mutually exclusive"
  | none, some (.str text) =>
    let bytes := fromBase64 text
    if toBase64 bytes ≠ text then .error "bodyBase64 must be canonical padded base64" else .ok bytes
  | none, some _ => .error "bodyBase64 must be a string"
  | some (.str text), none => .ok (fromText text)
  | some _, none => .error "body must be a string"
  | none, none => .ok (fromText [])

end Ts

/-! ### The codec in Rust -/

namespace Rs

/-- `STANDARD.decode`, with the context of its error. -/
def decodeBase64 (value : String) : Except String (List UInt8) :=
  match Base64.decode value.toList with
  | some bytes => .ok bytes
  | none => .error "bodyBase64 must be canonical padded base64"

def decode (object : Fields String) : Except String (List UInt8) :=
  match get? "body" object, get? "bodyBase64" object with
  | some _, some _ => .error "body and bodyBase64 are mutually exclusive"
  | some (.str value), none => .ok (utf8 value)
  | some _, none => .error "body must be a string"
  | none, some (.str value) => decodeBase64 value
  | none, some _ => .error "bodyBase64 must be a string"
  | none, none => .ok []

def encode (body : List UInt8) : String × String :=
  match fromUtf8? body with
  | some text =>
    if '\x00' ∉ text.toList then ("body", text)
    else ("bodyBase64", String.ofList (Base64.encode body))
  | none => ("bodyBase64", String.ofList (Base64.encode body))

def object (encoded : String × String) : Fields String := [(encoded.1, .str encoded.2)]

end Rs

/-! ### Reading and writing -/

/-- The object that Rust writes of a body, as TypeScript reads it. -/
def written (encoded : String × String) : Fields JsString :=
  [(JsString.ofString encoded.1, .str (JsString.ofString encoded.2))]

theorem readFields_written (encoded : String × String) :
    Value.readFields (written encoded) = some (Rs.object encoded) := by
  simp [written, Rs.object, Value.readFields, Value.read]

variable {fields : Fields JsString}

theorem get?_readFields {object : Fields String} (h : Value.readFields fields = some object)
    (name : String) :
    (get? (ofString name) fields).map Value.read = (get? name object).map some := by
  -- field by field, as the names of both objects are the same
  induction fields generalizing object with
  | nil =>
    rw [Value.readFields] at h
    cases h
    rfl
  | cons field rest ih =>
    obtain ⟨key, value⟩ := field
    rw [Value.readFields] at h
    split at h
    · next key' value' rest' hkey hvalue hrest =>
      cases h
      have hname : key = ofString name ↔ key' = name := by
        rw [text?_eq_some.mp hkey]
        exact ofString_injective.eq_iff
      have hrest' := ih hrest
      rw [get?, get?]
      cases hfound : get? (ofString name) rest with
      | some found =>
        rw [hfound] at hrest'
        cases hother : get? name rest' with
        | none =>
          rw [hother] at hrest'
          cases hrest'
        | some other =>
          rw [hother] at hrest'
          exact hrest'
      | none =>
        rw [hfound] at hrest'
        cases hother : get? name rest' with
        | some other =>
          rw [hother] at hrest'
          cases hrest'
        | none =>
          by_cases hsame : key' = name
          · simp [hname.mpr hsame, hsame, hvalue]
          · simp [mt hname.mp hsame, hsame]
    · cases h

/-- TypeScript and Rust choose the same representation. -/
theorem encodeWireBody_eq (bytes : List UInt8) :
    Ts.encodeWireBody bytes = written (Rs.encode bytes) := by
  unfold Ts.encodeWireBody Rs.encode
  cases htext : fromUtf8? bytes with
  | none => rfl
  | some text =>
    have hzero : (0 : UInt8) ∈ bytes ↔ '\x00' ∈ text.toList := by
      rw [← fromUtf8?_eq_some.mp htext]
      exact zero_mem_utf8
    dsimp only
    by_cases hnul : '\x00' ∈ text.toList
    · rw [if_pos (hzero.mpr hnul), if_neg (not_not.mpr hnul)]
      rfl
    · rw [if_neg (mt hzero.mp hnul), if_pos hnul]
      rfl

/-! ### Base64 in both languages -/

theorem nodeValue?_ofString (cs : List Char) (hcs : ∀ c ∈ cs, c ∈ alphabet ∨ c = '=') :
    (cs.flatMap encodeChar).filterMap Ts.nodeValue? = cs.filterMap value? := by
  have hall : (('=' :: alphabet).all fun c => decide
      ((encodeChar c).filterMap Ts.nodeValue? = [c].filterMap value?)) = true := by
    decide +kernel
  rw [List.all_eq_true] at hall
  induction cs with
  | nil => rfl
  | cons c cs ih =>
    have hsame := of_decide_eq_true
      (hall c (List.mem_cons.mpr (hcs c List.mem_cons_self).symm))
    rw [List.flatMap_cons, List.filterMap_append, ih fun d hd => hcs d (List.mem_cons_of_mem _ hd),
      hsame, ← List.filterMap_append]
    rfl

theorem fromBase64_toBase64 (bytes : List UInt8) : Ts.fromBase64 (Ts.toBase64 bytes) = bytes := by
  unfold Ts.fromBase64 Ts.toBase64 ofString
  rw [String.toList_ofList, nodeValue?_ofString _ (mem_encode bytes),
    decodeGroups_encode]

/-- The check of TypeScript accepts what the decoder of Rust accepts. -/
theorem toBase64_fromBase64_iff {value : String} {bytes : List UInt8} :
    (Ts.toBase64 (Ts.fromBase64 (ofString value)) = ofString value ∧
      Ts.fromBase64 (ofString value) = bytes) ↔
      decode value.toList = some bytes := by
  rw [decode_eq_some]
  constructor
  · rintro ⟨hcanonical, rfl⟩
    have hvalue := ofString_injective hcanonical
    rw [← hvalue, String.toList_ofList, hvalue]
  · intro hencode
    have hvalue : ofString value = Ts.toBase64 bytes := by
      rw [Ts.toBase64, hencode, String.ofList_toList]
    rw [hvalue, fromBase64_toBase64]
    exact ⟨rfl, rfl⟩

/-! ### Agreement -/

theorem Value.read_str {value : Value JsString} {read : Value String}
    (h : Value.read value = some read) :
    (∃ s, value = .str (ofString s) ∧ read = .str s) ∨
      (∀ u, value ≠ .str u) ∧ ∀ s, read ≠ .str s := by
  cases value with
  | str u =>
    rw [Value.read, Option.map_eq_some_iff] at h
    obtain ⟨s, hs, rfl⟩ := h
    exact .inl ⟨s, by rw [text?_eq_some.mp hs], rfl⟩
  | null | bool | num =>
    cases h
    exact .inr ⟨by simp, by simp⟩
  | arr | obj =>
    rw [Value.read, Option.map_eq_some_iff] at h
    obtain ⟨read, -, rfl⟩ := h
    exact .inr ⟨by simp, by simp⟩

/-- A field that TypeScript finds is one that Rust finds, and both find a
    string or none does. -/
theorem get?_read {object : Fields String} (h : Value.readFields fields = some object)
    (name : String) :
    get? (ofString name) fields = none ∧ get? name object = none ∨
      (∃ s, get? (ofString name) fields = some (.str (ofString s)) ∧
        get? name object = some (.str s)) ∨
      ∃ value read, get? (ofString name) fields = some value ∧
        get? name object = some read ∧ (∀ u, value ≠ .str u) ∧ ∀ s, read ≠ .str s := by
  have hread := get?_readFields h name
  cases hvalue : get? (ofString name) fields with
  | none =>
    rw [hvalue] at hread
    cases hobject : get? name object with
    | none => exact .inl ⟨rfl, rfl⟩
    | some read =>
      rw [hobject] at hread
      cases hread
  | some value =>
    rw [hvalue] at hread
    cases hobject : get? name object with
    | none =>
      rw [hobject] at hread
      cases hread
    | some read =>
      rw [hobject, Option.map_some, Option.map_some, Option.some.injEq] at hread
      rcases Value.read_str hread with ⟨s, rfl, rfl⟩ | hneither
      · exact .inr (.inl ⟨s, rfl, rfl⟩)
      · exact .inr (.inr ⟨value, read, rfl, rfl, hneither⟩)

theorem get?_isSome {object : Fields String} (h : Value.readFields fields = some object)
    {name : String} {read : Value String} (hread : get? name object = some read) :
    ∃ value, get? (ofString name) fields = some value := by
  have hfields := get?_readFields h name
  rw [hread, Option.map_some, Option.map_eq_some_iff] at hfields
  obtain ⟨value, hvalue, -⟩ := hfields
  exact ⟨value, hvalue⟩

theorem get?_eq_none {object : Fields String} (h : Value.readFields fields = some object)
    {name : String} (hnone : get? name object = none) :
    get? (ofString name) fields = none := by
  have hfields := get?_readFields h name
  rw [hnone, Option.map_none, Option.map_eq_none_iff] at hfields
  exact hfields

theorem fromText_ofString (s : String) : Ts.fromText (ofString s) = utf8 s := by
  rw [Ts.fromText, toWellFormed_ofString]

/-- Both decoders fail, or they return the same bytes. -/
theorem decode_agree {object : Fields String} (h : Value.readFields fields = some object) :
    (Ts.decodeWireBody fields).toOption = (Rs.decode object).toOption := by
  unfold Ts.decodeWireBody Rs.decode
  -- `bodyBase64` is missing, a string or something else; only a string is decoded
  rcases get?_read h "bodyBase64" with
    ⟨hts, hrs⟩ | ⟨s, hts, hrs⟩ | ⟨value, read, hts, hrs, hvalue, hread⟩
  · rw [hts, hrs]
    rcases get?_read h "body" with
      ⟨hts', hrs'⟩ | ⟨s', hts', hrs'⟩ | ⟨value', read', hts', hrs', hvalue', hread'⟩
    · rw [hts', hrs']
      rfl
    · rw [hts', hrs']
      exact congrArg some (fromText_ofString s')
    · rw [hts', hrs']
      cases value' with
      | str u => exact absurd rfl (hvalue' u)
      | null | bool | num | arr | obj =>
        cases read' with
        | str s => exact absurd rfl (hread' s)
        | null | bool | num | arr | obj => rfl
  · rw [hts, hrs]
    cases hbody : get? "body" object with
    | some _ =>
      obtain ⟨value', hvalue'⟩ := get?_isSome h hbody
      rw [hvalue']
    | none =>
      rw [get?_eq_none h hbody]
      dsimp only [Rs.decodeBase64]
      cases hdecode : decode s.toList with
      | some bytes =>
        obtain ⟨hcanonical, hbytes⟩ := toBase64_fromBase64_iff.mpr hdecode
        rw [if_neg (not_not.mpr hcanonical), hbytes]
      | none =>
        have hother : Ts.toBase64 (Ts.fromBase64 (ofString s)) ≠ ofString s := by
          intro hcanonical
          rw [toBase64_fromBase64_iff.mp ⟨hcanonical, rfl⟩] at hdecode
          cases hdecode
        rw [if_pos hother]
  · rw [hts, hrs]
    cases hbody : get? "body" object with
    | some _ =>
      obtain ⟨value', hvalue'⟩ := get?_isSome h hbody
      rw [hvalue']
    | none =>
      rw [get?_eq_none h hbody]
      cases value with
      | str u => exact absurd rfl (hvalue u)
      | null | bool | num | arr | obj =>
        cases read with
        | str s => exact absurd rfl (hread s)
        | null | bool | num | arr | obj => rfl

/-! ### Round trips -/

theorem Rs.decode_encode (bytes : List UInt8) :
    Rs.decode (Rs.object (Rs.encode bytes)) = .ok bytes := by
  unfold Rs.encode
  cases htext : fromUtf8? bytes with
  | none =>
    show Rs.decodeBase64 (String.ofList (Base64.encode bytes)) = _
    rw [Rs.decodeBase64, String.toList_ofList, Base64.decode_eq_some.mpr rfl]
  | some text =>
    dsimp only
    split
    · exact congrArg Except.ok (fromUtf8?_eq_some.mp htext)
    · show Rs.decodeBase64 (String.ofList (Base64.encode bytes)) = _
      rw [Rs.decodeBase64, String.toList_ofList, Base64.decode_eq_some.mpr rfl]

theorem toOption_eq_ok {α : Type} {result : Except String α} {a : α}
    (h : result.toOption = some a) :
    result = .ok a := by
  cases result with
  | error e => cases h
  | ok b => exact congrArg Except.ok (Option.some.inj h)

theorem Ts.decode_written (bytes : List UInt8) :
    Ts.decodeWireBody (written (Rs.encode bytes)) = .ok bytes := by
  apply toOption_eq_ok
  rw [decode_agree (readFields_written _), Rs.decode_encode]
  rfl

/-- Each codec decodes what the two encode, the two agree on every object that
    Rust can read, and what is decoded and encoded again has the same bytes. -/
theorem wireBody :
    (∀ bytes, Ts.decodeWireBody (Ts.encodeWireBody bytes) = .ok bytes ∧
      (Value.readFields (Ts.encodeWireBody bytes)).map Rs.decode = some (.ok bytes) ∧
      Rs.decode (Rs.object (Rs.encode bytes)) = .ok bytes ∧
      Ts.decodeWireBody (written (Rs.encode bytes)) = .ok bytes) ∧
    (∀ fields object, Value.readFields fields = some object →
      (Ts.decodeWireBody fields).toOption = (Rs.decode object).toOption) ∧
    (∀ fields bytes, Ts.decodeWireBody fields = .ok bytes →
      Ts.decodeWireBody (Ts.encodeWireBody bytes) = .ok bytes) ∧
    ∀ object bytes, Rs.decode object = .ok bytes →
      Rs.decode (Rs.object (Rs.encode bytes)) = .ok bytes := by
  have hts : ∀ bytes, Ts.decodeWireBody (Ts.encodeWireBody bytes) = .ok bytes := fun bytes => by
    rw [encodeWireBody_eq, Ts.decode_written]
  refine ⟨fun bytes => ⟨hts bytes, ?_, Rs.decode_encode bytes, Ts.decode_written bytes⟩,
    fun fields object => decode_agree, fun fields bytes _ => hts bytes,
    fun object bytes _ => Rs.decode_encode bytes⟩
  rw [encodeWireBody_eq, readFields_written, Option.map_some, Rs.decode_encode]

/-- The bytes of `{"bodyBase64": "AAE="}` in both languages, and again. -/
theorem wireBody_base64 :
    Value.readFields [(JsString.ofString "bodyBase64", .str (JsString.ofString "AAE="))] =
        some [("bodyBase64", .str "AAE=")] ∧
      (Ts.decodeWireBody
        [(JsString.ofString "bodyBase64", .str (JsString.ofString "AAE="))]).toOption =
        (Rs.decode [("bodyBase64", .str "AAE=")]).toOption ∧
      Rs.decode [("bodyBase64", .str "AAE=")] = .ok [0, 1] ∧
      Ts.decodeWireBody (Ts.encodeWireBody [0, 1]) = .ok [0, 1] ∧
      Rs.decode (Rs.object (Rs.encode [0, 1])) = .ok [0, 1] := by
  have hread : Value.readFields
      [(ofString "bodyBase64", .str (ofString "AAE="))] =
        some [("bodyBase64", .str "AAE=")] :=
    readFields_written ("bodyBase64", "AAE=")
  have hts : Ts.decodeWireBody
      [(ofString "bodyBase64", .str (ofString "AAE="))] = .ok [0, 1] := by
    decide +kernel
  have hrs : Rs.decode [("bodyBase64", .str "AAE=")] = .ok [0, 1] := by
    decide +kernel
  exact ⟨hread, wireBody.2.1 _ _ hread, hrs, wireBody.2.2.1 _ _ hts, wireBody.2.2.2 _ _ hrs⟩

/-- A text of a surrogate alone has bytes in TypeScript, and Rust cannot read
    it. -/
theorem wireBody_surrogate :
    ∃ fields : Fields JsString, Ts.decodeWireBody fields = .ok [0xEF, 0xBF, 0xBD] ∧
      (Value.readFields fields).bind (fun object => (Rs.decode object).toOption) = none :=
  ⟨[(ofString "body", .str [0xD800])], by decide +kernel⟩

end Odenctl.Runtime.WireBody
