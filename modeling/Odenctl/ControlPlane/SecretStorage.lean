import Odenctl.ControlPlane.ResourceScoping
import Odenctl.ControlPlane.SecretEnvelope

/-! # Secrets under changing key rings

    The control plane seals the values of secrets once it has a cipher, and
    stores them as they are before (`control-plane/service.ts`).  The secret
    store of a runtime (`runtime/secrets.ts`) opens what begins like an
    envelope.  The column of the value is text, so that code units without a
    partner are replaced when they are stored, sealed or not. -/

namespace Odenctl.ControlPlane.SecretStorage

open Table Except JsString Resources
open Catalog (enforceProjectQuota)
open Routing (notFound Draws)

/-! ### Operations -/

structure CreateSecretInput where
  id : JsValue
  projectId : String
  name : JsValue
  /-- `none` is a value that is no string. -/
  value : Option JsString

def normalizeSecretValue : Option JsString → Except ControlPlaneError JsString
  | some value =>
    if value = [] then .error (validationError "secret value must be a non-empty string")
    else if value.length > 65536 then
      .error (validationError "secret value must be at most 65536 characters")
    else .ok value
  | none => .error (validationError "secret value must be a non-empty string")

section operations
variable (aead : Aead) (options : ResourceOptions) (cipher : Option Keyring) (iv : Bytes)

def encodeSecretValue (value : JsString) : Except ControlPlaneError JsString :=
  match cipher with
  | some ring => (encrypt aead ring iv value).map JsString.ofString
  | none => .ok value

/-- The secret that an input asks for; the column is text. -/
def normalizedSecret (draws : Draws) (s : ResourceStore) (input : CreateSecretInput) :
    Except ControlPlaneError Secret := do
  let _project ← requireProject s input.projectId
  enforceProjectQuota input.projectId "secret" options.maxSecrets
    (usageCount s input.projectId .secret)
  let id ← optionalId input.id "secret id"
  let name ← normalizeSecretName input.name
  let value ← normalizeSecretValue input.value
  let stored ← encodeSecretValue aead cipher iv value
  return {
    id := id.getD (draws.idGenerator "sec")
    projectId := input.projectId
    name
    value := JsString.toWellFormed stored
    createdAt := draws.now 0
    updatedAt := draws.now 1 }

def createSecret (draws : Draws) (s : ResourceStore) (input : CreateSecretInput) :
    Except ControlPlaneError Secret × ResourceStore :=
  match normalizedSecret aead options cipher iv draws s input with
  | .error e => (.error e, s)
  | .ok secret => s.createSecret secret

def updateSecretValue (s : ResourceStore) (id : String) (value : Option JsString)
    (updatedAt : String) : Except ControlPlaneError Unit × ResourceStore :=
  match s.secrets.find? id with
  | none => (.error (notFound "secret" id), s)
  | some _ =>
    match normalizeSecretValue value >>= encodeSecretValue aead cipher iv with
    | .error e => (.error e, s)
    | .ok stored => s.updateSecretValue id (JsString.toWellFormed stored) updatedAt

/-- `getSecret` of `createRepositorySecretStore`. -/
def getSecret (s : ResourceStore) (secretId : String) :
    Except ControlPlaneError (Option JsString) :=
  match s.secrets.find? secretId, cipher with
  | none, _ => .ok none
  | some secret, some ring =>
    if isEncryptedSecretValue secret.value then (decrypt aead ring secret.value).map some
    else .ok (some (JsString.ofString secret.value))
  | some secret, none => .ok (some (JsString.ofString secret.value))

end operations

/-! ### Runs -/

/-- What was last written for a secret. -/
structure Write where
  value : JsString
  /-- The primary key of the cipher, if there was one. -/
  key : Option DataKey

/-- The store, the cipher of the service and of the runtime, the primary keys
    so far, and what was last written. -/
structure State where
  store : ResourceStore
  cipher : Option Keyring
  primaries : List DataKey
  written : OrdMap String Write

namespace State

def start : State := ⟨.empty, none, [], .empty⟩

def wrote (s : State) (id : String) (value : Option JsString) (store : ResourceStore) : State :=
  { s with store, written := s.written.set id ⟨value.getD [], s.cipher.map Keyring.primaryKey⟩ }

end State

def WritesSecret : Resources.Operation → Prop
  | .createSecret _ | .updateSecretValue _ => True
  | _ => False

inductive Move where
  | createSecret (input : CreateSecretInput) (draws : Draws) (iv : Bytes)
  | updateSecretValue (id : String) (value : Option JsString) (updatedAt : String) (iv : Bytes)
  /-- Both processes get a ring that has the primary keys so far. -/
  | configure (keyring : KeyringSecretCipherOptions)
  | other (request : Resources.Request) (reads : ¬ WritesSecret request.operation)

section runs
variable (aead : Aead) (options : ResourceOptions)

/-- The answer of the service to a write, and the store after it. -/
def State.createSecret (s : State) (input : CreateSecretInput) (draws : Draws) (iv : Bytes) :
    Except ControlPlaneError Secret × ResourceStore :=
  SecretStorage.createSecret aead options s.cipher iv draws s.store input

def State.updateSecretValue (s : State) (id : String) (value : Option JsString)
    (updatedAt : String) (iv : Bytes) : Except ControlPlaneError Unit × ResourceStore :=
  SecretStorage.updateSecretValue aead s.cipher iv s.store id value updatedAt

def next (s : State) : Move → Option State
  | .createSecret input draws iv =>
    match s.createSecret aead options input draws iv with
    | (.ok secret, store) => some (s.wrote secret.id input.value store)
    | (.error _, store) => some { s with store }
  | .updateSecretValue id value updatedAt iv =>
    match s.updateSecretValue aead id value updatedAt iv with
    | (.ok _, store) => some (s.wrote id value store)
    | (.error _, store) => some { s with store }
  | .configure keyring =>
    match createKeyringSecretCipher keyring with
    | .ok ring =>
      if ∀ key ∈ s.primaries, ring.keys.get? key.keyId = some key.key then
        some { s with cipher := some ring, primaries := ring.primaryKey :: s.primaries }
      else none
    | .error _ => none
  | .other request _ =>
    some { s with
      store := request.apply options s.store
      written := match request.operation with
        | .deleteSecret id => s.written.delete id
        | _ => s.written }

/-- All histories of writes, key rings and other operations. -/
def secretStorage : LTS.Machine State Move where
  init s := s = .start
  next := next aead options

end runs

/-! ### The property and its condition -/

/-- What is stored of a write: with a cipher, an envelope of the id of the key,
    an IV, and what the cipher makes of the value. -/
def SealedAs (aead : Aead) (w : Write) (stored : String) : Prop :=
  ∀ key ∈ w.key, ∃ iv, stored =
    envelope key.keyId iv (aead.encipher key.key iv (textToBytes w.value))

/-- Each value is read as it was last written, and is stored sealed if there
    was a cipher. -/
def ReadsBack (aead : Aead) (s : State) : Prop :=
  ∀ id w, s.written.get? id = some w →
    getSecret aead s.cipher s.store id = .ok (some w.value) ∧
      ∃ secret, s.store.secrets.find? id = some secret ∧ SealedAs aead w secret.value

def Spells (s : State) (value : Option JsString) : Prop :=
  WellFormed (value.getD []) ∧ ∀ ring ∈ s.cipher, WellFormed ring.primaryKey.keyId

instance (s : State) (value : Option JsString) : Decidable (Spells s value) :=
  inferInstanceAs (Decidable (_ ∧ _))

/-- What is accepted is well-formed, and no value is stored that begins like an
    envelope when the first ring is configured. -/
def KeepsValues (aead : Aead) (options : ResourceOptions) (s : State) : Move → Prop
  | .createSecret input draws iv =>
    (s.createSecret aead options input draws iv).1.toBool = true → Spells s input.value
  | .updateSecretValue id value updatedAt iv =>
    (s.updateSecretValue aead id value updatedAt iv).1.toBool = true → Spells s value
  | .configure _ => s.cipher.isNone = true →
      ∀ secret ∈ s.store.secrets.rows, isEncryptedSecretValue secret.value = false
  | .other _ _ => True

instance (aead : Aead) (options : ResourceOptions) (s : State) :
    ∀ move, Decidable (KeepsValues aead options s move)
  | .createSecret _ _ _ => inferInstanceAs (Decidable (_ → _))
  | .updateSecretValue _ _ _ _ => inferInstanceAs (Decidable (_ → _))
  | .configure _ => inferInstanceAs (Decidable (_ → _))
  | .other _ _ => inferInstanceAs (Decidable True)

/-! ### What is stored -/

/-- A text and what is stored of it: the text, if there was no cipher, and it
    does not begin like an envelope if there is one now; or an envelope. -/
def Stored (aead : Aead) (cipher : Option Keyring) (primaries : List DataKey) (w : Write)
    (stored : String) : Prop :=
  ∃ text, w.value = JsString.ofString text ∧ w.value ≠ [] ∧
    match w.key with
    | none => stored = text ∧ (cipher.isSome = true → isEncryptedSecretValue stored = false)
    | some key => key ∈ primaries ∧ WellFormed key.keyId ∧ ∃ iv, iv.length = ivBytes ∧
        stored = envelope key.keyId iv (aead.encipher key.key iv (textToBytes w.value))

/-- The ring has the primary keys so far, and each value is stored. -/
structure Consistent (aead : Aead) (s : State) : Prop where
  primary : ∀ ring ∈ s.cipher, ring.primaryKey ∈ s.primaries
  keys : ∀ ring ∈ s.cipher, ∀ key ∈ s.primaries, ring.keys.get? key.keyId = some key.key
  none_primaries : s.cipher = none → s.primaries = []
  written : ∀ id w, s.written.get? id = some w →
    ∃ secret, s.store.secrets.find? id = some secret ∧
      Stored aead s.cipher s.primaries w secret.value

section storage
variable {aead : Aead} {options : ResourceOptions} {s s' : State}

theorem Stored.sealedAs {cipher : Option Keyring} {primaries : List DataKey} {w : Write}
    {stored : String} (h : Stored aead cipher primaries w stored) : SealedAs aead w stored := by
  obtain ⟨text, -, -, hstored⟩ := h
  intro key hkey
  rw [hkey] at hstored
  obtain ⟨-, -, iv, -, henvelope⟩ := hstored
  exact ⟨iv, henvelope⟩

theorem Consistent.readsBack (h : Consistent aead s) : ReadsBack aead s := by
  intro id w hw
  obtain ⟨secret, hfind, hstored⟩ := h.written id w hw
  refine ⟨?_, secret, hfind, hstored.sealedAs⟩
  obtain ⟨text, htext, hnonempty, hstored⟩ := hstored
  unfold getSecret
  rw [hfind]
  cases hkey : w.key with
  | none =>
    rw [hkey] at hstored
    obtain ⟨hsame, hplain⟩ := hstored
    cases hcipher : s.cipher with
    | none =>
      dsimp only
      rw [hsame, htext]
    | some ring =>
      dsimp only
      rw [hplain (by rw [hcipher]; rfl), hsame, htext]
      rfl
  | some key =>
    rw [hkey] at hstored
    obtain ⟨hprimary, hnamed, iv, hiv, henvelope⟩ := hstored
    cases hcipher : s.cipher with
    | none =>
      -- without a cipher there has been no primary key
      rw [h.none_primaries hcipher] at hprimary
      cases hprimary
    | some ring =>
      obtain ⟨keyId, hkeyId⟩ := wellFormed_iff.mp hnamed
      dsimp only
      rw [henvelope, if_pos (isEncryptedSecretValue_envelope ..), htext,
        decrypt_envelope hkeyId (h.keys ring hcipher key hprimary) hiv (htext ▸ hnonempty)]
      rfl

/-! ### Writes -/

variable {value : Option JsString}

theorem normalizeSecretValue_ok {v : JsString} (h : normalizeSecretValue value = .ok v)
    : value = some v ∧ v ≠ [] := by
  cases value with
  | none => cases h
  | some value =>
    unfold normalizeSecretValue at h
    dsimp only at h
    by_cases hempty : value = []
    · rw [if_pos hempty] at h
      cases h
    · rw [if_neg hempty] at h
      by_cases hlong : value.length > 65536
      · rw [if_pos hlong] at h
        cases h
      · rw [if_neg hlong] at h
        cases h
        exact ⟨rfl, hempty⟩

theorem Consistent.encodeSecretValue {v encoded : JsString} {iv : Bytes} (h : Consistent aead s)
    (hv : normalizeSecretValue value = .ok v) (hspells : Spells s value)
    (hencoded : encodeSecretValue aead s.cipher iv v = .ok encoded) :
    Stored aead s.cipher s.primaries ⟨value.getD [], s.cipher.map Keyring.primaryKey⟩
      (JsString.toWellFormed encoded) := by
  obtain ⟨hvalue, hnonempty⟩ := normalizeSecretValue_ok hv
  subst hvalue
  obtain ⟨text, htext⟩ := wellFormed_iff.mp hspells.1
  refine ⟨text, htext, hnonempty, ?_⟩
  unfold SecretStorage.encodeSecretValue at hencoded
  -- without a cipher the value is stored as it is
  cases hcipher : s.cipher with
  | none =>
    rw [hcipher] at hencoded
    cases hencoded
    refine ⟨?_, fun hsome => by cases hsome⟩
    show JsString.toWellFormed ((some v).getD []) = text
    rw [htext, JsString.toWellFormed_ofString]
  | some ring =>
    rw [hcipher] at hencoded
    unfold encrypt at hencoded
    by_cases hiv : iv.length = ivBytes
    · simp only [if_pos hiv, Except.map] at hencoded
      injection hencoded with hencoded
      refine ⟨h.primary ring hcipher, hspells.2 ring hcipher, iv, hiv, ?_⟩
      rw [← hencoded, JsString.toWellFormed_ofString]
      rfl
    · simp only [if_neg hiv] at hencoded
      cases hencoded

theorem Consistent.wrote {id : String} {store : ResourceStore} {row : Secret}
    (h : Consistent aead s) (hfind : ∀ id', store.secrets.find? id' = if id' = id then some row
      else s.store.secrets.find? id') (hstored : Stored aead s.cipher s.primaries
      ⟨value.getD [], s.cipher.map Keyring.primaryKey⟩ row.value) :
    Consistent aead (s.wrote id value store) := by
  refine ⟨h.primary, h.keys, h.none_primaries, fun id' w hw => ?_⟩
  show ∃ secret, store.secrets.find? id' = some secret ∧ _
  rw [State.wrote, OrdMap.get?_set] at hw
  rw [hfind id']
  by_cases hid : id' = id
  · rw [if_pos hid] at hw ⊢
    cases hw
    exact ⟨row, rfl, hstored⟩
  · rw [if_neg hid] at hw ⊢
    exact h.written id' w hw

/-- Values stay as they are when neither they nor the writes change. -/
theorem Consistent.other (h : Consistent aead s) {store : ResourceStore}
    {written : OrdMap String Write}
    (hkept : ∀ id w, written.get? id = some w → s.written.get? id = some w ∧
      store.secrets.find? id = s.store.secrets.find? id) :
    Consistent aead { s with store, written } := by
  refine ⟨h.primary, h.keys, h.none_primaries, fun id w hw => ?_⟩
  obtain ⟨hold, hfind⟩ := hkept id w hw
  show ∃ secret, store.secrets.find? id = some secret ∧ _
  rw [hfind]
  exact h.written id w hold

theorem normalizedSecret_ok {cipher : Option Keyring} {iv : Bytes} {draws : Draws}
    {t : ResourceStore} {input : CreateSecretInput} {secret : Secret}
    (h : normalizedSecret aead options cipher iv draws t input = .ok secret) :
    ∃ v encoded, normalizeSecretValue input.value = .ok v ∧
      SecretStorage.encodeSecretValue aead cipher iv v = .ok encoded ∧
      secret.value = toWellFormed encoded := by
  obtain ⟨_, -, h⟩ := bind_eq_ok.mp h
  obtain ⟨_, -, h⟩ := bind_eq_ok.mp h
  obtain ⟨id, -, h⟩ := bind_eq_ok.mp h
  obtain ⟨name, -, h⟩ := bind_eq_ok.mp h
  obtain ⟨v, hv, h⟩ := bind_eq_ok.mp h
  obtain ⟨encoded, hencoded, h⟩ := bind_eq_ok.mp h
  cases h
  exact ⟨v, encoded, hv, hencoded, rfl⟩

theorem consistent_createSecret {input : CreateSecretInput} {draws : Draws} {iv : Bytes}
    (h : Consistent aead s)
    (hmeets : KeepsValues aead options s (.createSecret input draws iv))
    (hnext : next aead options s (.createSecret input draws iv) = some s') :
    Consistent aead s' := by
  have hmeets' : (s.createSecret aead options input draws iv).1.toBool = true →
    Spells s input.value := hmeets
  dsimp only [next] at hnext
  -- the value that is stored is the encoding of the normalized one
  unfold State.createSecret SecretStorage.createSecret at hnext hmeets'
  cases hsecret : normalizedSecret aead options s.cipher iv draws s.store input with
  | error e =>
    rw [hsecret] at hnext
    cases hnext
    exact h
  | ok secret =>
    rw [hsecret] at hnext hmeets'
    dsimp only [ResourceStore.createSecret] at hnext hmeets'
    cases hinserted : s.store.insertOwned s.store.secrets secret "secret" secret.projectId with
    | error e =>
      rw [hinserted] at hnext
      cases hnext
      exact h
    | ok secrets =>
      rw [hinserted] at hnext hmeets'
      cases hnext
      obtain ⟨v, encoded, hv, hencoded, hvalue⟩ := normalizedSecret_ok hsecret
      refine h.wrote (fun id' => ?_)
        (hvalue ▸ h.encodeSecretValue hv (hmeets' rfl) hencoded)
      exact find?_insert (Routing.Repository.insertRow_eq_ok hinserted) id'

theorem consistent_updateSecretValue {id updatedAt : String} {iv : Bytes} (h : Consistent aead s)
    (hmeets : KeepsValues aead options s (.updateSecretValue id value updatedAt iv))
    (hnext : next aead options s (.updateSecretValue id value updatedAt iv) = some s') :
    Consistent aead s' := by
  have hmeets' : (s.updateSecretValue aead id value updatedAt iv).1.toBool = true →
    Spells s value := hmeets
  dsimp only [next] at hnext
  unfold State.updateSecretValue SecretStorage.updateSecretValue at hnext hmeets'
  cases hfind : s.store.secrets.find? id with
  | none =>
    rw [hfind] at hnext
    cases hnext
    exact h
  | some old =>
    rw [hfind] at hnext hmeets'
    cases hstored : normalizeSecretValue value >>=
        SecretStorage.encodeSecretValue aead s.cipher iv with
    | error e =>
      simp only [hstored] at hnext
      cases hnext
      exact h
    | ok encoded =>
      simp only [hstored, ResourceStore.updateSecretValue, hfind] at hnext hmeets'
      cases hnext
      obtain ⟨v, hv, hencoded⟩ := bind_eq_ok.mp hstored
      have hvalue := h.encodeSecretValue hv (hmeets' rfl) hencoded
      have hrow : Stored aead s.cipher s.primaries ⟨value.getD [], s.cipher.map Keyring.primaryKey⟩
          ({ old with value := toWellFormed encoded, updatedAt } : Secret).value := hvalue
      refine h.wrote (fun id' => ?_) hrow
      dsimp only
      rw [find?_modify]
      by_cases hid : id' = id
      · subst hid
        have hid := (find?_eq_some.mp hfind).2
        rw [if_pos rfl, hfind, Option.map_some, decide_eq_true hid]
        rfl
      · rw [if_neg hid]
        -- rows with another id stay
        cases hother : s.store.secrets.find? id' with
        | none => rfl
        | some row =>
          have hrow : ¬ row.id = id := (find?_eq_some.mp hother).2 ▸ hid
          rw [Option.map_some, decide_eq_false hrow]
          rfl

/-- A new ring: it opens what the rings before it have sealed. -/
theorem consistent_configure {keyring : KeyringSecretCipherOptions} (h : Consistent aead s)
    (hmeets : KeepsValues aead options s (.configure keyring))
    (hnext : next aead options s (.configure keyring) = some s') : Consistent aead s' := by
  dsimp only [next] at hnext
  cases hring : createKeyringSecretCipher keyring with
  | error e =>
    rw [hring] at hnext
    cases hnext
  | ok ring =>
    rw [hring] at hnext
    by_cases hkeys : ∀ key ∈ s.primaries, ring.keys.get? key.keyId = some key.key
    · simp only [if_pos hkeys] at hnext
      cases hnext
      refine ⟨fun ring' hring' => ?_, fun ring' hring' key hkey => ?_,
        (fun hnone => by cases hnone),
        fun id w hw => ?_⟩
      · cases hring'
        exact List.mem_cons_self
      · cases hring'
        rcases List.mem_cons.mp hkey with rfl | hkey
        · exact ring.primary
        · exact hkeys key hkey
      · obtain ⟨secret, hfind, text, htext, hnonempty, hstored⟩ := h.written id w hw
        refine ⟨secret, hfind, text, htext, hnonempty, ?_⟩
        cases hkey : w.key with
        | none =>
          rw [hkey] at hstored
          refine ⟨hstored.1, fun _ => ?_⟩
          -- the text does not begin like an envelope, by the condition or since the first ring
          cases hcipher : s.cipher with
          | none => exact hmeets (by rw [hcipher]; rfl) secret (find?_eq_some.mp hfind).1
          | some old => exact hstored.2 (by rw [hcipher]; rfl)
        | some key =>
          rw [hkey] at hstored
          exact ⟨List.mem_cons_of_mem _ hstored.1, hstored.2⟩
    · simp only [if_neg hkeys] at hnext
      cases hnext

theorem consistent_other {request : Resources.Request} {reads : ¬ WritesSecret request.operation}
    (h : Consistent aead s) (hnext : next aead options s (.other request reads) = some s') :
    Consistent aead s' := by
  dsimp only [next] at hnext
  cases hnext
  obtain ⟨operation, env⟩ := request
  -- no other operation writes a value; a deletion takes the row and what was written
  cases operation with
  | createSecret input => exact absurd trivial reads
  | updateSecretValue input => exact absurd trivial reads
  | deleteSecret id =>
    refine h.other fun id' w hw => ?_
    dsimp only at hw
    rw [OrdMap.get?_delete] at hw
    by_cases hid : id' = id
    · rw [if_pos hid] at hw
      cases hw
    · rw [if_neg hid] at hw
      refine ⟨hw, ?_⟩
      show (deleteSecret s.store id).2.secrets.find? id' = _
      unfold deleteSecret ResourceStore.deleteSecret
      cases hfind : s.store.secrets.find? id with
      | none => rfl
      | some old =>
        refine (find?_delete id').trans ?_
        cases hother : s.store.secrets.find? id' with
        | none => rfl
        | some row =>
          have hrow : ¬ row.id = id := (find?_eq_some.mp hother).2 ▸ hid
          rw [Option.filter_some, decide_eq_false hrow]
          rfl
  | catalog operation => exact h.other fun _ _ hw => ⟨hw, rfl⟩
  | createKvNamespace input =>
    refine h.other fun id _ hw => ⟨hw, ?_⟩
    show (createKvNamespace options env s.store input).2.secrets.find? id = _
    unfold createKvNamespace Resources.NamespaceKind.create
    split
    · rfl
    · split <;> rfl
  | deleteKvNamespace id' =>
    refine h.other fun id _ hw => ⟨hw, ?_⟩
    show (deleteKvNamespace s.store id').2.secrets.find? id = _
    unfold deleteKvNamespace Resources.NamespaceKind.delete
    split <;> rfl
  | createDurableObjectNamespace input =>
    refine h.other fun id _ hw => ⟨hw, ?_⟩
    show (createDurableObjectNamespace options env s.store input).2.secrets.find? id = _
    unfold createDurableObjectNamespace Resources.NamespaceKind.create
    split
    · rfl
    · split <;> rfl
  | deleteDurableObjectNamespace id' =>
    refine h.other fun id _ hw => ⟨hw, ?_⟩
    show (deleteDurableObjectNamespace s.store id').2.secrets.find? id = _
    unfold deleteDurableObjectNamespace Resources.NamespaceKind.delete
    split <;> rfl

theorem consistent_next {move : Move} (h : Consistent aead s)
    (hmeets : KeepsValues aead options s move) (hnext : next aead options s move = some s') :
    Consistent aead s' := by
  cases move with
  | createSecret input draws iv => exact consistent_createSecret h hmeets hnext
  | updateSecretValue id value updatedAt iv => exact consistent_updateSecretValue h hmeets hnext
  | configure keyring => exact consistent_configure h hmeets hnext
  | other request reads => exact consistent_other h hnext

theorem consistent_start : Consistent aead .start :=
  ⟨(fun _ h => by cases h), (fun _ h => by cases h), fun _ => rfl, fun _ _ h => by cases h⟩

end storage

/-! ### Runs of writes and rings -/

/-- A cipher that leaves bytes as they are, and has the output of AES-256-GCM
    for one key, IV and plaintext. -/
def Aead.sample (key iv bytes : Bytes) (output : Bytes × Bytes)
    (hciphertext : output.1.length = bytes.length) (htag : output.2.length = 16)
    (hother : output.2 ≠ List.replicate 16 0) : Aead where
  encipher key' iv' bytes' :=
    if key' = key ∧ iv' = iv ∧ bytes' = bytes then output else (bytes', List.replicate 16 0)
  decipher key' iv' output' :=
    if key' = key ∧ iv' = iv ∧ output' = output then some bytes
    else if output'.2 = List.replicate 16 0 then some output'.1 else none
  correct key' iv' bytes' := by
    by_cases h : key' = key ∧ iv' = iv ∧ bytes' = bytes
    · rw [if_pos h, if_pos ⟨h.1, h.2.1, rfl⟩, h.2.2]
    · rw [if_neg h, if_neg, if_pos rfl]
      rintro ⟨-, -, houtput⟩
      exact hother (congrArg Prod.snd houtput).symm
  length_ciphertext key' iv' bytes' := by
    by_cases h : key' = key ∧ iv' = iv ∧ bytes' = bytes
    · rw [if_pos h, h.2.2, hciphertext]
    · rw [if_neg h]
  length_tag key' iv' bytes' := by
    by_cases h : key' = key ∧ iv' = iv ∧ bytes' = bytes
    · rw [if_pos h, htag]
    · rw [if_neg h, List.length_replicate]

/-- The output of AES-256-GCM for `hunter2`. -/
def hunterAead : Aead :=
  .sample (List.replicate 32 7) (List.replicate 12 9) [104, 117, 110, 116, 101, 114, 50]
    ([79, 240, 234, 224, 219, 130, 243],
      [83, 59, 45, 173, 191, 96, 243, 191, 186, 204, 1, 222, 248, 130, 141, 19])
    rfl rfl (by decide)

def oldKey : SecretDataKey := ⟨JsString.ofString "old", List.replicate 32 7⟩

def newKey : SecretDataKey := ⟨JsString.ofString " new ", List.replicate 32 8⟩

def createShop : Move :=
  .other (Resources.shopRequest ⟨1, by decide⟩
    (.catalog (.createProject ⟨.str "shop", none, .str "Shop"⟩))) not_false

/-- A secret of `shop`, with an IV of twelve times nine. -/
def createShopSecret (id value : String) : Move :=
  .createSecret ⟨.str id, "shop", .str id, some (JsString.ofString value)⟩
    (Catalog.shopDraws id) (List.replicate 12 9)

/-- A plain value, a sealed one, and a ring whose predecessor's key is left to decrypt. -/
def rotation : List Move :=
  [createShop, createShopSecret "greeting" "hello", .configure ⟨oldKey, []⟩,
   createShopSecret "password" "hunter2", .configure ⟨newKey, [oldKey]⟩]

end Odenctl.ControlPlane.SecretStorage
