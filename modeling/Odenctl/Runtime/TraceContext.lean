import Mathlib.Data.List.DropRight
import Odenctl.Framework.HeaderMap

/-! # Trace context

    The context of a trace (`TraceContext` in `telemetry/context.rs`), read
    from the `traceparent` and `tracestate` headers and written to them. -/

namespace Odenctl.Runtime.Trace

open Http

/-! ### Parsing -/

structure TraceContext where
  traceId : Bytes
  spanId : Bytes
  flags : Nat
  tracestate : Bytes
  deriving DecidableEq

def isHexDigit (b : UInt8) : Bool := isDigit b || (97 ≤ b && b ≤ 102)

def hex (value : Bytes) (length : Nat) : Bool := value.length == length && value.all isHexDigit

def hexValue (b : UInt8) : Nat := if isDigit b then b.toNat - 48 else b.toNat - 87

/-- `u8::from_str_radix(value, 16)`, for hexadecimal digits. -/
def fromHex (value : Bytes) : Nat := value.foldl (fun n b => n * 16 + hexValue b) 0

def dash : UInt8 := 45
def comma : UInt8 := 44
def equals : UInt8 := 61

def isBlank (b : UInt8) : Bool := b == 32 || b == 9

/-- `trim_matches([' ', '\t'])`. -/
def trim (text : Bytes) : Bytes := (text.dropWhile isBlank).rdropWhile isBlank

def splitOnce (sep : UInt8) : Bytes → Option (Bytes × Bytes)
  | [] => none
  | b :: rest => if b = sep then some ([], rest) else (splitOnce sep rest).map fun (l, r) =>
      (b :: l, r)

def keyChar (b : UInt8) : Bool := isLower b || isDigit b || (ascii "_-*/").contains b

def validKey (key : Bytes) : Bool :=
  match splitOnce 64 key with
  | some (tenant, system) =>
    tenant != [] && tenant.length ≤ 241 && tenant.all keyChar
      && tenant.head?.all (fun b => isLower b || isUpper b || isDigit b)
      && system != [] && system.length ≤ 14 && system.head?.all isLower && system.all keyChar
  | none => key != [] && key.length ≤ 256 && key.head?.all isLower && key.all keyChar

def validValue (value : Bytes) : Bool :=
  value != [] && value.length ≤ 256 && value.getLast? != some 32
    && value.all fun b => 32 ≤ b && b ≤ 126 && b != comma && b != equals

/-- The loop over the members, with the keys so far. -/
def normalize (keys : List Bytes) : List Bytes → Option (List Bytes)
  | [] => some []
  | member :: members => do
    let (key, value) ← splitOnce equals (trim member)
    if validKey key && !keys.contains key && keys.length < 32 && validValue value then
      return (key ++ equals :: value) :: (← normalize (key :: keys) members)
    else none

def validState (state : Bytes) : Option Bytes :=
  if state = [] then some []
  else if 512 < state.length then none
  else (normalize [] (state.splitOn comma)).map (List.intercalate [comma])

def parse (parent state : Bytes) : Option TraceContext :=
  match parent.splitOn dash with
  | version :: traceId :: spanId :: flags :: extra =>
    if hex version 2 && version != ascii "ff" && (version != ascii "00" || extra == [])
        && hex traceId 32 && hex spanId 16 && hex flags 2
        && !traceId.all (· == 48) && !spanId.all (· == 48) && extra.all (· != []) then
      some ⟨traceId, spanId, fromHex flags % 2, (validState state).getD []⟩
    else none
  | _ => none

/-! ### Headers -/

def TraceContext.traceparent (c : TraceContext) : Bytes :=
  List.intercalate [dash]
    [ascii "00", c.traceId, c.spanId, if c.flags % 2 = 1 then ascii "01" else ascii "00"]

section headers
variable (maps : HeaderMaps)

def fromHeaders (headers : maps.Map) : Option TraceContext :=
  if (maps.getAll headers (ascii "traceparent")).length ≠ 1 then none
  else do
    let state :=
      List.intercalate [comma] ((maps.getAll headers (ascii "tracestate")).filterMap maps.toStr)
    parse (← maps.toStr (← maps.get headers (ascii "traceparent"))) state

/-- `inject`; `none` is a panic. -/
def TraceContext.inject (c : TraceContext) (headers : maps.Map) : Option maps.Map := do
  let headers ← maps.insert headers (ascii "traceparent") (← maps.parseValue c.traceparent)
  let headers := maps.remove headers (ascii "tracestate")
  if c.tracestate = [] then return headers
  else maps.insert headers (ascii "tracestate") (← maps.parseValue c.tracestate)

end headers

def TraceContext.derive (parent : TraceContext) (drawn : Bytes) : TraceContext where
  traceId := parent.traceId
  spanId := drawn
  flags := if parent.flags % 2 ≠ 0 then 1 else 0
  tracestate := parent.tracestate

/-! ### Members -/

variable {text state id parent random : Bytes} {c : TraceContext}

theorem not_mem_of_mem_splitOn {sep : UInt8} {part : Bytes} (h : part ∈ text.splitOn sep) :
    sep ∉ part := by
  induction text generalizing part with
  | nil =>
    rw [List.splitOn_nil, List.mem_singleton] at h
    simp [h]
  | cons b text ih =>
    rw [List.splitOn_cons_eq_if_modifyHead] at h
    split at h
    · rcases List.mem_cons.mp h with rfl | hmem
      · simp
      · exact ih hmem
    · next hb =>
      obtain ⟨first, rest, heq⟩ := List.exists_cons_of_ne_nil (List.splitOn_ne_nil sep text)
      rw [heq] at h ih
      rw [List.modifyHead_cons] at h
      rcases List.mem_cons.mp h with rfl | hmem
      · simp only [List.mem_cons, not_or]
        exact ⟨fun heq => hb (by simp [heq]), ih List.mem_cons_self⟩
      · exact ih (List.mem_cons_of_mem _ hmem)

theorem splitOnce_eq_some {sep : UInt8} {l r : Bytes} (h : splitOnce sep text = some (l, r)) :
    text = l ++ sep :: r := by
  induction text generalizing l with
  | nil => cases h
  | cons b text ih =>
    rw [splitOnce] at h
    split at h
    · next heq =>
      cases h
      rw [heq, List.nil_append]
    · obtain ⟨⟨l', r'⟩, hrest, heq⟩ := Option.map_eq_some_iff.mp h
      cases heq
      rw [ih hrest, List.cons_append]

theorem trim_trim (text : Bytes) : trim (trim text) = trim text := by
  have hleft : (trim text).dropWhile isBlank = trim text := by
    obtain ⟨ends, hends⟩ := List.rdropWhile_prefix isBlank (text.dropWhile isBlank)
    cases htrim : trim text with
    | nil => rfl
    | cons b rest =>
      rw [show (text.dropWhile isBlank).rdropWhile isBlank = b :: rest from htrim] at hends
      have hhead := List.head?_dropWhile_not isBlank text
      rw [← hends] at hhead
      exact List.dropWhile_cons_of_neg (by simpa using hhead)
  conv_lhs => rw [trim, hleft]
  exact List.rdropWhile_idempotent _ _

theorem length_trim_le (text : Bytes) : (trim text).length ≤ text.length :=
  ((List.rdropWhile_prefix _ _).length_le).trans (List.dropWhile_suffix _).length_le

theorem trim_subset (text : Bytes) : trim text ⊆ text :=
  List.Subset.trans (List.rdropWhile_prefix _ _).subset (List.dropWhile_suffix _).subset

/-- A property of all bytes can be checked on their numbers. -/
theorem forall_byte {P : UInt8 → Prop} (h : ∀ n < 256, P (UInt8.ofNat n)) (b : UInt8) : P b := by
  have hb := h b.toNat b.toNat_lt
  rwa [UInt8.ofNat_toNat] at hb

theorem isVisible_of_keyChar : ∀ b, keyChar b = true → isVisible b = true :=
  forall_byte (by decide +kernel)

theorem mem_of_validKey {key : Bytes} (h : validKey key = true) :
    ∀ b ∈ key, isVisible b = true := by
  intro b hb
  unfold validKey at h
  split at h
  · next tenant system hsplit =>
    simp only [Bool.and_eq_true, List.all_eq_true] at h
    rw [splitOnce_eq_some hsplit] at hb
    rcases List.mem_append.mp hb with htenant | hrest
    · exact isVisible_of_keyChar b (h.1.1.1.1.1.2 b htenant)
    · rcases List.mem_cons.mp hrest with rfl | hsystem
      · rfl
      · exact isVisible_of_keyChar b (h.2 b hsystem)
  · simp only [Bool.and_eq_true, List.all_eq_true] at h
    exact isVisible_of_keyChar b (h.2 b hb)

theorem isVisible_of_validValue {value : Bytes} (h : validValue value = true) :
    ∀ b ∈ value, isVisible b = true := by
  intro b hb
  simp only [validValue, Bool.and_eq_true, List.all_eq_true, decide_eq_true_eq] at h
  obtain ⟨⟨⟨hlow, hhigh⟩, -⟩, -⟩ := h.2 b hb
  simp only [isVisible, Bool.and_eq_true, decide_eq_true_eq]
  exact ⟨hlow, Nat.lt_succ_of_le hhigh⟩

/-- What the loop keeps are the trimmed members, and it keeps them as they are
    when it reads them once more. -/
theorem normalize_spec {keys members out : List Bytes} (h : normalize keys members = some out) :
    out = members.map trim ∧ normalize keys out = some out ∧
      ∀ member ∈ out, ∀ b ∈ member, isVisible b = true := by
  -- member by member, with the keys that have been seen
  induction members generalizing keys out with
  | nil =>
    cases h
    exact ⟨rfl, rfl, by simp⟩
  | cons member members ih =>
    simp only [normalize, Option.bind_eq_bind, Option.bind_eq_some_iff] at h
    obtain ⟨⟨key, value⟩, hsplit, h⟩ := h
    dsimp only at h
    split at h
    · next hvalid =>
      obtain ⟨rest, hrest, hout⟩ := Option.bind_eq_some_iff.mp h
      cases hout
      obtain ⟨htrim, hagain, hvisible⟩ := ih hrest
      have hmember := splitOnce_eq_some hsplit
      refine ⟨by rw [List.map_cons, hmember, htrim], ?_, ?_⟩
      · rw [normalize, ← hmember, trim_trim, hsplit]
        simp only [Option.bind_eq_bind, Option.bind_some, hvalid, if_true, hagain]
        rw [hmember]
        rfl
      · simp only [Bool.and_eq_true] at hvalid
        refine List.forall_mem_cons.mpr ⟨fun b hb => ?_, hvisible⟩
        rcases List.mem_append.mp hb with hkey | hvalue
        · exact mem_of_validKey hvalid.1.1.1 b hkey
        · rcases List.mem_cons.mp hvalue with rfl | hmem
          · rfl
          · exact isVisible_of_validValue hvalid.2 b hmem
    · cases h

theorem length_intercalate_le {f : Bytes → Bytes} (hf : ∀ x, (f x).length ≤ x.length)
    (sep : Bytes) (xs : List Bytes) :
    (List.intercalate sep (xs.map f)).length ≤ (List.intercalate sep xs).length := by
  induction xs with
  | nil => exact le_rfl
  | cons x xs ih =>
    have hx := hf x
    cases xs with
    | nil => simpa [List.intercalate] using hx
    | cons y ys =>
      rw [List.map_cons, List.map_cons, List.intercalate_cons_cons, List.intercalate_cons_cons]
      rw [List.map_cons] at ih
      simp only [List.length_append]
      omega

theorem mem_intercalate {sep : Bytes} {xs : List Bytes} {b : UInt8}
    (h : b ∈ List.intercalate sep xs) : b ∈ sep ∨ ∃ x ∈ xs, b ∈ x := by
  induction xs with
  | nil => cases h
  | cons x xs ih =>
    cases xs with
    | nil => exact .inr ⟨x, by simp, by simpa [List.intercalate] using h⟩
    | cons y ys =>
      rw [List.intercalate_cons_cons, List.append_assoc] at h
      rcases List.mem_append.mp h with hx | hrest
      · exact .inr ⟨x, List.mem_cons_self, hx⟩
      · rcases List.mem_append.mp hrest with hsep | hlater
        · exact .inl hsep
        · exact (ih hlater).imp_right fun ⟨z, hz, hb⟩ => ⟨z, List.mem_cons_of_mem _ hz, hb⟩

/-- The normal form of a state: its members, trimmed, between commas.  It is its
    own normal form and a header value that is a text. -/
theorem validState_spec {out : Bytes} (h : validState state = some out) :
    (state ≠ [] → out.splitOn comma = (state.splitOn comma).map trim) ∧
      validState out = some out ∧ out.all isVisible = true := by
  unfold validState at h
  split at h
  · next hempty =>
    cases h
    exact ⟨fun hne => absurd hempty hne, rfl, rfl⟩
  · split at h
    · cases h
    · next hlen =>
      obtain ⟨members, hmembers, rfl⟩ := Option.map_eq_some_iff.mp h
      obtain ⟨htrim, hagain, hvisible⟩ := normalize_spec hmembers
      have hnone : ∀ member ∈ members, comma ∉ member := by
        intro member hmem
        rw [htrim] at hmem
        obtain ⟨part, hpart, rfl⟩ := List.mem_map.mp hmem
        exact fun hcomma => not_mem_of_mem_splitOn hpart (trim_subset part hcomma)
      have hne : members ≠ [] := by
        rw [htrim]
        simp
      have hsplit := List.splitOn_intercalate comma hnone hne
      -- trimming does not make the text longer, so it is accepted again
      have hshort : (List.intercalate [comma] members).length ≤ state.length := by
        conv_rhs => rw [← @List.intercalate_splitOn _ state _ _ comma]
        rw [htrim]
        exact length_intercalate_le length_trim_le _ _
      refine ⟨fun _ => hsplit.trans htrim, ?_, ?_⟩
      · unfold validState
        split
        · next hnil => rw [hnil]
        · rw [if_neg (by omega), hsplit, hagain]
          rfl
      · rw [List.all_eq_true]
        intro b hb
        obtain hsep | ⟨member, hmem, hb⟩ := mem_intercalate hb
        · rw [List.mem_singleton.mp hsep]
          rfl
        · exact hvisible member hmem b hb

/-! ### What is parsed -/

/-- A `traceparent` of the accepted form, in its parts. -/
structure IsTraceparent (parent version traceId spanId flags : Bytes) (extra : List Bytes) :
    Prop where
  text : parent = List.intercalate [dash] (version :: traceId :: spanId :: flags :: extra)
  version_hex : hex version 2 = true
  version_ne : version ≠ ascii "ff"
  extra_nil : version = ascii "00" → extra = []
  traceId_hex : hex traceId 32 = true
  spanId_hex : hex spanId 16 = true
  flags_hex : hex flags 2 = true
  traceId_ne : traceId ≠ List.replicate 32 48
  spanId_ne : spanId ≠ List.replicate 16 48
  extra_ne : ∀ part ∈ extra, part ≠ [] ∧ dash ∉ part

/-- A context that `parse` returns, but for an id of the span that may be zero. -/
structure TraceContext.WellFormed (c : TraceContext) : Prop where
  traceId_hex : hex c.traceId 32 = true
  traceId_ne : c.traceId ≠ List.replicate 32 48
  spanId_hex : hex c.spanId 16 = true
  flags_lt : c.flags < 2
  tracestate : validState c.tracestate = some c.tracestate

theorem hex_zero {n : Nat} (h : hex id n = true) :
    id.all (· == 48) = true ↔ id = List.replicate n 48 := by
  simp only [hex, Bool.and_eq_true, beq_iff_eq] at h
  rw [List.eq_replicate_iff]
  simp [h.1]

theorem dash_not_mem_of_hex {n : Nat} (h : hex id n = true) : dash ∉ id := by
  simp only [hex, Bool.and_eq_true, List.all_eq_true] at h
  intro hmem
  exact absurd (h.2 dash hmem) (by decide)

/-- Exactly the texts of the accepted form are parsed. -/
theorem parse_eq_some :
    parse parent state = some c ↔ ∃ version flags extra,
      IsTraceparent parent version c.traceId c.spanId flags extra ∧
      c.flags = fromHex flags % 2 ∧ c.tracestate = (validState state).getD [] := by
  unfold parse
  constructor
  · intro h
    generalize hparts : parent.splitOn dash = parts at h
    -- the parts of a `traceparent` in one direction, its text in the other
    split at h
    · next version traceId spanId flags extra =>
      split at h
      · next hvalid =>
        cases h
        simp only [Bool.and_eq_true, bne_iff_ne, Bool.or_eq_true, beq_iff_eq,
          Bool.not_eq_true', List.all_eq_true] at hvalid
        obtain ⟨⟨⟨⟨⟨⟨⟨⟨hversion, hne⟩, hextra⟩, htrace⟩, hspan⟩, hflags⟩, htrace0⟩, hspan0⟩,
            hparts0⟩ :=
          hvalid
        refine ⟨version, flags, extra, ?_, rfl, rfl⟩
        constructor
        · rw [← hparts, List.intercalate_splitOn]
        · exact hversion
        · exact hne
        · exact fun heq => hextra.resolve_left fun h => h heq
        · exact htrace
        · exact hspan
        · exact hflags
        · exact fun heq => by simp [(hex_zero htrace).mpr heq] at htrace0
        · exact fun heq => by simp [(hex_zero hspan).mpr heq] at hspan0
        · intro part hpart
          have hmem : part ∈ parent.splitOn dash := by simp [hparts, hpart]
          exact ⟨hparts0 part hpart, not_mem_of_mem_splitOn hmem⟩
      · cases h
    · cases h
  · rintro ⟨version, flags, extra, hp, hflags, hstate⟩
    have hnone : ∀ part ∈ version :: c.traceId :: c.spanId :: flags :: extra, dash ∉ part := by
      simp only [List.forall_mem_cons]
      exact ⟨dash_not_mem_of_hex hp.version_hex, dash_not_mem_of_hex hp.traceId_hex,
        dash_not_mem_of_hex hp.spanId_hex, dash_not_mem_of_hex hp.flags_hex,
        fun part hpart => (hp.extra_ne part hpart).2⟩
    rw [hp.text, List.splitOn_intercalate dash hnone (by simp)]
    have htrace : c.traceId.all (· == 48) = false := by
      rw [Bool.eq_false_iff, Ne, hex_zero hp.traceId_hex]
      exact hp.traceId_ne
    have hspan : c.spanId.all (· == 48) = false := by
      rw [Bool.eq_false_iff, Ne, hex_zero hp.spanId_hex]
      exact hp.spanId_ne
    have hextra : (version != ascii "00" || extra == []) = true := by
      by_cases hversion : version = ascii "00"
      · simp [hp.extra_nil hversion]
      · simp [hversion]
    have hparts : extra.all (· != []) = true := by
      rw [List.all_eq_true]
      exact fun part hpart => bne_iff_ne.mpr (hp.extra_ne part hpart).1
    simp only [hp.version_hex, bne_iff_ne.mpr hp.version_ne, hextra, hp.traceId_hex,
      hp.spanId_hex, hp.flags_hex, htrace, hspan, hparts]
    simp [← hflags, ← hstate]

theorem parse_wellFormed (h : parse parent state = some c) :
    c.WellFormed ∧ c.spanId ≠ List.replicate 16 48 := by
  obtain ⟨version, flags, extra, hp, hflags, hstate⟩ := parse_eq_some.mp h
  refine ⟨⟨hp.traceId_hex, hp.traceId_ne, hp.spanId_hex, by omega, ?_⟩, hp.spanId_ne⟩
  rw [hstate]
  cases hvalid : validState state with
  | none => rfl
  | some out => exact (validState_spec hvalid).2.1

/-! ### Writing and reading -/

/-- Ids that `id(8)` draws: the hexadecimal digits of random bytes. -/
def idText (random : Bytes) : Bytes :=
  random.flatMap fun b => [hexDigit (b / 16), hexDigit (b % 16)]
where
  hexDigit (n : UInt8) : UInt8 := if n < 10 then 48 + n else 87 + n

theorem hex_idText (random : Bytes) : hex (idText random) (random.length * 2) = true := by
  have hdigits : ∀ b : UInt8, isHexDigit (idText.hexDigit (b / 16)) = true ∧
      isHexDigit (idText.hexDigit (b % 16)) = true := forall_byte (by decide +kernel)
  induction random with
  | nil => rfl
  | cons b random ih =>
    simp only [hex, idText, Bool.and_eq_true, beq_iff_eq] at ih ⊢
    rw [List.flatMap_cons, List.length_append, List.length_cons, List.all_append, ih.1, ih.2]
    refine ⟨by simp; omega, by simp [hdigits b]⟩

theorem idText_eq_zero :
    idText random = List.replicate (random.length * 2) 48 ↔ ∀ b ∈ random, b = 0 := by
  have hdigits : ∀ b : UInt8, (idText.hexDigit (b / 16) = 48 ∧ idText.hexDigit (b % 16) = 48) ↔
      b = 0 := forall_byte (by decide +kernel)
  rw [List.eq_replicate_iff]
  have hlength := hex_idText random
  simp only [hex, Bool.and_eq_true, beq_iff_eq] at hlength
  rw [and_iff_right hlength.1]
  simp only [idText, List.mem_flatMap, forall_exists_index, and_imp]
  constructor
  · intro h b hb
    exact (hdigits b).mp ⟨h _ b hb (by simp), h _ b hb (by simp)⟩
  · intro h digit b hb hdigit
    have hzero := (hdigits b).mpr (h b hb)
    simp only [List.mem_cons, List.not_mem_nil, or_false] at hdigit
    rcases hdigit with rfl | rfl
    · exact hzero.1
    · exact hzero.2

/-- With `traceparent` written and without `tracestate`, which is not empty, the map
    is full. -/
def TraceContext.Overfills (maps : HeaderMaps) (c : TraceContext) (headers : maps.Map) : Prop :=
  c.tracestate ≠ [] ∧
    ∃ first, maps.insert headers (ascii "traceparent") c.traceparent = some first ∧
    maps.full (maps.remove first (ascii "tracestate"))

theorem isVisible_of_hex {n : Nat} (h : hex id n = true) : ∀ b ∈ id, isVisible b = true := by
  have hdigit : ∀ b, isHexDigit b = true → isVisible b = true := forall_byte (by decide +kernel)
  simp only [hex, Bool.and_eq_true, List.all_eq_true] at h
  exact fun b hb => hdigit b (h.2 b hb)

/-- A context that both headers can hold. -/
structure TraceContext.Writable (c : TraceContext) : Prop where
  traceparent : c.traceparent.all isVisible = true
  tracestate : c.tracestate.all isVisible = true

theorem traceparent_visible (htrace : hex c.traceId 32 = true) (hspan : hex c.spanId 16 = true) :
    c.traceparent.all isVisible = true := by
  rw [List.all_eq_true]
  intro b hb
  obtain hsep | ⟨part, hpart, hb⟩ := mem_intercalate hb
  · rw [List.mem_singleton.mp hsep]
    rfl
  · have hflags : (if c.flags % 2 = 1 then ascii "01" else ascii "00").all isVisible = true := by
      split <;> rfl
    simp only [List.mem_cons, List.not_mem_nil, or_false] at hpart
    rcases hpart with rfl | rfl | rfl | rfl
    · exact List.all_eq_true.mp (rfl : (ascii "00").all isVisible = true) b hb
    · exact isVisible_of_hex htrace b hb
    · exact isVisible_of_hex hspan b hb
    · exact List.all_eq_true.mp hflags b hb

theorem TraceContext.WellFormed.writable (h : c.WellFormed) : c.Writable where
  traceparent := traceparent_visible h.traceId_hex h.spanId_hex
  tracestate := (validState_spec h.tracestate).2.2

/-- What `inject` does with a map that is not full: it writes the two headers, and
    panics if there is no room for the second one. -/
theorem TraceContext.Writable.inject_spec (h : c.Writable) {maps : HeaderMaps} {headers : maps.Map}
    (hroom : ¬ maps.full headers) :
    (c.Overfills maps headers ∧ c.inject maps headers = none) ∨
    ∃ written, ¬ c.Overfills maps headers ∧ c.inject maps headers = some written ∧
      maps.getAll written (ascii "traceparent") = [c.traceparent] ∧
      maps.getAll written (ascii "tracestate") =
        (if c.tracestate = [] then [] else [c.tracestate]) := by
  have hnames : ascii "traceparent" ≠ ascii "tracestate" := by decide
  unfold TraceContext.inject TraceContext.Overfills
  rw [maps.parseValue_visible h.traceparent, maps.parseValue_visible h.tracestate]
  simp only [Option.bind_eq_bind, Option.bind_some]
  obtain ⟨first, hfirst⟩ :=
    Option.isSome_iff_exists.mp (maps.insert_isSome hroom (ascii "traceparent") c.traceparent)
  have hparent : maps.getAll (maps.remove first (ascii "tracestate")) (ascii "traceparent") =
      [c.traceparent] := by
    rw [maps.getAll_remove, if_neg hnames, maps.getAll_insert hfirst, if_pos rfl]
  have hgone : maps.getAll (maps.remove first (ascii "tracestate")) (ascii "tracestate") = [] := by
    rw [maps.getAll_remove, if_pos rfl]
  rw [hfirst, Option.bind_some]
  by_cases hstate : c.tracestate = []
  · rw [if_pos hstate, if_pos hstate]
    exact .inr ⟨_, fun hover => hover.1 hstate, rfl, hparent, hgone⟩
  · rw [if_neg hstate, if_neg hstate]
    -- the old `tracestate` is gone, so that the new one needs room
    by_cases hfull : maps.full (maps.remove first (ascii "tracestate"))
    · exact .inl ⟨⟨hstate, first, rfl, hfull⟩, maps.insert_full hfull hgone _⟩
    · obtain ⟨written, hwritten⟩ :=
        Option.isSome_iff_exists.mp (maps.insert_isSome hfull (ascii "tracestate") c.tracestate)
      refine .inr ⟨written, ?_, hwritten, ?_, ?_⟩
      · rintro ⟨-, other, hother, hfull'⟩
        cases hother
        exact hfull hfull'
      · rw [maps.getAll_insert hwritten, if_neg hnames, hparent]
      · rw [maps.getAll_insert hwritten, if_pos rfl]

/-- Writing the context and reading it back: the headers that are left, and what is read. -/
def RoundTrips (maps : HeaderMaps) (c : TraceContext) (headers : maps.Map) : Prop :=
  match c.inject maps headers with
  | none => False
  | some written =>
    (maps.getAll written (ascii "traceparent")).length = 1 ∧
    (maps.getAll written (ascii "tracestate")).length ≤ 1 ∧ fromHeaders maps written = some c

instance (maps : HeaderMaps) (c : TraceContext) (headers : maps.Map) :
    Decidable (RoundTrips maps c headers) := by
  unfold RoundTrips
  split <;> infer_instance

theorem TraceContext.WellFormed.parse_traceparent (h : c.WellFormed) :
    parse c.traceparent c.tracestate = some c ↔ c.spanId ≠ List.replicate 16 48 := by
  refine ⟨fun hparse => (parse_wellFormed hparse).2, fun hspan => ?_⟩
  rw [parse_eq_some]
  have hlt := h.flags_lt
  refine ⟨ascii "00", if c.flags % 2 = 1 then ascii "01" else ascii "00", [], ?_, ?_, ?_⟩
  · constructor
    · rfl
    · decide
    · decide
    · exact fun _ => rfl
    · exact h.traceId_hex
    · exact h.spanId_hex
    · split <;> decide
    · exact h.traceId_ne
    · exact hspan
    · simp
  · obtain hzero | hone : c.flags = 0 ∨ c.flags = 1 := by omega
    · rw [hzero]
      decide
    · rw [hone]
      decide
  · rw [h.tracestate]
    rfl

theorem TraceContext.WellFormed.restored_iff {c : TraceContext} (h : c.WellFormed)
    {maps : HeaderMaps} {headers : maps.Map} (hroom : ¬ maps.full headers) :
    RoundTrips maps c headers ↔
      ¬ c.Overfills maps headers ∧ c.spanId ≠ List.replicate 16 48 := by
  unfold RoundTrips
  obtain ⟨hover, hinject⟩ | ⟨written, hover, hinject, hparent, hstate⟩ :=
    h.writable.inject_spec hroom
  · simp [hinject, hover]
  · have hread : fromHeaders maps written = parse c.traceparent c.tracestate := by
      unfold fromHeaders HeaderMaps.get
      rw [hparent, hstate]
      by_cases hempty : c.tracestate = []
      · simp [hempty, maps.toStr_visible h.writable.traceparent, List.intercalate]
      · simp [hempty, maps.toStr_visible h.writable.traceparent,
          maps.toStr_visible h.writable.tracestate, List.intercalate]
    rw [hinject]
    dsimp only
    rw [hparent, hstate, hread, h.parse_traceparent, and_iff_right hover]
    have hlength : (if c.tracestate = [] then [] else [c.tracestate]).length ≤ 1 := by
      split <;> simp
    simp [hlength]

theorem TraceContext.WellFormed.derive (h : c.WellFormed) (hrandom : random.length = 8) :
    (c.derive (idText random)).WellFormed where
  traceId_hex := h.traceId_hex
  traceId_ne := h.traceId_ne
  spanId_hex := by
    have hid := hex_idText random
    rwa [hrandom] at hid
  flags_lt := by
    show (if c.flags % 2 ≠ 0 then 1 else 0) < 2
    split <;> omega
  tracestate := h.tracestate

/-- A state is normalized to its trimmed members, exactly the `traceparent`s of
    the accepted form are parsed, and a parsed context, like the one derived
    from it, is read back from where it was written, exactly when the map is not
    full before the second header and the derived id is not zero. -/
theorem traceContext_roundTrips (parent state : Bytes) (maps : HeaderMaps) (headers : maps.Map) :
    (∀ out, validState state = some out → validState out = some out ∧
      (state ≠ [] → out.splitOn comma = (state.splitOn comma).map trim)) ∧
    ((parse parent state).isSome = true ↔ ∃ version traceId spanId flags extra,
      IsTraceparent parent version traceId spanId flags extra) ∧
    ∀ c (random : Bytes), parse parent state = some c → random.length = 8 →
      ¬ maps.full headers →
      (RoundTrips maps c headers ↔ ¬ c.Overfills maps headers) ∧
      (RoundTrips maps (c.derive (idText random)) headers ↔
        ¬ (c.derive (idText random)).Overfills maps headers ∧ ∃ b ∈ random, b ≠ 0) := by
  refine ⟨fun out h => ⟨(validState_spec h).2.1, (validState_spec h).1⟩, ?_, ?_⟩
  · constructor
    · intro hsome
      obtain ⟨c, hparse⟩ := Option.isSome_iff_exists.mp hsome
      obtain ⟨version, flags, extra, hform, -⟩ := parse_eq_some.mp hparse
      exact ⟨version, c.traceId, c.spanId, flags, extra, hform⟩
    · rintro ⟨version, traceId, spanId, flags, extra, hform⟩
      have hparse : parse parent state =
          some ⟨traceId, spanId, fromHex flags % 2, (validState state).getD []⟩ :=
        parse_eq_some.mpr ⟨version, flags, extra, hform, rfl, rfl⟩
      simp [hparse]
  · intro c random hparse hrandom hroom
    obtain ⟨hwell, hspan⟩ := parse_wellFormed hparse
    -- only a span id of zeros does not survive, and it is drawn from zeros only
    have hzero : (c.derive (idText random)).spanId = List.replicate 16 48 ↔
        ∀ b ∈ random, b = 0 := by
      rw [← idText_eq_zero, hrandom]
      rfl
    have hdrawn : (c.derive (idText random)).spanId ≠ List.replicate 16 48 ↔
        ∃ b ∈ random, b ≠ 0 := by
      rw [Ne, hzero]
      simp
    rw [hwell.restored_iff hroom, (hwell.derive hrandom).restored_iff hroom, hdrawn,
      and_iff_left hspan]
    exact ⟨Iff.rfl, Iff.rfl⟩

/-- A parent whose derived context is lost: all random bytes are zero. -/
theorem traceContext_zero_id :
    ∃ c, parse (ascii "00-0af7651916cd43dd8448eb211c80319c-b7ad6b7169203331-01") [] = some c ∧
      ¬ (limitedMaps 24576).full (limitedMaps 24576).empty ∧
      ¬ RoundTrips (limitedMaps 24576) (c.derive (idText (List.replicate 8 0)))
        (limitedMaps 24576).empty := by
  refine ⟨⟨ascii "0af7651916cd43dd8448eb211c80319c", ascii "b7ad6b7169203331", 1, []⟩,
    by decide +kernel, ?_, by decide +kernel⟩
  show ¬ 24576 ≤ 0
  decide

end Odenctl.Runtime.Trace
